import DbMcpGateway.Data.Infix

/-!
# What a parse error shows of the file

`parse_from` (config/yaml.rs:175) keeps of the parser's message only what
`schema_expectation` finds in it: the text from the first `expected one of ` on, up to the
position. The message quotes a token of the file before that marker.

Results:

* `expectation_same_iff`: the error does not depend on the token exactly if the token does not have
  the marker.
* `expectation_leaks`: a token with the marker is copied into the error.
-/

namespace DbMcpGateway.Config

open Infix

/-- The text `MARKER` of `schema_expectation`. -/
def marker : List Char := "expected one of ".toList

/-- The text at which the position begins. -/
def positionMarker : List Char := " at line ".toList

/-- `str::split` with a text, and the first piece. -/
def firstPiece (separator text : List Char) : List Char :=
  match text.dropInfix? separator with
  | some (before, _) => before
  | none => text

/-- `trim_end_matches([' ', ','])`. -/
def trimEnd (text : List Char) : List Char :=
  (text.reverse.dropWhile fun c => c == ' ' || c == ',').reverse

/-- `schema_expectation` (config/yaml.rs:207). -/
def schemaExpectation (message : List Char) : Option (List Char) :=
  match message.dropInfix? marker with
  | none => none
  | some (_, rest) => some (trimEnd (firstPiece positionMarker (marker ++ rest)))

/-- The variant `Parse` of `ConfigFileError` (config/yaml.rs:89). -/
structure ParseError where
  path : String
  /-- `:line:column`, or nothing. -/
  location : List Char
  /-- The expectation in parentheses, or nothing. -/
  expected : List Char
  deriving DecidableEq

/-- `ConfigFileError::parse_from` (config/yaml.rs:175); `position` is the location of the
    source. -/
def parseFrom (path : String) (position : Option (ℕ × ℕ)) (message : List Char) : ParseError where
  path := path
  location := match position with
    | some (line, column) => ':' :: Nat.toDigits 10 line ++ ':' :: Nat.toDigits 10 column
    | none => []
  expected := match schemaExpectation message with
    | some list => " (".toList ++ list ++ ")".toList
    | none => []

/-- The `Display` of the variant (config/yaml.rs:119). -/
def ParseError.display (e : ParseError) : List Char :=
  e.path.toList ++ e.location ++ ": invalid configuration".toList ++ e.expected

/-! ## Messages of the parser -/

/-- What the token was read as. -/
inductive Unknown
  | variant
  | field
  deriving DecidableEq

def Unknown.text : Unknown → List Char
  | .variant => "unknown variant ".toList
  | .field => "unknown field ".toList

/-- The position that the parser appends. -/
def positionText : Option (ℕ × ℕ) → List Char
  | some (line, column) =>
    positionMarker ++ Nat.toDigits 10 line ++ ", column ".toList ++ Nat.toDigits 10 column
  | none => []

/-- The message for a token that is not in the list. -/
def unknownMessage (unknown : Unknown) (token list : List Char) (position : Option (ℕ × ℕ)) :
    List Char :=
  unknown.text ++ '`' :: (token ++ '`' :: (", ".toList ++ marker ++ list ++ positionText position))

theorem dropInfix?_unknownMessage {unknown : Unknown} {token list position} (h : ¬ marker <:+: token) :
    ∃ before, (unknownMessage unknown token list position).dropInfix? marker =
      some (before, list ++ positionText position) := by
  have hbacktick : '`' ∉ marker := by decide
  have hunknown : ¬ marker <:+: unknown.text := by cases unknown <;> decide
  have hlist : (", ".toList ++ marker ++ list ++ positionText position).dropInfix? marker =
      some (", ".toList, list ++ positionText position) := by
    rw [List.append_assoc, List.append_assoc]
    exact dropInfix?_cons_of_head (by decide) (by decide)
      (dropInfix?_cons_of_head (by decide) (by decide) (dropInfix?_append marker _))
  exact ⟨_, dropInfix?_append_cons hbacktick hunknown (dropInfix?_append_cons hbacktick h hlist)⟩

theorem schemaExpectation_unknownMessage {unknown : Unknown} {token list position}
    (h : ¬ marker <:+: token) :
    schemaExpectation (unknownMessage unknown token list position) =
      some (trimEnd (firstPiece positionMarker (marker ++ (list ++ positionText position)))) := by
  obtain ⟨before, hmarker⟩ := dropInfix?_unknownMessage h
  rw [schemaExpectation, hmarker]

theorem firstPiece_append_cons {separator xs ys} {c : Char} (hc : c ∉ separator)
    (hxs : ¬ separator <:+: xs) :
    firstPiece separator (xs ++ c :: ys) = xs ++ c :: firstPiece separator ys := by
  cases hys : ys.dropInfix? separator with
  | some r => rw [firstPiece, firstPiece, dropInfix?_append_cons hc hxs hys, hys]
  | none =>
    cases htext : (xs ++ c :: ys).dropInfix? separator with
    | none => rw [firstPiece, firstPiece, htext, hys]
    | some r =>
      rcases infix_append_cons hc (infix_of_dropInfix? htext) with hinner | hinner
      · exact absurd hinner hxs
      · obtain ⟨p, s, hsome⟩ := exists_dropInfix? hinner
        rw [hys] at hsome
        cases hsome

@[simp] theorem firstPiece_positionText (position : Option (ℕ × ℕ)) :
    firstPiece positionMarker (positionText position) = [] := by
  cases position with
  | none => rfl
  | some location =>
    simp only [firstPiece, positionText, List.append_assoc, dropInfix?_append]

theorem firstPiece_position (text : List Char) {position position' : Option (ℕ × ℕ)}
    (h : position.isSome = position'.isSome) :
    firstPiece positionMarker (text ++ positionText position) =
      firstPiece positionMarker (text ++ positionText position') := by
  obtain ⟨before, rest, hbefore⟩ := exists_dropInfix? (List.infix_append text positionMarker [])
  have hpiece : ∀ location : ℕ × ℕ,
      firstPiece positionMarker (text ++ positionText (some location)) = before := by
    intro location
    have hdrop := dropInfix?_append_of_some hbefore (Nat.toDigits 10 location.1 ++
      ", column ".toList ++ Nat.toDigits 10 location.2)
    simp only [List.append_nil, List.append_assoc] at hdrop
    simp only [firstPiece, positionText, List.append_assoc, hdrop]
  cases position with
  | none =>
    cases position' with
    | none => rfl
    | some _ => cases h
  | some _ =>
    cases position' with
    | none => cases h
    | some _ => rw [hpiece, hpiece]

/-- The error shows the expectation as it was found. -/
theorem parseFrom_eq_iff {path : String} {location message message'} :
    parseFrom path location message = parseFrom path location message' ↔
      schemaExpectation message = schemaExpectation message' := by
  refine ⟨fun h => ?_, fun h => by simp only [parseFrom, h]⟩
  have hexpected := congrArg ParseError.expected h
  simp only [parseFrom] at hexpected
  cases hmessage : schemaExpectation message <;> cases hmessage' : schemaExpectation message' <;>
    simp_all

/-! ## Tokens with the marker -/

section

variable {unknown : Unknown} {token list : List Char} {position : Option (ℕ × ℕ)}

theorem trimEnd_concat {text} {c : Char} (hc : (c == ' ' || c == ',') = false) :
    trimEnd (text ++ [c]) = text ++ [c] := by
  simp [trimEnd, hc]

theorem schemaExpectation_letter {c : Char} (h : ¬ marker <:+: token) (hc : c ∉ positionMarker)
    (hlast : (c == ' ' || c == ',') = false) :
    schemaExpectation (unknownMessage unknown token [c] position) = some (marker ++ [c]) := by
  rw [schemaExpectation_unknownMessage h, List.singleton_append,
    firstPiece_append_cons hc (by decide), firstPiece_positionText, trimEnd_concat hlast]

/-- A marker in the token is the first one. -/
theorem schemaExpectation_of_infix (h : marker <:+: token) :
    ∃ rest, ∀ unknown list position,
      schemaExpectation (unknownMessage unknown token list position) =
        some (trimEnd (firstPiece positionMarker (marker ++ rest ++ '`' ::
          (", ".toList ++ marker ++ list ++ positionText position)))) := by
  have hbacktick : '`' ∉ marker := by decide
  obtain ⟨before, rest, hdrop⟩ := exists_dropInfix? h
  refine ⟨rest, fun unknown list position => ?_⟩
  have hunknown : ¬ marker <:+: unknown.text := by cases unknown <;> decide
  rw [schemaExpectation, unknownMessage, dropInfix?_append_cons hbacktick hunknown
    (dropInfix?_append_of_some hdrop _), List.append_assoc marker]

theorem exists_ne_of_infix (unknown₀ : Unknown) {token₀} (position₀ : Option (ℕ × ℕ))
    (h₀ : ¬ marker <:+: token₀) (h : marker <:+: token) :
    ∃ list, schemaExpectation (unknownMessage unknown token list position) ≠
      schemaExpectation (unknownMessage unknown₀ token₀ list position₀) := by
  obtain ⟨rest, hrest⟩ := schemaExpectation_of_infix h
  by_contra hsame
  have hletter : ∀ c, c ∉ positionMarker → (c == ' ' || c == ',') = false →
      trimEnd (firstPiece positionMarker (marker ++ rest ++ '`' ::
        (", ".toList ++ marker ++ [c] ++ positionText position))) = marker ++ [c] := by
    intro c hc hlast
    have heq := not_not.mp (not_exists.mp hsame [c])
    rw [hrest, schemaExpectation_letter h₀ hc hlast] at heq
    exact Option.some.inj heq
  by_cases hcut : positionMarker <:+: marker ++ rest
  · -- the text ends in the token, so it is the same for every list
    obtain ⟨before, rest', hdrop⟩ := exists_dropInfix? hcut
    have hx := hletter 'x' (by decide) (by decide)
    have hy := hletter 'y' (by decide) (by decide)
    simp only [firstPiece, dropInfix?_append_of_some hdrop] at hx hy
    have hxy := hx.symm.trans hy
    simp at hxy
  · -- the text goes on behind the token, and is too long
    have hx := hletter 'x' (by decide) (by decide)
    rw [firstPiece_append_cons (by decide) hcut, List.append_assoc _ ['x'], List.singleton_append,
      firstPiece_append_cons (by decide) (by decide), firstPiece_positionText] at hx
    have hconcat : marker ++ rest ++ '`' :: (", ".toList ++ marker ++ ['x']) =
        (marker ++ rest ++ '`' :: (", ".toList ++ marker)) ++ ['x'] := by simp
    rw [hconcat, trimEnd_concat (by decide)] at hx
    have hlength := congrArg List.length hx
    simp only [List.length_append, List.length_cons] at hlength
    omega

end

/-- **A parse error does not depend on the token exactly if the token does not have the marker**:
    its texts are, over all lists, those of a token without the marker. The lines and columns of the
    two messages may differ. -/
theorem expectation_same_iff (unknown₀ unknown : Unknown) (token₀ token : List Char)
    (position₀ position : Option (ℕ × ℕ)) (hposition : position.isSome = position₀.isSome)
    (h₀ : ¬ marker <:+: token₀) :
    ((∀ list, schemaExpectation (unknownMessage unknown token list position) =
      schemaExpectation (unknownMessage unknown₀ token₀ list position₀)) ↔
      ¬ marker <:+: token) ∧
    ((∀ list path location, parseFrom path location (unknownMessage unknown token list position) =
      parseFrom path location (unknownMessage unknown₀ token₀ list position₀)) ↔
      ¬ marker <:+: token) := by
  have hiff : (∀ list, schemaExpectation (unknownMessage unknown token list position) =
      schemaExpectation (unknownMessage unknown₀ token₀ list position₀)) ↔
      ¬ marker <:+: token := by
    constructor
    · intro hsame hmarker
      obtain ⟨list, hne⟩ : ∃ list, schemaExpectation (unknownMessage unknown token list position) ≠
          schemaExpectation (unknownMessage unknown₀ token₀ list position₀) :=
        exists_ne_of_infix unknown₀ position₀ h₀ hmarker
      exact hne (hsame list)
    · intro h list
      rw [schemaExpectation_unknownMessage h, schemaExpectation_unknownMessage h₀,
        ← List.append_assoc, ← List.append_assoc, firstPiece_position _ hposition]
  refine ⟨hiff, ?_⟩
  simp only [parseFrom_eq_iff, forall_const, hiff]

theorem expectation_same_iff_hunter :
    ¬ marker <:+: "hunter2".toList ∧
    (∀ list, schemaExpectation (unknownMessage .variant "hunter2".toList list (some (3, 9))) =
      schemaExpectation (unknownMessage .field "x".toList list (some (4, 1)))) ∧
    ¬ ∀ list, schemaExpectation (unknownMessage .variant "expected one of hunter2".toList list none) =
      schemaExpectation (unknownMessage .variant "x".toList list none) :=
  ⟨by decide,
    (expectation_same_iff .field .variant "x".toList "hunter2".toList (some (4, 1)) (some (3, 9))
      rfl (by decide)).1.mpr (by decide),
    fun h => (expectation_same_iff .variant .variant "x".toList "expected one of hunter2".toList
      none none rfl (by decide)).1.mp h (by decide)⟩

example : (parseFrom "a.yaml" (some (3, 9)) (unknownMessage .variant "hunter2".toList
    "postgres, mysql".toList (some (3, 9)))).display =
    "a.yaml:3:9: invalid configuration (expected one of postgres, mysql)".toList := by decide

/-- A token with the marker is copied into the error. -/
theorem expectation_leaks :
    ¬ ∀ (unknown : Unknown) (token₁ token₂ list : List Char) (position : Option (ℕ × ℕ)),
      schemaExpectation (unknownMessage unknown token₁ list position) =
        schemaExpectation (unknownMessage unknown token₂ list position) := by
  intro h
  have hsame := h .variant "x".toList "expected one of hunter2".toList "postgres".toList none
  revert hsame
  decide

end DbMcpGateway.Config

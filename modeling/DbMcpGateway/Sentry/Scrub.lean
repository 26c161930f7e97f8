import DbMcpGateway.Data.Regex
import DbMcpGateway.Data.Text

/-!
# Scrubbing of texts

`Scrubber::scrub_str` (sentry_scrub.rs): three patterns are replaced one after the other, in a text
that is going to leave the gateway with an error event. `\w` and `\s` are Unicode classes; only
their ASCII part is fixed here, and that the letters which fold to `s` and `k` are not spaces.

Results:

* `urlCreds_matchAt_iff`, `Assigning.matched`: the texts that the patterns match.
* `Redacts.loose_replaceAll`: a pass that changes a text makes it tighter, and no later pass undoes
  that.
* `scrubStr_ne_iff`: a text is changed exactly if a match of one of the patterns is.
* `scrubStr_url_iff`: the password of a URL is gone exactly if the URL has a user, or a later pass
  finds a match over it.
* `redis_leaks`: a URL without a user.
-/

namespace DbMcpGateway.Sentry

open Regex

/-! ## Patterns -/

def asciiSpaces : List Char := [' ', '\t', '\n', '\r', '\x0b', '\x0c']

/-- The classes `\w` and `\s`. -/
structure Classes where
  word : Char → Bool
  space : Char → Bool
  word_ascii : ∀ c : Char, c.toNat < 128 → word c = (c.isAlphanum || c == '_')
  space_ascii : ∀ c : Char, c.toNat < 128 → space c = asciiSpaces.contains c
  space_fold : space '\u017f' = false ∧ space '\u212a' = false

/-- The classes without a character beyond ASCII. -/
def asciiClasses : Classes where
  word c := c.toNat < 128 && (c.isAlphanum || c == '_')
  space c := c.toNat < 128 && asciiSpaces.contains c
  word_ascii c hc := by simp [hc]
  space_ascii c hc := by simp [hc]
  space_fold := by decide

def lit (c : Char) : Elem Char := .one fun d => d == c

/-- A letter under `(?i)`: simple case folding adds `ſ` to `s` and the Kelvin sign to `k`. -/
def folds (c d : Char) : Bool :=
  d.toLower == c.toLower || (c.toLower == 's' && d == '\u017f') ||
    (c.toLower == 'k' && d == '\u212a')

def litFold (s : String) : List (Elem Char) := s.toList.map fun c => .one (folds c)

/-- The names whose values are to be redacted. -/
def sensitiveNames : List String :=
  ["STATE_DB_URL", "TARGET_DB_URL", "PERMISSIONS_DB_DSN", "OIDC_CLIENT_SECRET",
    "SESSION_SIGNING_KEY"]

def secretWords : List String := ["password", "passwd", "pwd", "secret", "token", "dsn"]

section

variable (cls : Classes)

/-- `[\w.+-]`. -/
def schemeClass (c : Char) : Bool := cls.word c || c == '.' || c == '+' || c == '-'

/-- `[^/\s:@]`. -/
def userClass (c : Char) : Bool := !(c == '/' || cls.space c || c == ':' || c == '@')

/-- `[^/\s@]`. -/
def passwordClass (c : Char) : Bool := !(c == '/' || cls.space c || c == '@')

/-- `URL_CREDS_PATTERN` (sentry_scrub.rs:48). -/
def urlCreds : Pattern Char where
  lead := []
  group := [[.one cls.word, .star (schemeClass cls), lit ':', lit '/', lit '/']]
  rest := [.one (userClass cls), .star (userClass cls), lit ':', .one (passwordClass cls),
    .star (passwordClass cls), lit '@']

/-- `\s*[:=]\s*\S+`. -/
def assignment : List (Elem Char) :=
  [.star cls.space, .one fun c => c == ':' || c == '=', .star cls.space, .one fun c => !cls.space c,
    .star fun c => !cls.space c]

/-- `SENSITIVE_KEY_PATTERN` (sentry_scrub.rs:63). -/
def sensitiveKey : Pattern Char where
  lead := [.boundary cls.word]
  group := sensitiveNames.map litFold
  rest := assignment cls

/-- `SECRET_PATTERN` (sentry_scrub.rs:53). -/
def secret : Pattern Char where
  lead := []
  group := secretWords.map litFold
  rest := assignment cls

/-- `REDACTED` (sentry_scrub.rs:43). -/
def redacted : String := "***REDACTED***"

/-- `$1***REDACTED***@`. -/
def urlTemplate (group : List Char) : List Char := group ++ redacted.toList ++ ['@']

/-- `$1=***REDACTED***`. -/
def assignmentTemplate (group : List Char) : List Char := group ++ '=' :: redacted.toList

/-- The second and the third pass of `scrub_str`. -/
def scrubAssignments (text : List Char) : List Char :=
  (secret cls).replaceAll assignmentTemplate
    ((sensitiveKey cls).replaceAll assignmentTemplate text)

/-- `Scrubber::scrub_str` (sentry_scrub.rs:108). -/
def scrubStr (s : String) : String :=
  String.ofList (scrubAssignments cls ((urlCreds cls).replaceAll urlTemplate s.toList))

end

example : scrubStr asciiClasses "dsn: postgres://u:p@h failed" = "dsn=***REDACTED*** failed" := by
  decide
example : scrubStr asciiClasses "MY_STATE_DB_URL=x State_Db_Url = y" =
    "MY_STATE_DB_URL=x State_Db_Url=***REDACTED***" := by decide

/-! ## URLs -/

/-- A character of a user name (RFC 3986: unreserved, percent-encoded or sub-delims). -/
def userChar (c : Char) : Bool := c.isAlphanum || "-._~%!$&'()*+,;=".toList.contains c

/-- A character of a password, which may have colons. -/
def passwordChar (c : Char) : Bool := userChar c || c == ':'

inductive IsScheme : List Char → Prop
  | mk {c : Char} {cs} (hc : c.isAlpha = true)
      (hcs : ∀ d ∈ cs, (d.isAlphanum || ['+', '-', '.'].contains d) = true) : IsScheme (c :: cs)

theorem toNat_lt_of_isAlphanum {c : Char} (h : c.isAlphanum = true) : c.toNat < 128 := by
  delta Char.isAlphanum Char.isAlpha Char.isUpper Char.isLower Char.isDigit at h
  simp [UInt32.le_iff_toNat_le] at h
  omega

theorem toNat_lt_of_userChar {c : Char} (h : userChar c = true) : c.toNat < 128 := by
  rcases Bool.or_eq_true _ _ |>.mp h with h | h
  · exact toNat_lt_of_isAlphanum h
  · have hall : "-._~%!$&'()*+,;=".toList.all (fun c => c.toNat < 128) = true := by decide
    exact of_decide_eq_true (List.all_eq_true.mp hall c (List.contains_iff_mem.mp h))

section

variable {cls : Classes} {c : Char}

theorem word_of_isAlphanum (h : c.isAlphanum = true) : cls.word c = true := by
  rw [cls.word_ascii c (toNat_lt_of_isAlphanum h), h, Bool.true_or]

theorem schemeClass_of_scheme (h : (c.isAlphanum || ['+', '-', '.'].contains c) = true) :
    schemeClass cls c = true := by
  unfold schemeClass
  rcases Bool.or_eq_true _ _ |>.mp h with h | h
  · rw [word_of_isAlphanum h]
    rfl
  · simp only [List.contains_cons, List.contains_nil, Bool.or_false, Bool.or_eq_true,
      beq_iff_eq] at h
    rcases h with rfl | rfl | rfl <;> simp

theorem userClass_of_userChar (h : userChar c = true) : userClass cls c = true := by
  have hspace : cls.space c = false := by
    rw [cls.space_ascii c (toNat_lt_of_userChar h)]
    by_contra hmem
    have hall : asciiSpaces.all (fun d => !userChar d) = true := by decide
    rw [Bool.not_eq_false, List.contains_iff_mem] at hmem
    simpa [h] using List.all_eq_true.mp hall c hmem
  have hne : ∀ d ∈ ['/', ':', '@'], c ≠ d := by
    have hall : ['/', ':', '@'].all (fun d => !userChar d) = true := by decide
    rintro d hd rfl
    simpa [h] using List.all_eq_true.mp hall c hd
  simp [userClass, hspace, hne '/' (by simp), hne ':' (by simp), hne '@' (by simp)]

theorem passwordClass_of_userClass (h : userClass cls c = true) : passwordClass cls c = true := by
  simp only [userClass, passwordClass, Bool.not_eq_true', Bool.or_eq_false_iff] at *
  exact ⟨h.1.1, h.2⟩

theorem passwordClass_of_passwordChar (h : passwordChar c = true) : passwordClass cls c = true := by
  rcases Bool.or_eq_true _ _ |>.mp h with h | h
  · exact passwordClass_of_userClass (userClass_of_userChar h)
  · rw [beq_iff_eq] at h
    subst h
    simp only [passwordClass, cls.space_ascii ':' (by decide)]
    decide

/-- The classes end where the pattern expects its next character. -/
theorem schemeClass_ne (h : schemeClass cls c = true) : (c == ':') = false := by
  rw [beq_eq_false_iff_ne]
  rintro rfl
  simp only [schemeClass, cls.word_ascii ':' (by decide)] at h
  revert h
  decide

theorem userClass_ne (h : userClass cls c = true) : (c == ':') = false := by
  simp only [userClass, Bool.not_eq_true', Bool.or_eq_false_iff] at h
  exact h.1.2

theorem passwordClass_ne (h : passwordClass cls c = true) : (c == '@') = false := by
  simp only [passwordClass, Bool.not_eq_true', Bool.or_eq_false_iff] at h
  exact h.2

end

variable {β : Type} {k : Option Char → List Char → Option β} {d : Char}

theorem matchSeq_lit {es} {before} {cs} :
    matchSeq (lit d :: es) k before (d :: cs) = matchSeq es k (some d) cs :=
  matchSeq_one (beq_self_eq_true d)

theorem matchSeq_star_lit {es} {before} {p : Char → Bool} {run cs}
    (hp : ∀ c, p c = true → (c == d) = false) (hrun : ∀ c ∈ run, p c = true) :
    matchSeq (.star p :: lit d :: es) k before (run ++ d :: cs) = matchSeq es k (some d) cs :=
  matchSeq_star_one hp hrun (beq_self_eq_true d)

/-- The parts of a match of `urlCreds`. -/
structure UrlParts (cls : Classes) (c : Char) (run user password : List Char) : Prop where
  word : cls.word c = true
  run_class : ∀ d ∈ run, schemeClass cls d = true
  user_class : ∀ d ∈ user, userClass cls d = true
  user_ne : user ≠ []
  password_class : ∀ d ∈ password, passwordClass cls d = true
  password_ne : password ≠ []

/-- A text that starts with a match of `urlCreds`, with its end after the group and after the
    match. -/
inductive UrlMatch (cls : Classes) : List Char → List Char → List Char → Prop
  | mk {c run user password after} (h : UrlParts cls c run user password) :
    UrlMatch cls (c :: run ++ ':' :: '/' :: '/' :: (user ++ ':' :: (password ++ '@' :: after)))
      (user ++ ':' :: (password ++ '@' :: after)) after

section

variable {cls : Classes} {before : Option Char} {cs mid after : List Char}

theorem urlCreds_matchAt_iff :
    (urlCreds cls).matchAt before cs = some (mid, after) ↔ UrlMatch cls cs mid after := by
  constructor
  · intro h
    obtain ⟨alt, halt, g, m, rfl, rfl, hg, hm⟩ := Pattern.matchAt_sound h
    rw [List.mem_singleton.mp halt] at hg
    obtain ⟨c, _, rfl, hc, run, _, rfl, hrun, d, _, rfl, hd, e, _, rfl, he, f, _, rfl, hf, rfl⟩ :=
      hg
    obtain ⟨u, _, rfl, hu, us, _, rfl, hus, d', _, rfl, hd', p, _, rfl, hp, ps, _, rfl, hps, e', _,
      rfl, he', rfl⟩ := hm
    rw [beq_iff_eq] at hd he hf hd' he'
    subst hd he hf hd' he'
    have hmatch := @UrlMatch.mk cls c run (u :: us) (p :: ps) after
      ⟨hc, hrun, List.forall_mem_cons.mpr ⟨hu, hus⟩, List.cons_ne_nil u us,
        List.forall_mem_cons.mpr ⟨hp, hps⟩, List.cons_ne_nil p ps⟩
    simpa using hmatch
  · rintro ⟨hc, hrun, huser, hne, hpassword, hne'⟩
    obtain ⟨u, us, rfl⟩ := List.exists_cons_of_ne_nil hne
    obtain ⟨p, ps, rfl⟩ := List.exists_cons_of_ne_nil hne'
    rw [List.forall_mem_cons] at huser hpassword
    simp only [Pattern.matchAt, urlCreds, List.findSome?_cons, List.findSome?_nil, List.nil_append]
    rw [List.cons_append, matchSeq_one hc, matchSeq_star_lit (fun _ => schemeClass_ne) hrun,
      matchSeq_lit, matchSeq_lit, matchSeq, List.cons_append, matchSeq_one huser.1,
      matchSeq_star_lit (fun _ => userClass_ne) huser.2, List.cons_append,
      matchSeq_one hpassword.1, matchSeq_star_lit (fun _ => passwordClass_ne) hpassword.2, matchSeq]

theorem urlCreds_shorter (h : (urlCreds cls).matchAt before cs = some (mid, after)) :
    after.length < cs.length := by
  obtain ⟨-⟩ := urlCreds_matchAt_iff.mp h
  simp only [List.length_append, List.length_cons]
  omega

theorem urlCreds_parsed (cls : Classes) (text : List Char) :
    Pattern.Parsed (urlCreds cls) none text ((urlCreds cls).pieces text) :=
  Pattern.parsed_pieces urlCreds_shorter text

theorem IsScheme.class {scheme} (h : IsScheme scheme) (cls : Classes) :
    ∃ c run, scheme = c :: run ∧ cls.word c = true ∧ ∀ d ∈ run, schemeClass cls d = true := by
  obtain @⟨c, run, hc, hrun⟩ := h
  exact ⟨c, run, rfl, word_of_isAlphanum (by simp [Char.isAlphanum, hc]),
    fun d hd => schemeClass_of_scheme (hrun d hd)⟩

theorem schemeClass_of_word {c : Char} (h : cls.word c = true) : schemeClass cls c = true := by
  simp [schemeClass, h]

theorem UrlParts.scheme {c run user password} (h : UrlParts cls c run user password) :
    ∀ d ∈ c :: run, schemeClass cls d = true :=
  List.forall_mem_cons.mpr ⟨schemeClass_of_word h.word, h.run_class⟩

theorem not_mem_of_class {p : Char → Bool} {d : Char} (hd : p d = false)
    (hcs : ∀ c ∈ cs, p c = true) : d ∉ cs := by
  intro hmem
  rw [hcs d hmem] at hd
  cases hd

theorem schemeClass_punctuation (cls : Classes) : schemeClass cls ':' = false ∧
    schemeClass cls '/' = false ∧ schemeClass cls '@' = false := by
  simp only [schemeClass, cls.word_ascii _ (by decide : ':'.toNat < 128),
    cls.word_ascii _ (by decide : '/'.toNat < 128), cls.word_ascii _ (by decide : '@'.toNat < 128)]
  decide

/-! ## The only `://` of a text -/

/-- The text `://`. -/
def slashes : List Char := "://".toList

/-- Between the two texts stands the only `://`. -/
structure Single (a b : List Char) : Prop where
  before : ¬ slashes <:+: a ++ [':', '/']
  after : ¬ slashes <:+: '/' :: '/' :: b

theorem Single.tail {c : Char} {a b} (h : Single (c :: a) b) : Single a b :=
  ⟨fun hinner => h.before (hinner.trans (List.suffix_cons c _).isInfix), h.after⟩

theorem Single.eq {a b x y} (h : Single a b)
    (heq : a ++ slashes ++ b = x ++ slashes ++ y) : x = a ∧ y = b := by
  rw [List.append_assoc, List.append_assoc] at heq
  rcases List.append_eq_append_iff.mp heq with ⟨r, rfl, hr⟩ | ⟨r, rfl, hr⟩
  · cases r with
    | nil =>
      rw [List.append_nil, List.nil_append, List.append_cancel_left_eq] at *
      exact ⟨rfl, hr.symm⟩
    | cons c r =>
      -- another one after it
      refine absurd ⟨r, y, ?_⟩ h.after
      rw [List.append_assoc]
      exact (List.cons.inj hr).2.symm
  · cases r with
    | nil =>
      rw [List.append_nil, List.nil_append, List.append_cancel_left_eq] at *
      exact ⟨rfl, hr⟩
    | cons c r =>
      -- another one before it
      have hstart : slashes <+: c :: r ++ (slashes ++ b) := ⟨y, hr⟩
      have hshort : c :: r ++ [':', '/'] <+: c :: r ++ (slashes ++ b) := ⟨'/' :: b,
          by simp [slashes]⟩
      have hbegins := List.prefix_of_prefix_length_le hstart hshort (by simp [slashes])
      refine absurd ?_ h.before
      rw [List.append_assoc]
      exact hbegins.isInfix.trans (List.suffix_append x _).isInfix

theorem UrlMatch.eq {a b} (h : UrlMatch cls cs mid after) (hsingle : Single a b)
    {p} (hcs : p ++ cs = a ++ slashes ++ b) :
    mid = b ∧ ∃ c run, a = p ++ c :: run ∧ cls.word c = true ∧ ∀ d ∈ run, schemeClass cls d = true := by
  obtain @⟨c, run, user, password, after, h⟩ := h
  have heq : a ++ slashes ++ b =
      (p ++ c :: run) ++ slashes ++ (user ++ ':' :: (password ++ '@' :: after)) := by
    rw [← hcs]
    simp [slashes]
  obtain ⟨rfl, rfl⟩ := hsingle.eq heq
  exact ⟨rfl, c, run, rfl, h.word, h.run_class⟩

section

variable {ps : List (Piece Char)}

/-- A text without `://` is kept. -/
theorem render_of_not_infix (h : Pattern.Parsed (urlCreds cls) before cs ps) (hcs : ¬ slashes <:+: cs) :
    ps.flatMap (Piece.render urlTemplate) = cs := by
  refine h.render_eq fun g m hmem => ?_
  obtain ⟨before', w, after, hsuffix, -, hmatch⟩ := h.exists_match hmem
  have hurl := urlCreds_matchAt_iff.mp hmatch
  generalize g ++ w ++ after = cs', w ++ after = mid at hurl hsuffix
  obtain @⟨c, run, user, password, after, -⟩ := hurl
  refine absurd (List.IsInfix.trans ?_ hsuffix.isInfix) hcs
  exact ⟨c :: run, user ++ ':' :: (password ++ '@' :: after), by simp [slashes]⟩

theorem urlCreds_matchAt {c : Char} {run user password rest}
    (h : UrlParts cls c run user password) :
    (urlCreds cls).matchAt before
        (c :: run ++ slashes ++ (user ++ ':' :: (password ++ '@' :: rest))) =
      some (user ++ ':' :: (password ++ '@' :: rest), rest) := by
  rw [urlCreds_matchAt_iff, List.append_assoc]
  exact .mk h

theorem render_url {p run user password rest} {c : Char}
    (h : Pattern.Parsed (urlCreds cls) before cs ps)
    (hcs : cs = p ++ c :: run ++ slashes ++ (user ++ ':' :: (password ++ '@' :: rest)))
    (hsingle : Single (p ++ c :: run) (user ++ ':' :: (password ++ '@' :: rest)))
    (hrest : ¬ slashes <:+: rest) (hparts : UrlParts cls c run user password) :
    ps.flatMap (Piece.render urlTemplate) =
      p ++ c :: run ++ slashes ++ (redacted.toList ++ '@' :: rest) := by
  induction h generalizing p with
  | nil => simp at hcs
  | keep hnone hkept ih =>
    cases p with
    | nil =>
      -- the URL begins here
      rw [hcs, List.nil_append, urlCreds_matchAt hparts] at hnone
      cases hnone
    | cons d p =>
      obtain ⟨rfl, rfl⟩ := List.cons.inj hcs
      rw [List.flatMap_cons, ih rfl hsingle.tail]
      rfl
  | @hit _ _ g m after ps hmatch _ hkept ih =>
    -- the match begins in front of the scheme, or with it
    obtain ⟨-, c', run', hscheme, hc', hrun'⟩ :=
      (urlCreds_matchAt_iff.mp hmatch).eq (p := []) hsingle hcs
    rw [List.nil_append] at hscheme
    rw [hscheme] at hcs ⊢
    rw [hcs, urlCreds_matchAt { hparts with word := hc', run_class := hrun' }] at hmatch
    obtain ⟨hmid, rfl⟩ := Prod.mk.inj (Option.some.inj hmatch)
    obtain rfl : g = c' :: run' ++ slashes := by
      rw [List.append_assoc, ← hmid] at hcs
      exact List.append_cancel_right hcs
    rw [List.flatMap_cons, render_of_not_infix hkept hrest]
    simp [Piece.render, urlTemplate]

end

end

/-! ## Assignments -/

/-- A character that is no space and has no part in the patterns. -/
def Plain (cls : Classes) (c : Char) : Prop :=
  cls.space c = false ∧ c ∉ [':', '=', '@', '*', '/']

/-- A name, in letters that fold to its own. -/
structure IsName (cls : Classes) (g : List Char) : Prop where
  ne_nil : g ≠ []
  plain : ∀ c ∈ g, Plain cls c

/-- What a match takes after the name, up to a space or the end. -/
inductive IsValue (cls : Classes) : List Char → Prop
  | mk {spaces spaces' value sep} (hspaces : ∀ c ∈ spaces, cls.space c = true)
      (hsep : sep = ':' ∨ sep = '=') (hspaces' : ∀ c ∈ spaces', cls.space c = true)
      (hvalue : ∀ c ∈ value, cls.space c = false) (hne : value ≠ []) :
      IsValue cls (spaces ++ sep :: (spaces' ++ value))

theorem toLower_of_le {d : Char} (h : 128 ≤ d.toNat) : d.toLower = d := by
  have hz : ¬ d.val ≤ 90 := by
    rw [UInt32.le_iff_toNat_le]
    change ¬ d.toNat ≤ 90
    omega
  delta Char.toLower
  simp [hz]

theorem plain_of_folds {cls : Classes} {name : String} (hname : name ∈ sensitiveNames ++ secretWords)
    {c d : Char} (hc : c ∈ name.toList) (h : folds c d = true) : Plain cls d := by
  have hall : (sensitiveNames ++ secretWords).all (fun name => name.toList.all fun c =>
      c.toLower.toNat < 128 && ([':', '=', '@', '*', '/'] ++ asciiSpaces).all
        fun d => !folds c d) = true := by decide +kernel
  have hc := List.all_eq_true.mp (List.all_eq_true.mp hall name hname) c hc
  rw [Bool.and_eq_true, decide_eq_true_eq] at hc
  have hd : d ∉ [':', '=', '@', '*', '/'] ++ asciiSpaces := fun hmem => by
    simpa [h] using List.all_eq_true.mp hc.2 d hmem
  refine ⟨?_, fun hmem => hd (List.mem_append_left _ hmem)⟩
  by_cases hascii : d.toNat < 128
  · rw [cls.space_ascii d hascii, Bool.eq_false_iff, ne_eq, List.contains_iff_mem]
    exact fun hmem => hd (List.mem_append_right _ hmem)
  · simp only [folds, Bool.or_eq_true, Bool.and_eq_true, beq_iff_eq,
      toLower_of_le (Nat.not_lt.mp hascii)] at h
    rcases h with (rfl | ⟨-, rfl⟩) | ⟨-, rfl⟩
    · exact absurd hc.1 hascii
    · exact cls.space_fold.1
    · exact cls.space_fold.2

theorem takes_litFold {name : List Char} {g : List Char}
    (h : Takes (name.map fun c => .one (folds c)) g) :
    g.length = name.length ∧ ∀ d ∈ g, ∃ c ∈ name, folds c d = true := by
  induction name generalizing g with
  | nil =>
    cases h
    exact ⟨rfl, nofun⟩
  | cons c name ih =>
    obtain ⟨d, g, rfl, hd, h⟩ := h
    obtain ⟨hlength, hall⟩ := ih h
    refine ⟨by simp [hlength], ?_⟩
    intro e he
    rcases List.mem_cons.mp he with rfl | he
    · exact ⟨c, List.mem_cons_self, hd⟩
    · obtain ⟨c', hc', hfolds⟩ := hall e he
      exact ⟨c', List.mem_cons_of_mem c hc', hfolds⟩

structure Assigning (cls : Classes) (P : Pattern Char) : Prop where
  lead : ∀ alt g, Takes (P.lead ++ alt) g → Takes alt g
  group : ∀ alt ∈ P.group, ∃ name ∈ sensitiveNames ++ secretWords, alt = litFold name
  rest : P.rest = assignment cls

theorem sensitiveKey_assigning (cls : Classes) : Assigning cls (sensitiveKey cls) where
  lead _ _ h := h
  group := by simp [sensitiveKey]; grind
  rest := rfl

theorem secret_assigning (cls : Classes) : Assigning cls (secret cls) where
  lead _ _ h := h
  group := by simp [secret]; grind
  rest := rfl

section

variable {cls : Classes} {P : Pattern Char} {before : Option Char} {cs mid after : List Char}

theorem Assigning.matched (hP : Assigning cls P) (h : P.matchAt before cs = some (mid, after)) :
    ∃ g w, cs = g ++ w ++ after ∧ mid = w ++ after ∧ IsName cls g ∧ IsValue cls w ∧
      ∀ c ∈ after.head?, cls.space c = true := by
  obtain ⟨alt, halt, g, m, run, rfl, rfl, hg, hm, hrun, hafter⟩ :=
    @Pattern.matchAt_greedy _ P before cs mid after (assignment cls).dropLast (fun c => !cls.space c)
      hP.rest h
  obtain ⟨name, hname, rfl⟩ := hP.group alt halt
  obtain ⟨hlength, hfolds⟩ := takes_litFold (hP.lead _ _ hg)
  obtain ⟨spaces, _, rfl, hspaces, sep, _, rfl, hsep, spaces', _, rfl, hspaces', v, _, rfl, hv, rfl⟩ := hm
  refine ⟨g, _, (List.append_assoc _ _ _).symm, rfl, ⟨?_, ?_⟩, ?_, ?_⟩
  · rintro rfl
    have hnonempty : (sensitiveNames ++ secretWords).all (fun name => name.toList.length ≠ 0) = true := by
      decide
    have hpos := List.all_eq_true.mp hnonempty name hname
    simp [← hlength] at hpos
  · intro d hd
    obtain ⟨c, hc, hfold⟩ := hfolds d hd
    exact plain_of_folds hname hc hfold
  · have hvalue := @IsValue.mk cls spaces spaces' (v :: run) sep hspaces (by simpa using hsep) hspaces'
      (List.forall_mem_cons.mpr ⟨by simpa using hv, fun c hc => by simpa using hrun c hc⟩)
      (List.cons_ne_nil v run)
    simpa using hvalue
  · simpa using hafter

theorem Assigning.shorter (hP : Assigning cls P) (h : P.matchAt before cs = some (mid, after)) :
    after.length < cs.length := by
  obtain ⟨g, w, rfl, -, -, ⟨⟩, -⟩ := hP.matched h
  simp only [List.length_append, List.length_cons]
  omega

theorem Assigning.ends (hP : Assigning cls P) : P.Ends cls.space where
  stop h := by
    obtain ⟨-, -, -, -, -, -, hafter⟩ := hP.matched h
    exact hafter
  start {before c cs} hc := by
    rw [Option.eq_none_iff_forall_ne_some]
    rintro ⟨mid, after⟩ h
    obtain ⟨g, w, heq, -, hg, -, -⟩ := hP.matched h
    obtain ⟨d, g, rfl⟩ := List.exists_cons_of_ne_nil hg.ne_nil
    obtain ⟨rfl, -⟩ := List.cons.inj heq
    rw [(hg.plain c List.mem_cons_self).1] at hc
    cases hc

theorem Assigning.parsed (hP : Assigning cls P) (text : List Char) :
    Pattern.Parsed P none text (P.pieces text) :=
  Pattern.parsed_pieces hP.shorter text

end

/-! ## Passes do not undo each other -/

/-- The sentinel follows the `=` that the text begins with, up to a space or the end. -/
def Closed (cls : Classes) (text : List Char) : Prop :=
  ∃ rest, text = '=' :: (redacted.toList ++ rest) ∧ ∀ c ∈ rest.head?, cls.space c = true

open scoped Classical in
/-- The spaces of a text, and its separators without a sentinel. -/
noncomputable def loose (cls : Classes) : List Char → ℕ
  | [] => 0
  | c :: cs => (if cls.space c = true then 1 else 0) +
      (if (c = ':' ∨ c = '=') ∧ ¬ Closed cls (c :: cs) then 1 else 0) + loose cls cs

section

variable {cls : Classes} {x y out : List Char}

theorem loose_append_of_free (hx : ∀ c ∈ x, c ≠ ':' ∧ c ≠ '=') (y : List Char) :
    loose cls (x ++ y) = x.countP cls.space + loose cls y := by
  induction x with
  | nil => simp
  | cons c x ih =>
    rw [List.forall_mem_cons] at hx
    have hfree : ¬ ((c = ':' ∨ c = '=') ∧ ¬ Closed cls (c :: (x ++ y))) :=
      fun h => h.1.elim hx.1.1 hx.1.2
    rw [List.cons_append, loose, ih hx.2, if_neg hfree, List.countP_cons]
    omega

/-- Only an equals sign looks at what follows. -/
theorem loose_append_of_ne (hx : ∀ c ∈ x, c ≠ '=') (y : List Char) :
    loose cls (x ++ y) = loose cls x + loose cls y := by
  induction x with
  | nil => simp [loose]
  | cons c x ih =>
    rw [List.forall_mem_cons] at hx
    have hopen : ∀ cs, ¬ Closed cls (c :: cs) := by
      rintro cs ⟨rest, heq, -⟩
      exact hx.1 (List.cons.inj heq).1
    rw [List.cons_append, loose, loose, ih hx.2]
    simp only [hopen, not_false_eq_true, and_true]
    omega

theorem le_loose_append (cls : Classes) (x y : List Char) :
    x.countP cls.space + loose cls y ≤ loose cls (x ++ y) := by
  induction x with
  | nil => simp
  | cons c x ih =>
    rw [List.cons_append, loose, List.countP_cons]
    omega

theorem lt_loose_cons {c : Char} {cs} (hc : c = ':' ∨ c = '=')
    (h : ¬ Closed cls (c :: cs)) : loose cls cs < loose cls (c :: cs) := by
  have hopen : (c = ':' ∨ c = '=') ∧ ¬ Closed cls (c :: cs) := ⟨hc, h⟩
  rw [loose, if_pos hopen]
  omega

theorem loose_closed {cs} (h : Closed cls ('=' :: cs)) : loose cls ('=' :: cs) = loose cls cs := by
  rw [loose, cls.space_ascii '=' (by decide)]
  simp [h, asciiSpaces]

theorem loose_cons_le {c : Char} {cs} (h : Closed cls (c :: cs) → Closed cls (c :: out)) :
    loose cls (c :: out) + loose cls cs ≤ loose cls (c :: cs) + loose cls out := by
  rw [loose, loose]
  by_cases hcs : Closed cls (c :: cs)
  · simp only [hcs, h hcs, not_true_eq_false, and_false, if_false]
    omega
  · by_cases hout : Closed cls (c :: out)
    · simp only [hout, not_true_eq_false, and_false, if_false]
      omega
    · simp only [hcs, hout]
      omega

theorem redacted_free : ∀ c ∈ redacted.toList,
    (c.toNat < 128 && !(asciiSpaces ++ [':', '=', '@', '/']).contains c) = true :=
  List.all_eq_true.mp (by decide)

theorem space_of_redacted {c : Char} (hc : c ∈ redacted.toList) : cls.space c = false := by
  have hfree := redacted_free c hc
  simp only [Bool.and_eq_true, decide_eq_true_eq] at hfree
  rw [cls.space_ascii c hfree.1]
  simp_all

theorem loose_redacted (y : List Char) : loose cls (redacted.toList ++ y) = loose cls y := by
  rw [loose_append_of_free (fun c hc => ?_), List.countP_eq_zero.mpr (fun c hc => ?_), Nat.zero_add]
  · rw [space_of_redacted hc]
    exact Bool.false_ne_true
  · have hfree := redacted_free c hc
    constructor <;> rintro rfl <;> simp at hfree

theorem takeWhile_not_space (hx : ∀ c ∈ x, cls.space c = false)
    (hy : ∀ c ∈ y.head?, cls.space c = true) : (x ++ y).takeWhile (fun c => !cls.space c) = x := by
  rw [List.takeWhile_append_of_pos (by simpa using hx)]
  cases y with
  | nil => simp
  | cons c y => simp [hy c rfl]

theorem IsValue.tighter {w after : List Char} (hw : IsValue cls w)
    (hafter : ∀ c ∈ after.head?, cls.space c = true) :
    loose cls after ≤ loose cls (w ++ after) ∧
      (w ≠ '=' :: redacted.toList → loose cls after < loose cls (w ++ after)) := by
  obtain @⟨spaces, spaces', value, sep, hspaces, hsep, hspaces', hvalue, -⟩ := hw
  have hle := le_loose_append cls spaces (sep :: (spaces' ++ (value ++ after)))
  have hle' := le_loose_append cls spaces' (value ++ after)
  have hle'' := le_loose_append cls value after
  have hsep' := le_loose_append cls [sep] (spaces' ++ (value ++ after))
  rw [List.countP_eq_length.mpr hspaces] at hle
  rw [List.countP_eq_length.mpr hspaces'] at hle'
  have htext : spaces ++ sep :: (spaces' ++ value) ++ after =
      spaces ++ sep :: (spaces' ++ (value ++ after)) := by simp
  rw [htext]
  rw [List.singleton_append] at hsep'
  refine ⟨by omega, fun hne => ?_⟩
  by_contra hnot
  -- no spaces, and the sentinel follows
  obtain rfl : spaces = [] := List.eq_nil_of_length_eq_zero (by omega)
  obtain rfl : spaces' = [] := List.eq_nil_of_length_eq_zero (by omega)
  have hclosed : Closed cls (sep :: (value ++ after)) := by
    by_contra hopen
    exact hnot (Nat.lt_of_le_of_lt (Nat.le_of_add_left_le hle'') (lt_loose_cons hsep hopen))
  obtain ⟨rest, hcons, hrest⟩ := hclosed
  obtain ⟨rfl, heq⟩ := List.cons.inj hcons
  refine hne (congrArg (List.cons '=') ?_)
  have hsame := congrArg (List.takeWhile fun c => !cls.space c) heq
  rwa [takeWhile_not_space hvalue hafter, takeWhile_not_space (fun c => space_of_redacted) hrest]
    at hsame

end

/-- The pass replaces what it finds by something tighter that begins alike. -/
structure Redacts (cls : Classes) (P : Pattern Char) (template : List Char → List Char) : Prop where
  shorter : ∀ {before cs mid after}, P.matchAt before cs = some (mid, after) →
    after.length < cs.length
  head : ∀ {before g m after}, P.matchAt before (g ++ m ++ after) = some (m ++ after, after) →
    ∀ out, (template g ++ out).head? = (g ++ m ++ after).head?
  /-- No match begins in the sentinel. -/
  start : ∀ {before cs mid after}, P.matchAt before cs = some (mid, after) →
    ∃ x d y, cs = x ++ d :: y ∧ '*' ∉ x ∧ d ∉ redacted.toList
  tighter : ∀ {before g m after out}, P.matchAt before (g ++ m ++ after) = some (m ++ after, after) →
    out.head? = after.head? →
    loose cls (template g ++ out) + loose cls after ≤ loose cls (g ++ m ++ after) + loose cls out ∧
    (template g ≠ g ++ m →
      loose cls (template g ++ out) + loose cls after < loose cls (g ++ m ++ after) + loose cls out)

section

variable {cls : Classes} {P : Pattern Char} {template : List Char → List Char} {before : Option Char}
  {cs : List Char} {ps : List (Piece Char)}

section

variable (hP : Redacts cls P template) (h : Pattern.Parsed P before cs ps)

include hP h

theorem Redacts.head_eq :
    (ps.flatMap (Piece.render template)).head? = cs.head? := by
  cases h with
  | nil | keep => rfl
  | hit hmatch => exact hP.head hmatch _

/-- A sentinel stays, with what follows it. -/
theorem Redacts.sentinel {r rest : List Char} (hr : r <:+ redacted.toList) (hcs : cs = r ++ rest) :
    ∃ rest', ps.flatMap (Piece.render template) = r ++ rest' ∧ rest'.head? = rest.head? := by
  induction r generalizing before cs ps with
  | nil =>
    subst hcs
    exact ⟨_, rfl, hP.head_eq h⟩
  | cons c r ih =>
    cases h with
    | nil => cases hcs
    | keep hnone hrest =>
      obtain ⟨rfl, rfl⟩ := List.cons.inj hcs
      obtain ⟨rest', hout, hhead⟩ := ih hrest ((List.suffix_cons _ r).trans hr) rfl
      refine ⟨rest', ?_, hhead⟩
      rw [List.flatMap_cons, hout]
      rfl
    | hit hmatch =>
      exfalso
      obtain ⟨x, d, y, heq, hx, hd⟩ := hP.start hmatch
      have hstar : '*' ∈ c :: r := by
        obtain ⟨t, ht⟩ := hr
        have hlast : redacted.toList.getLast? = some '*' := by decide
        rw [← ht, List.getLast?_append_of_ne_nil _ (List.cons_ne_nil c r)] at hlast
        exact List.mem_of_getLast? hlast
      obtain ⟨r₁, r₂, hr₁⟩ := List.append_of_mem hstar
      rw [hr₁] at hcs
      rcases Infix.append_cons_eq_append_cons
        (heq.symm.trans (hcs.trans (List.append_assoc r₁ _ rest))) hx with ⟨-, rfl, -⟩ | ⟨z, rfl, -⟩
      · exact hd (by decide)
      · exact hd (hr.mem (by rw [hr₁]; simp))

theorem Redacts.loose_le :
    loose cls (ps.flatMap (Piece.render template)) ≤ loose cls cs ∧
      ((∃ g m, .hit g m ∈ ps ∧ template g ≠ m) →
        loose cls (ps.flatMap (Piece.render template)) < loose cls cs) := by
  induction h with
  | nil =>
    refine ⟨le_rfl, ?_⟩
    rintro ⟨g, m, hmem, -⟩
    cases hmem
  | @keep before c cs ps hnone hrest ih =>
    have hclosed : Closed cls (c :: cs) → Closed cls (c :: ps.flatMap (Piece.render template)) := by
      rintro ⟨rest, heq, hrest'⟩
      obtain ⟨rfl, rfl⟩ := List.cons.inj heq
      obtain ⟨rest', hout, hhead⟩ := hP.sentinel hrest (List.suffix_refl _) rfl
      exact ⟨rest', by rw [hout], by rwa [hhead]⟩
    have hcons := loose_cons_le hclosed
    change loose cls (c :: ps.flatMap (Piece.render template)) ≤ _ ∧
      (_ → loose cls (c :: ps.flatMap (Piece.render template)) < _)
    refine ⟨by omega, ?_⟩
    rintro ⟨g, m, hmem, hne⟩
    have hlt := ih.2 ⟨g, m, by simpa using hmem, hne⟩
    omega
  | @hit before before' g m after ps hmatch hne hrest ih =>
    obtain ⟨hle, hlt⟩ := hP.tighter hmatch (hP.head_eq hrest)
    rw [List.flatMap_cons, Piece.render]
    refine ⟨by omega, ?_⟩
    rintro ⟨g', m', hmem, hne'⟩
    rcases List.mem_cons.mp hmem with heq | hmem
    · cases heq
      have := hlt hne'
      omega
    · have := ih.2 ⟨g', m', hmem, hne'⟩
      omega

end

theorem Redacts.replaceAll_eq (hP : Redacts cls P template) {text}
    (h : ¬ P.Alters template text) : P.replaceAll template text = text :=
  (Pattern.parsed_pieces hP.shorter text).render_eq fun g m hmem =>
    not_not.mp fun hne => h ⟨g, m, hmem, hne⟩

theorem Redacts.loose_replaceAll (hP : Redacts cls P template) (text : List Char) :
    loose cls (P.replaceAll template text) ≤ loose cls text ∧
      (P.Alters template text → loose cls (P.replaceAll template text) < loose cls text) :=
  hP.loose_le (Pattern.parsed_pieces hP.shorter text)

end

section

variable {cls : Classes} {before : Option Char} {g m after : List Char}

theorem urlCreds_group (h : (urlCreds cls).matchAt before (g ++ m ++ after) = some (m ++ after, after)) :
    ∃ c run user password, g = c :: run ++ slashes ∧ m = user ++ ':' :: (password ++ ['@']) ∧
      ∀ d ∈ c :: run, schemeClass cls d = true := by
  have hmatch := urlCreds_matchAt_iff.mp h
  generalize hcs : g ++ m ++ after = cs, hmid : m ++ after = mid at hmatch
  obtain @⟨c, run, user, password, after, h⟩ := hmatch
  refine ⟨c, run, user, password, ?_, ?_, h.scheme⟩
  · rw [List.append_assoc, hmid] at hcs
    exact List.append_cancel_right (hcs.trans (by simp [slashes]))
  · exact List.append_cancel_right (hmid.trans (by simp))

theorem urlCreds_redacts (cls : Classes) : Redacts cls (urlCreds cls) urlTemplate where
  shorter := urlCreds_shorter
  head h out := by
    obtain ⟨c, run, user, password, rfl, -, -⟩ := urlCreds_group h
    rfl
  start {before cs mid after} h := by
    obtain @⟨c, run, user, password, after, hparts⟩ := urlCreds_matchAt_iff.mp h
    refine ⟨c :: run, ':', _, rfl, not_mem_of_class ?_ hparts.scheme, by decide⟩
    simp only [schemeClass, cls.word_ascii '*' (by decide)]
    decide
  tighter {before g m after out} h hout := by
    obtain ⟨c, run, user, password, hg, rfl, hrun⟩ := urlCreds_group h
    have hgroup : ∀ d ∈ g, d ≠ '=' := by
      rintro d hd rfl
      rw [hg] at hd
      rcases List.mem_append.mp hd with hd | hd
      · have hclass := hrun '=' hd
        simp only [schemeClass, cls.word_ascii '=' (by decide)] at hclass
        revert hclass
        decide
      · revert hd
        decide
    have hat : loose cls ('@' :: out) = loose cls out := by
      rw [← List.singleton_append, loose_append_of_free (by simp), List.countP_singleton,
        cls.space_ascii '@' (by decide)]
      exact Nat.zero_add _
    have hleft : loose cls (urlTemplate g ++ out) = loose cls g + loose cls out := by
      rw [urlTemplate, List.append_assoc, List.append_assoc, loose_append_of_ne hgroup, loose_redacted,
        List.singleton_append, hat]
    have hmatched : loose cls after < loose cls (user ++ ':' :: (password ++ ['@']) ++ after) := by
      have hcolon := @lt_loose_cons cls ':' (password ++ ['@'] ++ after) (.inl rfl) nofun
      have huser := le_loose_append cls user (':' :: (password ++ ['@'] ++ after))
      have hpassword := le_loose_append cls (password ++ ['@']) after
      rw [List.append_assoc user, List.cons_append]
      omega
    rw [hleft, List.append_assoc g, loose_append_of_ne hgroup]
    exact ⟨by omega, fun _ => by omega⟩

end

section

variable {cls : Classes} {P : Pattern Char} {before : Option Char} {g m after : List Char}

theorem Assigning.named (hP : Assigning cls P)
    (h : P.matchAt before (g ++ m ++ after) = some (m ++ after, after)) :
    IsName cls g ∧ IsValue cls m ∧ ∀ c ∈ after.head?, cls.space c = true := by
  obtain ⟨g', w, hcs, hmid, hg, hw, hafter⟩ := hP.matched h
  obtain rfl := List.append_cancel_right hmid
  obtain rfl := List.append_cancel_right (List.append_cancel_right hcs)
  exact ⟨hg, hw, hafter⟩

theorem IsName.ne_of_mem (hg : IsName cls g) {c d : Char} (hc : c ∈ g)
    (hd : d ∈ [':', '=', '@', '*', '/']) : c ≠ d := by
  rintro rfl
  exact (hg.plain c hc).2 hd

theorem IsValue.head {w} (hw : IsValue cls w) : ∃ d y, w = d :: y ∧ d ∉ redacted.toList := by
  obtain @⟨spaces, spaces', value, sep, hspaces, hsep, -, -, -⟩ := hw
  cases spaces with
  | nil =>
    refine ⟨sep, spaces' ++ value, rfl, ?_⟩
    rcases hsep with rfl | rfl <;> decide
  | cons c spaces =>
    refine ⟨c, _, rfl, fun hmem => ?_⟩
    have hspace := hspaces c List.mem_cons_self
    rw [space_of_redacted hmem] at hspace
    cases hspace

theorem Assigning.redacts (hP : Assigning cls P) : Redacts cls P assignmentTemplate where
  shorter := hP.shorter
  head h out := by
    obtain ⟨hg, -, -⟩ := hP.named h
    obtain ⟨c, g, rfl⟩ := List.exists_cons_of_ne_nil hg.ne_nil
    rfl
  start h := by
    obtain ⟨g, w, rfl, -, hg, hw, -⟩ := hP.matched h
    obtain ⟨d, w, rfl, hd⟩ := hw.head
    exact ⟨g, d, _, List.append_assoc _ _ _, fun hmem => hg.ne_of_mem hmem (by decide) rfl, hd⟩
  tighter {before g m after out} h hout := by
    obtain ⟨hg, hm, hafter⟩ := hP.named h
    have hgroup : ∀ c ∈ g, c ≠ '=' := fun c hc => hg.ne_of_mem hc (by decide)
    have hclosed : Closed cls ('=' :: (redacted.toList ++ out)) := ⟨out, rfl, by rwa [hout]⟩
    obtain ⟨hle, hlt⟩ := hm.tighter hafter
    rw [assignmentTemplate, List.append_assoc, List.append_assoc, loose_append_of_ne hgroup,
      loose_append_of_ne hgroup, List.cons_append, loose_closed hclosed, loose_redacted]
    refine ⟨by omega, fun hne => ?_⟩
    have := hlt fun heq => hne (by rw [heq])
    omega

end

/-! ## Changed texts -/

/-- A text is changed exactly if a match of one of the patterns, in the text itself, has another
    replacement. -/
theorem scrubStr_ne_iff (cls : Classes) (v : String) : scrubStr cls v ≠ v ↔
    (urlCreds cls).Alters urlTemplate v.toList ∨
    (sensitiveKey cls).Alters assignmentTemplate v.toList ∨
    (secret cls).Alters assignmentTemplate v.toList := by
  have hurl := urlCreds_redacts cls
  have hkey := (sensitiveKey_assigning cls).redacts
  have hsecret := (secret_assigning cls).redacts
  have hsame : scrubStr cls v = v ↔ scrubAssignments cls ((urlCreds cls).replaceAll urlTemplate v.toList) =
      v.toList := by
    rw [scrubStr, ← String.toList_inj, String.toList_ofList]
  rw [not_iff_comm, not_or, not_or, hsame]
  constructor
  · rintro ⟨hnot, hnot', hnot''⟩
    rw [hurl.replaceAll_eq hnot, scrubAssignments, hkey.replaceAll_eq hnot', hsecret.replaceAll_eq hnot'']
  · intro heq
    -- a pass that changes the text makes it tighter, and it stays so
    obtain ⟨hle, hlt⟩ := hurl.loose_replaceAll v.toList
    obtain ⟨hle', hlt'⟩ := hkey.loose_replaceAll ((urlCreds cls).replaceAll urlTemplate v.toList)
    obtain ⟨hle'', hlt''⟩ := hsecret.loose_replaceAll ((sensitiveKey cls).replaceAll assignmentTemplate
      ((urlCreds cls).replaceAll urlTemplate v.toList))
    rw [scrubAssignments] at heq
    rw [heq] at hle'' hlt''
    have hnot : ¬ (urlCreds cls).Alters urlTemplate v.toList := fun h => by have := hlt h; omega
    rw [hurl.replaceAll_eq hnot] at hle' hlt' hle'' hlt''
    have hnot' : ¬ (sensitiveKey cls).Alters assignmentTemplate v.toList := fun h => by
      have := hlt' h
      omega
    rw [hkey.replaceAll_eq hnot'] at hlt''
    exact ⟨hnot, hnot', fun h => absurd (hlt'' h) (Nat.lt_irrefl _)⟩

/-! ## The password of a URL -/

section

variable {cls : Classes}

theorem single_url {pre scheme w rest} (hpre : ¬ slashes <:+: pre) (hscheme : IsScheme scheme)
    (hw : '/' ∉ w) (hrest : ¬ slashes <:+: rest) : Single (pre ++ scheme) (w ++ '@' :: rest) where
  before hinner := by
    obtain ⟨c, run, rfl, hc, hrun⟩ := hscheme.class asciiClasses
    obtain ⟨hcolon, hslash, -⟩ := schemeClass_punctuation asciiClasses
    have hclass := schemeClass_of_word hc
    have hc' : c ∉ slashes := by
      intro hmem
      rcases (by simpa [slashes] using hmem : c = ':' ∨ c = '/') with rfl | rfl
      · rw [hcolon] at hclass
        cases hclass
      · rw [hslash] at hclass
        cases hclass
    rw [List.append_assoc, List.cons_append] at hinner
    rcases Infix.infix_append_cons hc' hinner with hinner | hinner
    · exact hpre hinner
    · have hcount := hinner.sublist.count_le '/'
      rw [List.count_append, List.count_eq_zero.mpr (not_mem_of_class hslash hrun)] at hcount
      exact absurd hcount (by decide)
  after hinner := by
    rw [← List.cons_append, ← List.cons_append] at hinner
    rcases Infix.infix_append_cons (by decide) hinner with hinner | hinner
    · have hcolon : ∀ cs : List Char, ¬ slashes <+: '/' :: cs := fun cs hbegins => by
        obtain ⟨t, ht⟩ := hbegins
        cases (List.cons.inj ht).1
      rw [List.infix_cons_iff, or_iff_right (hcolon _), List.infix_cons_iff, or_iff_right (hcolon _)]
        at hinner
      exact hw (hinner.mem (by decide))
    · exact hrest hinner

section

variable {user password : String} (huser : ∀ c ∈ user.toList, userChar c = true)
  (hpassword : ∀ c ∈ password.toList, passwordChar c = true)

include huser hpassword

theorem slash_not_mem :
    '/' ∉ user.toList ++ ':' :: password.toList := by
  simp only [List.mem_append, List.mem_cons, not_or]
  exact ⟨not_mem_of_class (by decide) huser, by decide, not_mem_of_class (by decide) hpassword⟩

theorem space_of_userinfo :
    ∀ c ∈ ("://" ++ user ++ ":" ++ password ++ "@").toList, cls.space c = false := by
  have hclass : ∀ {c}, passwordClass cls c = true → cls.space c = false := by
    intro c hc
    simp only [passwordClass, Bool.not_eq_true', Bool.or_eq_false_iff] at hc
    exact hc.1.2
  have hpunct : ∀ c ∈ [':', '/', '@'], cls.space c = false := by
    intro c hc
    have hall : [':', '/', '@'].all (fun c => c.toNat < 128 &&
      !asciiSpaces.contains c) = true := by decide
    have hc' := List.all_eq_true.mp hall c hc
    rw [Bool.and_eq_true, decide_eq_true_eq, Bool.not_eq_true'] at hc'
    rw [cls.space_ascii c hc'.1, hc'.2]
  intro c hc
  simp only [String.toList_append, List.mem_append] at hc
  rcases hc with (((hc | hc) | hc) | hc) | hc
  · exact hpunct c (by revert hc; simp; tauto)
  · exact hclass (passwordClass_of_userClass (userClass_of_userChar (huser c hc)))
  · exact hpunct c (by revert hc; simp; tauto)
  · exact hclass (passwordClass_of_passwordChar (hpassword c hc))
  · exact hpunct c (by revert hc; simp; tauto)

end

theorem Assigning.not_mem_template {P : Pattern Char} (hP : Assigning cls P) {text g m}
    (hmem : .hit g m ∈ P.pieces text) {c : Char} (hc : c = ':' ∨ c = '@') :
    c ∉ assignmentTemplate g := by
  obtain ⟨before, w, after, -, -, hmatch⟩ := (hP.parsed text).exists_match hmem
  intro hin
  rcases List.mem_append.mp hin with hin | hin
  · exact (hP.named hmatch).1.ne_of_mem hin (by rcases hc with rfl | rfl <;> decide) rfl
  · rcases hc with rfl | rfl <;> exact absurd hin (by decide)

/-- A text of the shape `:…@` without spaces that is there after a pass was not touched by it. -/
theorem Assigning.spares {P : Pattern Char} (hP : Assigning cls P) {text s x y : List Char}
    (hs : ∀ c ∈ s, cls.space c = false) (hhead : s.head? = some ':') (hlast : s.getLast? = some '@')
    (h : P.replaceAll assignmentTemplate text = x ++ s ++ y) :
    ∃ a b, text = a ++ s ++ b ∧ P.Spares assignmentTemplate a s b x y := by
  exact Pattern.exists_spares (hP.parsed text) hP.ends hs hhead hlast (fun g m hmem =>
    ⟨hP.not_mem_template hmem (.inl rfl), hP.not_mem_template hmem (.inr rfl)⟩) h

end

section

variable {cls : Classes} {pre scheme user password host post : String}

/-- What the first pass makes of a URL. -/
def maskedUrl (scheme user password host : String) : String :=
  scheme ++ "://" ++ (if user = "" then ":" ++ password else redacted) ++ "@" ++ host

variable (hscheme : IsScheme scheme.toList) (huser : ∀ c ∈ user.toList, userChar c = true)
  (hpassword : ∀ c ∈ password.toList, passwordChar c = true) (hpre : ¬ slashes <:+: pre.toList)
  (hpost : ¬ slashes <:+: (host ++ post).toList)

include hscheme huser hpassword hpre hpost

theorem replaceAll_url (hne : password ≠ "") :
    (urlCreds cls).replaceAll urlTemplate
        (pre ++ scheme ++ "://" ++ user ++ ":" ++ password ++ "@" ++ host ++ post).toList =
      (pre ++ maskedUrl scheme user password host ++ post).toList := by
  have hsingle := single_url hpre hscheme (slash_not_mem huser hpassword) hpost
  have htext : (pre ++ scheme ++ "://" ++ user ++ ":" ++ password ++ "@" ++ host ++ post).toList =
      (pre.toList ++ scheme.toList) ++ slashes ++
        (user.toList ++ ':' :: password.toList ++ '@' :: (host ++ post).toList) := by
    simp [slashes]
  have hparsed := urlCreds_parsed cls
    (pre ++ scheme ++ "://" ++ user ++ ":" ++ password ++ "@" ++ host ++ post).toList
  rw [htext] at hparsed ⊢
  by_cases hempty : user = ""
  · -- after `://` comes no user
    subst hempty
    rw [Pattern.replaceAll, hparsed.render_eq fun g m hmem => ?_]
    · simp [maskedUrl, slashes]
    · obtain ⟨before, w, after, ⟨p, hp⟩, -, hmatch⟩ := hparsed.exists_match hmem
      have hurl := urlCreds_matchAt_iff.mp hmatch
      generalize g ++ w ++ after = cs', w ++ after = mid at hurl hp
      obtain ⟨hmid, -⟩ := hurl.eq hsingle hp
      obtain @⟨c, run, us, pw, after, hparts⟩ := hurl
      obtain ⟨u, us, rfl⟩ := List.exists_cons_of_ne_nil hparts.user_ne
      obtain ⟨rfl, -⟩ := List.cons.inj hmid
      exact absurd (userClass_ne (hparts.user_class ':' List.mem_cons_self)) (by decide)
  · obtain ⟨c, run, hcs, hc, hrun⟩ := hscheme.class cls
    rw [hcs, List.append_assoc user.toList, List.cons_append] at hsingle hparsed ⊢
    rw [Pattern.replaceAll, render_url hparsed rfl hsingle hpost ⟨hc, hrun,
      fun d hd => userClass_of_userChar (huser d hd), by simpa using hempty,
      fun d hd => passwordClass_of_passwordChar (hpassword d hd), by simpa using hne⟩]
    simp [maskedUrl, hempty, slashes, hcs]

theorem eq_of_masked {a b} (h : (pre ++ maskedUrl scheme user password host ++ post).toList =
      a ++ ("://" ++ user ++ ":" ++ password ++ "@").toList ++ b) :
    user = "" ∧ a = (pre ++ scheme).toList ∧ b = (host ++ post).toList := by
  have hat : '@' ∉ user.toList ++ ':' :: password.toList := by
    simp only [List.mem_append, List.mem_cons, not_or]
    exact ⟨not_mem_of_class (by decide) huser, by decide, not_mem_of_class (by decide) hpassword⟩
  by_cases hempty : user = ""
  · subst hempty
    have hsingle := single_url hpre hscheme (slash_not_mem huser hpassword) hpost
    obtain ⟨rfl, hb⟩ := hsingle.eq (x := a) (y := ':' :: (password.toList ++ '@' :: b)) (by
      simpa [maskedUrl, slashes] using h)
    refine ⟨rfl, by simp, ?_⟩
    simpa using hb
  · -- between `://` and `@` there would be a colon
    have hsingle := single_url (w := redacted.toList) hpre hscheme (by decide) hpost
    obtain ⟨-, hb⟩ := hsingle.eq (x := a) (y := user.toList ++ ':' :: password.toList ++ '@' :: b) (by
      simpa [maskedUrl, slashes, hempty] using h)
    exfalso
    rcases Infix.append_cons_eq_append_cons hb.symm (by decide) with ⟨heq, -, -⟩ | ⟨r, heq, -⟩
    · exact absurd (heq ▸ List.mem_append_right user.toList List.mem_cons_self) (by decide)
    · exact hat (by simp [heq])

/-- The password of a URL is still there exactly if the URL has no user and no match of a later pass
    touches the password. A part of the URL is kept if none touches it. -/
theorem scrubStr_url_iff (hne : password ≠ "") :
    let text := pre ++ scheme ++ "://" ++ user ++ ":" ++ password ++ "@" ++ host ++ post
    let userinfo := ("://" ++ user ++ ":" ++ password ++ "@").toList
    (userinfo <:+: (scrubStr cls text).toList ↔ user = "" ∧ ∃ a b a' b',
      (sensitiveKey cls).Spares assignmentTemplate (pre ++ scheme).toList userinfo (host ++ post).toList
        a b ∧ (secret cls).Spares assignmentTemplate a userinfo b a' b') ∧
    ∀ x part y a b a' b',
      (pre ++ maskedUrl scheme user password host ++ post).toList = x ++ part ++ y →
      (sensitiveKey cls).Spares assignmentTemplate x part y a b →
      (secret cls).Spares assignmentTemplate a part b a' b' →
      (scrubStr cls text).toList = a' ++ part ++ b' := by
  intro text userinfo
  have hscrub : (scrubStr cls text).toList =
      scrubAssignments cls (pre ++ maskedUrl scheme user password host ++ post).toList := by
    rw [scrubStr, replaceAll_url hscheme huser hpassword hpre hpost hne, String.toList_ofList]
  have hkept : ∀ x part y a b a' b',
      (pre ++ maskedUrl scheme user password host ++ post).toList = x ++ part ++ y →
      (sensitiveKey cls).Spares assignmentTemplate x part y a b →
      (secret cls).Spares assignmentTemplate a part b a' b' →
      (scrubStr cls text).toList = a' ++ part ++ b' := by
    intro x part y a b a' b' htext hkey hsecret
    rw [hscrub, htext, scrubAssignments, Pattern.replaceAll_of_spares hkey,
      Pattern.replaceAll_of_spares hsecret]
  refine ⟨⟨?_, ?_⟩, hkept⟩
  · rintro ⟨x, y, hout⟩
    have hspace : ∀ c ∈ userinfo, cls.space c = false := space_of_userinfo huser hpassword
    have hhead : userinfo.head? = some ':' := by simp [userinfo]
    have hlast : userinfo.getLast? = some '@' := by
      rw [show userinfo = ("://" ++ user ++ ":" ++ password).toList ++ ['@'] by simp [userinfo]]
      exact List.getLast?_concat
    -- from the last pass back to the first
    obtain ⟨a, b, htext, hsecret⟩ := (secret_assigning cls).spares hspace hhead hlast
      (hscrub.symm.trans hout.symm)
    obtain ⟨a₀, b₀, htext₀, hkey⟩ := (sensitiveKey_assigning cls).spares hspace hhead hlast htext
    obtain ⟨hempty, rfl, rfl⟩ := eq_of_masked hscheme huser hpassword hpre hpost htext₀
    exact ⟨hempty, a, b, x, y, hkey, hsecret⟩
  · rintro ⟨rfl, a, b, a', b', hkey, hsecret⟩
    have htext : (pre ++ maskedUrl scheme "" password host ++ post).toList =
        (pre ++ scheme).toList ++ userinfo ++ (host ++ post).toList := by
      simp [maskedUrl, userinfo]
    exact ⟨a', b', (hkept _ _ _ a b a' b' htext hkey hsecret).symm⟩

end

/-- A user hides the password, and so does an assignment over it; without either it stays. -/
theorem scrubStr_url_iff_redis :
    (¬ "://alice:hunter2@".toList <:+:
      (scrubStr asciiClasses "dial postgres://alice:hunter2@db failed").toList ∧
      (scrubStr asciiClasses "dial postgres://alice:hunter2@db failed").toList =
        "dial postgres://***REDACTED***@db failed".toList) ∧
    ¬ "://:secret@".toList <:+: (scrubStr asciiClasses "STATE_DB_URL=redis://:secret@host").toList ∧
    "://:secret@".toList <:+: (scrubStr asciiClasses "dial redis://:secret@host").toList := by
  obtain ⟨hiff, hkept⟩ := @scrubStr_url_iff asciiClasses "dial " "postgres" "alice" "hunter2" "db"
    " failed" (.mk (by decide) (List.all_eq_true.mp (by decide))) (List.all_eq_true.mp (by decide))
    (List.all_eq_true.mp (by decide)) (by decide) (by decide) (by decide)
  obtain ⟨hiff', -⟩ := @scrubStr_url_iff asciiClasses "STATE_DB_URL=" "redis" "" "secret" "host" ""
    (.mk (by decide) (List.all_eq_true.mp (by decide))) (List.all_eq_true.mp (by decide))
    (List.all_eq_true.mp (by decide)) (by decide) (by decide) (by decide)
  obtain ⟨hiff'', -⟩ := @scrubStr_url_iff asciiClasses "dial " "redis" "" "secret" "host" ""
    (.mk (by decide) (List.all_eq_true.mp (by decide))) (List.all_eq_true.mp (by decide))
    (List.all_eq_true.mp (by decide)) (by decide) (by decide) (by decide)
  simp only [String.reduceAppend] at hiff hkept hiff' hiff''
  refine ⟨⟨?_, ?_⟩, ?_, ?_⟩
  · rw [hiff]
    exact fun h => absurd h.1 (by decide)
  · exact hkept "dial ".toList "postgres://***REDACTED***@db".toList " failed".toList
      "dial ".toList " failed".toList "dial ".toList " failed".toList (by decide)
      ⟨"dial ".toList.map .keep, " failed".toList.map .keep, rfl, rfl, rfl, rfl, rfl⟩
      ⟨"dial ".toList.map .keep, " failed".toList.map .keep, rfl, rfl, rfl, rfl, rfl⟩
  · rw [hiff']
    rintro ⟨-, a, b, a', b', ⟨ps, qs, hpieces, -⟩, -⟩
    have hkeep : Piece.keep '@' ∈ (sensitiveKey asciiClasses).pieces
        ("STATE_DB_URL=redis".toList ++ "://:secret@".toList ++ "host".toList) := by
      rw [hpieces]
      simp
    exact absurd hkeep (by decide)
  · rw [hiff'']
    exact ⟨trivial, "dial redis".toList, "host".toList, "dial redis".toList, "host".toList,
      ⟨"dial redis".toList.map .keep, "host".toList.map .keep, rfl, rfl, rfl, rfl, rfl⟩,
      ⟨"dial redis".toList.map .keep, "host".toList.map .keep, rfl, rfl, rfl, rfl, rfl⟩⟩

/-- A password without a user stays. -/
theorem redis_leaks :
    scrubStr asciiClasses "redis://:secret@host" = "redis://:secret@host" := by
  decide

end DbMcpGateway.Sentry

import DbMcpGateway.Data.Json
import DbMcpGateway.Sentry.Scrub

/-!
# Scrubbing of events

`Scrubber::scrub_json` and `Scrubber::scrub_event` (sentry_scrub.rs). An event has here the fields
that `scrub_event` touches; the type of URLs and that of the typed contexts are parameters.

Results:

* `get?_scrubEvent`: an entry of one of the maps of an event keeps its name, and its value is
  scrubbed as a text of its own.
* `scrubEvent_entry`: so the value of a sensitive name is another one exactly if a pattern has a match
  in the value.
* `signing_key_leaves`: a signing key stays.
-/

namespace DbMcpGateway.Sentry

/-! ## JSON -/

section

variable (cls : Classes)

mutual

/-- `Scrubber::scrub_json` (sentry_scrub.rs:119). -/
def scrubJson : Json → Json
  | .str s => .str (scrubStr cls s)
  | .arr items => .arr (scrubItems items)
  | .obj members => .obj (scrubMembers members)
  | .null => .null
  | .bool b => .bool b
  | .int n => .int n
  | .float text => .float text

def scrubItems : List Json → List Json
  | [] => []
  | j :: js => scrubJson j :: scrubItems js

def scrubMembers : List (String × Json) → List (String × Json)
  | [] => []
  | (k, j) :: ms => (k, scrubJson j) :: scrubMembers ms

end

theorem scrubItems_eq (items : List Json) : scrubItems cls items = items.map (scrubJson cls) := by
  induction items with
  | nil => rfl
  | cons j js ih => rw [scrubItems, ih, List.map_cons]

theorem scrubMembers_eq (members : List (String × Json)) :
    scrubMembers cls members = OrdMap.mapValues (scrubJson cls) members := by
  induction members with
  | nil => rfl
  | cons e ms ih => rw [scrubMembers, ih]; rfl

end

/-! ## Events -/

structure Exception where
  ty : String
  value : Option String

structure Breadcrumb where
  message : Option String
  data : List (String × Json)

/-- A context: a typed one, or `Context::Other`. -/
inductive Context (τ : Type)
  | typed (c : τ)
  | other (map : List (String × Json))

structure User where
  id : Option String
  email : Option String
  username : Option String
  other : List (String × Json)

structure Request (U : Type) where
  url : Option U
  method : Option String
  data : Option String
  queryString : Option String
  cookies : Option String
  headers : List (String × String)
  env : List (String × String)

/-- `sentry::protocol::Event`. -/
structure Event (U τ : Type) where
  message : Option String
  exception : List Exception
  breadcrumbs : List Breadcrumb
  extra : List (String × Json)
  contexts : List (String × Context τ)
  tags : List (String × String)
  user : Option User
  request : Option (Request U)

structure UrlType (U : Type) where
  asStr : U → String
  parse : String → Option U

section

variable {U τ : Type} (cls : Classes) (urls : UrlType U)

def scrubException (ex : Exception) : Exception :=
  { ty := scrubStr cls ex.ty, value := ex.value.map (scrubStr cls) }

def scrubBreadcrumb (bc : Breadcrumb) : Breadcrumb :=
  { message := bc.message.map (scrubStr cls), data := OrdMap.mapValues (scrubJson cls) bc.data }

def scrubContext : Context τ → Context τ
  | .typed c => .typed c
  | .other map => .other (OrdMap.mapValues (scrubJson cls) map)

def scrubUser (user : User) : User where
  id := user.id.map (scrubStr cls)
  email := user.email.map (scrubStr cls)
  username := user.username.map (scrubStr cls)
  other := OrdMap.mapValues (scrubJson cls) user.other

def scrubRequest (req : Request U) : Request U where
  -- a URL that does not parse any more is dropped
  url := req.url.bind fun url => urls.parse (scrubStr cls (urls.asStr url))
  method := req.method.map (scrubStr cls)
  data := req.data.map (scrubStr cls)
  queryString := req.queryString.map (scrubStr cls)
  cookies := req.cookies.map (scrubStr cls)
  headers := OrdMap.mapValues (scrubStr cls) req.headers
  env := OrdMap.mapValues (scrubStr cls) req.env

/-- `Scrubber::scrub_event` (sentry_scrub.rs:144). -/
def scrubEvent (event : Event U τ) : Option (Event U τ) :=
  some
    { message := event.message.map (scrubStr cls)
      exception := event.exception.map (scrubException cls)
      breadcrumbs := event.breadcrumbs.map (scrubBreadcrumb cls)
      extra := OrdMap.mapValues (scrubJson cls) event.extra
      contexts := OrdMap.mapValues (scrubContext cls) event.contexts
      tags := OrdMap.mapValues (scrubStr cls) event.tags
      user := event.user.map (scrubUser cls)
      request := event.request.map (scrubRequest cls urls) }

end

/-! ## Entries -/

inductive Step
  | key (k : String)
  | index (i : ℕ)

/-- The value at a path. -/
def at? : List Step → Json → Option Json
  | [], j => some j
  | .key k :: path, .obj members => (OrdMap.get? members k).bind (at? path)
  | .index i :: path, .arr items => items[i]?.bind (at? path)
  | _, _ => none

theorem at?_scrubJson (cls : Classes) (path : List Step) (j : Json) :
    at? path (scrubJson cls j) = (at? path j).map (scrubJson cls) := by
  induction path generalizing j with
  | nil => rfl
  | cons step path ih =>
    cases j with
    | obj members =>
      cases step with
      | key k =>
        rw [scrubJson, scrubMembers_eq, at?, at?, OrdMap.get?_mapValues, Option.bind_map,
          Option.map_bind]
        exact congrArg _ (funext ih)
      | index i => simp [scrubJson, at?]
    | arr items =>
      cases step with
      | key k => simp [scrubJson, at?]
      | index i =>
        rw [scrubJson, scrubItems_eq, at?, at?, List.getElem?_map, Option.bind_map,
          Option.map_bind]
        exact congrArg _ (funext ih)
    | _ => simp [scrubJson, at?]

/-- The maps of an event. -/
inductive Place
  | env
  | headers
  | tags
  | breadcrumb (i : ℕ)
  | extra
  | userOther
  | context (name : String)

section

variable {U τ : Type}

def Context.other? : Context τ → Option (List (String × Json))
  | .typed _ => none
  | .other map => some map

def Event.map? (event : Event U τ) : Place → Option (List (String × Json))
  | .env => event.request.map fun req => OrdMap.mapValues Json.str req.env
  | .headers => event.request.map fun req => OrdMap.mapValues Json.str req.headers
  | .tags => some (OrdMap.mapValues Json.str event.tags)
  | .breadcrumb i => event.breadcrumbs[i]?.map Breadcrumb.data
  | .extra => some event.extra
  | .userOther => event.user.map User.other
  | .context name => (OrdMap.get? event.contexts name).bind Context.other?

/-- The value under the name `k` in the object at a path of a map. -/
def Event.get? (event : Event U τ) (place : Place) (path : List Step) (k : String) : Option Json :=
  (event.map? place).bind fun map => at? (path ++ [.key k]) (.obj map)

variable {cls : Classes} {urls : UrlType U} {event event' : Event U τ} {place : Place}

theorem map?_scrubEvent (h : scrubEvent cls urls event = some event') (place : Place) :
    event'.map? place = (event.map? place).map (OrdMap.mapValues (scrubJson cls)) := by
  have hstr : ∀ m : List (String × String),
      OrdMap.mapValues Json.str (OrdMap.mapValues (scrubStr cls) m) =
      OrdMap.mapValues (scrubJson cls) (OrdMap.mapValues Json.str m) := by
    intro m
    simp [OrdMap.mapValues, scrubJson]
  cases h
  cases place with
  | env | headers => cases hreq : event.request <;> simp [Event.map?, scrubRequest, hreq, hstr]
  | tags => simp [Event.map?, hstr]
  | breadcrumb i => simp [Event.map?, scrubBreadcrumb, Function.comp_def]
  | extra => rfl
  | userOther => cases huser : event.user <;> simp [Event.map?, scrubUser, huser]
  | context name =>
    simp only [Event.map?, OrdMap.get?_mapValues]
    cases OrdMap.get? event.contexts name with
    | none => rfl
    | some ctx => cases ctx <;> rfl

/-- An entry keeps its name, and its value is scrubbed. -/
theorem get?_scrubEvent (h : scrubEvent cls urls event = some event') (path : List Step)
    (k : String) :
    event'.get? place path k = (event.get? place path k).map (scrubJson cls) := by
  rw [Event.get?, Event.get?, map?_scrubEvent h, Option.bind_map, Option.map_bind]
  congr 1
  funext map
  have hobj : Json.obj (OrdMap.mapValues (scrubJson cls) map) = scrubJson cls (.obj map) := by
    rw [scrubJson, scrubMembers_eq]
  rw [Function.comp_apply, hobj, at?_scrubJson]
  rfl

/-- A name whose value is to be redacted. -/
def Sensitive (k : String) : Prop := ∃ name ∈ sensitiveNames, Text.eqIgnoreAsciiCase name k = true

/-- An entry with a sensitive name and a value that is not redacted yet. -/
structure SensitiveEntry (event : Event U τ) (place : Place) (path : List Step) (k v : String) :
    Prop where
  entry : event.get? place path k = some (.str v)
  sensitive : Sensitive k
  fresh : v ≠ redacted

/-- The name of an entry is not looked at: the value is another one after the scrubbing if and only
    if one of the patterns has a match in the value itself that is not its own replacement. -/
theorem scrubEvent_entry {path : List Step} {k v : String}
    (h : SensitiveEntry event place path k v) :
    ∃ event', scrubEvent cls urls event = some event' ∧
      (event'.get? place path k ≠ some (.str v) ↔
        (urlCreds cls).Alters urlTemplate v.toList ∨
        (sensitiveKey cls).Alters assignmentTemplate v.toList ∨
        (secret cls).Alters assignmentTemplate v.toList) := by
  obtain ⟨event', hscrub⟩ : ∃ event', scrubEvent cls urls event = some event' := ⟨_, rfl⟩
  refine ⟨event', hscrub, ?_⟩
  rw [get?_scrubEvent hscrub, h.entry, Option.map_some, scrubJson, ne_eq, Option.some_inj,
    Json.str.injEq]
  exact scrubStr_ne_iff cls v

end

def envEvent (k v : String) : Event String Empty where
  message := none
  exception := []
  breadcrumbs := []
  extra := []
  contexts := []
  tags := []
  user := none
  request := some
    { url := none, method := none, data := none, queryString := none, cookies := none,
      headers := [], env := [(k, v)] }

/-- A URL and an assignment in a value are found, an assignment to another name is not. -/
theorem scrubEvent_entry_dsn :
    (∃ event', scrubEvent asciiClasses ⟨id, some⟩ (envEvent "state_db_url" "postgres://u:p@db") =
      some event' ∧ event'.get? .env [] "state_db_url" ≠ some (.str "postgres://u:p@db")) ∧
    (∃ event', scrubEvent asciiClasses ⟨id, some⟩ (envEvent "Target_DB_URL" "password=x") =
      some event' ∧ event'.get? .env [] "Target_DB_URL" ≠ some (.str "password=x")) ∧
    ∃ event', scrubEvent asciiClasses ⟨id, some⟩ (envEvent "OIDC_CLIENT_SECRET" "a=b") =
      some event' ∧ ¬ event'.get? .env [] "OIDC_CLIENT_SECRET" ≠ some (.str "a=b") := by
  obtain ⟨event₁, hscrub₁, hiff₁⟩ := @scrubEvent_entry String Empty asciiClasses ⟨id, some⟩
    (envEvent "state_db_url" "postgres://u:p@db") .env [] "state_db_url" "postgres://u:p@db"
    ⟨rfl, ⟨"STATE_DB_URL", by decide, by decide⟩, by decide⟩
  obtain ⟨event₂, hscrub₂, hiff₂⟩ := @scrubEvent_entry String Empty asciiClasses ⟨id, some⟩
    (envEvent "Target_DB_URL" "password=x") .env [] "Target_DB_URL" "password=x"
    ⟨rfl, ⟨"TARGET_DB_URL", by decide, by decide⟩, by decide⟩
  obtain ⟨event₃, hscrub₃, hiff₃⟩ := @scrubEvent_entry String Empty asciiClasses ⟨id, some⟩
    (envEvent "OIDC_CLIENT_SECRET" "a=b") .env [] "OIDC_CLIENT_SECRET" "a=b"
    ⟨rfl, ⟨"OIDC_CLIENT_SECRET", by decide, by decide⟩, by decide⟩
  refine ⟨⟨event₁, hscrub₁, hiff₁.mpr (.inl ⟨"postgres://".toList, "postgres://u:p@".toList, ?_, ?_⟩)⟩,
    ⟨event₂, hscrub₂, hiff₂.mpr (.inr (.inr ⟨"password".toList, "password=x".toList, ?_, ?_⟩))⟩,
    event₃, hscrub₃, ?_⟩
  · decide
  · decide
  · decide
  · decide
  · -- all of the value is kept
    have hkept : (urlCreds asciiClasses).pieces "a=b".toList = "a=b".toList.map .keep ∧
        (sensitiveKey asciiClasses).pieces "a=b".toList = "a=b".toList.map .keep ∧
        (secret asciiClasses).pieces "a=b".toList = "a=b".toList.map .keep := by decide
    rw [hiff₃, Regex.Pattern.Alters, Regex.Pattern.Alters, Regex.Pattern.Alters, hkept.1, hkept.2.1,
      hkept.2.2]
    simp

/-- A signing key leaves with the event. -/
theorem signing_key_leaves :
    SensitiveEntry (envEvent "SESSION_SIGNING_KEY" "hunter2") .env [] "SESSION_SIGNING_KEY"
      "hunter2" ∧
    ∃ event', scrubEvent asciiClasses ⟨id, some⟩ (envEvent "SESSION_SIGNING_KEY" "hunter2") =
      some event' ∧ event'.get? .env [] "SESSION_SIGNING_KEY" = some (.str "hunter2") := by
  refine ⟨⟨rfl, ⟨"SESSION_SIGNING_KEY", by decide, by decide⟩, by decide⟩, _, rfl, ?_⟩
  have hkept : scrubStr asciiClasses "hunter2" = "hunter2" := by decide
  exact (get?_scrubEvent rfl [] "SESSION_SIGNING_KEY").trans (congrArg (some ∘ Json.str) hkept)

end DbMcpGateway.Sentry

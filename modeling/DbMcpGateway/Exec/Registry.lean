import DbMcpGateway.Async.Machine
import DbMcpGateway.Data.Indexed
import DbMcpGateway.Data.Table
import DbMcpGateway.Exec.Adapter

/-!
# The adapter registry

`get_or_open` (exec/mod.rs) as a machine: any number of calls read the map under the read
lock, create a slot under the write lock if there is none, and run the initializer of the
slot's `OnceCell` or wait for the call that runs it. An open can succeed, fail or hang, and a
call can be dropped at every await.

A `OnceCell` runs one initializer at a time and stays empty if that fails or is dropped.
Cells and adapters are named by their position in a list: the clones of an `Arc` share them.

Results:

* `registry_moves`, `cell_moves`, `arrives`: what a step does, to the cells and to a call.
* `RegistryInv.step`: what every step keeps.
* `published_mono`: an adapter that is published stays.
-/

namespace DbMcpGateway.Exec

open Config Machine

/-! ## The model -/

/-- The key of an adapter (exec/mod.rs:44). -/
abbrev AdapterKey := String × String

/-- Where a call of `get_or_open` is. -/
inductive OpenPhase
  /-- It waits for the read lock. -/
  | reading
  /-- It has the read guard. -/
  | readHeld
  /-- It waits for the write lock. -/
  | writing
  /-- It has the write guard. -/
  | writeHeld
  /-- It has cloned a slot and asks its cell. -/
  | atSlot (cell : ℕ)
  /-- It runs the initializer of a cell. -/
  | opening (cell : ℕ)
  | returned (result : Except ExecError ℕ)
  | dropped

/-- A call of `get_or_open`. -/
structure OpenCall where
  server : Server
  database : Database
  phase : OpenPhase

/-- The key of the call's target. -/
def OpenCall.key (call : OpenCall) : AdapterKey := (call.server.name, call.database.name)

/-- A `OnceCell`: its value, and whether an initializer runs. -/
structure OnceCell where
  value : Option ℕ
  busy : Bool
  deriving DecidableEq

/-- An entry of the map. -/
structure Slot where
  key : AdapterKey
  cell : ℕ
  deriving DecidableEq

/-- `struct AdapterRegistry` (exec/mod.rs:60), with the calls that use it and the targets of
    the adapters that were opened. -/
structure Registry where
  slots : Table Slot.key
  cells : List OnceCell
  adapters : List AdapterKey
  readers : List ℕ
  writer : Option ℕ
  calls : List OpenCall

/-- `AdapterRegistry::new` (exec/mod.rs:79). -/
@[simp] def Registry.new : Registry := ⟨.empty, [], [], [], none, []⟩

/-- A step of the call at a position, or of its open. -/
inductive RegistryAct
  | call (server : Server) (database : Database)
  | lockRead (i : ℕ)
  /-- The section under the read lock. -/
  | read (i : ℕ)
  | lockWrite (i : ℕ)
  /-- The section under the write lock. -/
  | insert (i : ℕ)
  /-- `get_or_try_init` finds the value or begins the initializer. -/
  | enter (i : ℕ)
  /-- The open ends. -/
  | opened (i : ℕ) (result : Except ExecError Unit)
  | drop (i : ℕ)

section

variable (s : Registry)

/-- The call at a position goes on. -/
def Registry.goOn (i : ℕ) (call : OpenCall) (phase : OpenPhase) : Registry :=
  { s with calls := s.calls.set i { call with phase } }

/-- The slot is created, if no other call was faster. -/
def Registry.orDefault (i : ℕ) (call : OpenCall) : Registry :=
  match s.slots.get call.key with
  | some slot => { s.goOn i call (.atSlot slot.cell) with writer := none }
  | none =>
    { s.goOn i call (.atSlot s.cells.length) with
      writer := none
      slots := s.slots.put ⟨call.key, s.cells.length⟩
      cells := s.cells ++ [⟨none, false⟩] }

/-- The result of the initializer: other kinds of servers have no adapter. -/
def initResult (server : Server) (result : Except ExecError Unit) : Except ExecError Unit :=
  match server.kind with
  | .postgres | .mongo => result
  | other => .error (.unsupportedAdapter other)

/-- The initializer of a cell ends. -/
def Registry.initialized (i : ℕ) (call : OpenCall) (cell : ℕ) (result : Except ExecError Unit) :
    Registry :=
  match initResult call.server result with
  | .ok () =>
    { s.goOn i call (.returned (.ok s.adapters.length)) with
      adapters := s.adapters ++ [call.key]
      cells := s.cells.set cell ⟨some s.adapters.length, false⟩ }
  | .error e =>
    { s.goOn i call (.returned (.error e)) with cells := s.cells.set cell ⟨none, false⟩ }

def Registry.step : RegistryAct → Option Registry
  | .call server database =>
    some { s with calls := s.calls ++ [⟨server, database, .reading⟩] }
  | .lockRead i =>
    match s.calls[i]?, s.writer with
    | some ⟨server, database, .reading⟩, none =>
      some { s.goOn i ⟨server, database, .reading⟩ .readHeld with readers := i :: s.readers }
    | _, _ => none
  | .read i =>
    match s.calls[i]? with
    | some ⟨server, database, .readHeld⟩ =>
      let call : OpenCall := ⟨server, database, .readHeld⟩
      let phase := match s.slots.get call.key with
        | some slot => .atSlot slot.cell
        | none => .writing
      some { s.goOn i call phase with readers := s.readers.erase i }
    | _ => none
  | .lockWrite i =>
    match s.calls[i]?, s.writer, s.readers with
    | some ⟨server, database, .writing⟩, none, [] =>
      some { s.goOn i ⟨server, database, .writing⟩ .writeHeld with writer := some i }
    | _, _, _ => none
  | .insert i =>
    match s.calls[i]? with
    | some ⟨server, database, .writeHeld⟩ => some (s.orDefault i ⟨server, database, .writeHeld⟩)
    | _ => none
  | .enter i =>
    match s.calls[i]? with
    | some ⟨server, database, .atSlot cell⟩ =>
      let call : OpenCall := ⟨server, database, .atSlot cell⟩
      match s.cells[cell]? with
      | some ⟨some adapter, _⟩ => some (s.goOn i call (.returned (.ok adapter)))
      | some ⟨none, false⟩ =>
        some { s.goOn i call (.opening cell) with cells := s.cells.set cell ⟨none, true⟩ }
      | _ => none
    | _ => none
  | .opened i result =>
    match s.calls[i]? with
    | some ⟨server, database, .opening cell⟩ =>
      some (s.initialized i ⟨server, database, .opening cell⟩ cell result)
    | _ => none
  | .drop i =>
    match s.calls[i]? with
    | some ⟨server, database, .reading⟩ => some (s.goOn i ⟨server, database, .reading⟩ .dropped)
    | some ⟨server, database, .writing⟩ => some (s.goOn i ⟨server, database, .writing⟩ .dropped)
    | some ⟨server, database, .atSlot cell⟩ =>
      some (s.goOn i ⟨server, database, .atSlot cell⟩ .dropped)
    | some ⟨server, database, .opening cell⟩ =>
      some { s.goOn i ⟨server, database, .opening cell⟩ .dropped with
        cells := s.cells.set cell ⟨none, false⟩ }
    | _ => none

def Registry.published (k : AdapterKey) : Option ℕ :=
  (s.slots.get k).bind fun slot => (s.cells[slot.cell]?).bind fun cell => cell.value

end

/-! ## What a step can do -/

/-- The steps, with what they find. -/
inductive RegistryMoves (s : Registry) : RegistryAct → Registry → Prop
  | call {server database} : RegistryMoves s (.call server database)
        { s with calls := s.calls ++ [⟨server, database, .reading⟩] }
  | lockRead {i} {call : OpenCall} : s.calls[i]? = some call → call.phase = .reading →
      s.writer = none →
      RegistryMoves s (.lockRead i) { s.goOn i call .readHeld with readers := i :: s.readers }
  | hit {i} {call : OpenCall} {slot : Slot} : s.calls[i]? = some call →
      call.phase = .readHeld → s.slots.get call.key = some slot →
      RegistryMoves s (.read i)
        { s.goOn i call (.atSlot slot.cell) with readers := s.readers.erase i }
  | miss {i} {call : OpenCall} : s.calls[i]? = some call → call.phase = .readHeld →
      s.slots.get call.key = none →
      RegistryMoves s (.read i) { s.goOn i call .writing with readers := s.readers.erase i }
  | lockWrite {i} {call : OpenCall} : s.calls[i]? = some call → call.phase = .writing →
      s.writer = none → s.readers = [] →
      RegistryMoves s (.lockWrite i) { s.goOn i call .writeHeld with writer := some i }
  | found {i} {call : OpenCall} {slot : Slot} : s.calls[i]? = some call →
      call.phase = .writeHeld → s.slots.get call.key = some slot →
      RegistryMoves s (.insert i) { s.goOn i call (.atSlot slot.cell) with writer := none }
  | create {i} {call : OpenCall} : s.calls[i]? = some call → call.phase = .writeHeld →
      s.slots.get call.key = none →
      RegistryMoves s (.insert i)
        { s.goOn i call (.atSlot s.cells.length) with
          writer := none
          slots := s.slots.put ⟨call.key, s.cells.length⟩
          cells := s.cells ++ [⟨none, false⟩] }
  | value {i cell adapter} {call : OpenCall} {busy} : s.calls[i]? = some call →
      call.phase = .atSlot cell → s.cells[cell]? = some ⟨some adapter, busy⟩ →
      RegistryMoves s (.enter i) (s.goOn i call (.returned (.ok adapter)))
  | init {i cell} {call : OpenCall} : s.calls[i]? = some call → call.phase = .atSlot cell →
      s.cells[cell]? = some ⟨none, false⟩ →
      RegistryMoves s (.enter i)
        { s.goOn i call (.opening cell) with cells := s.cells.set cell ⟨none, true⟩ }
  | ok {i cell} {call : OpenCall} {result} : s.calls[i]? = some call → call.phase = .opening cell →
      RegistryMoves s (.opened i result)
        { s.goOn i call (.returned (.ok s.adapters.length)) with
          adapters := s.adapters ++ [call.key]
          cells := s.cells.set cell ⟨some s.adapters.length, false⟩ }
  | failed {i cell} {call : OpenCall} {phase a} :
      s.calls[i]? = some call → call.phase = .opening cell →
      phase = .dropped ∨ (∃ e, phase = .returned (.error e)) →
      RegistryMoves s a { s.goOn i call phase with cells := s.cells.set cell ⟨none, false⟩ }
  | gone {i} {call : OpenCall} : s.calls[i]? = some call →
      call.phase = .reading ∨ call.phase = .writing ∨ (∃ cell, call.phase = .atSlot cell) →
      RegistryMoves s (.drop i) (s.goOn i call .dropped)

section

variable {s s' : Registry} {a : RegistryAct}

theorem moves_initialized {i cell : ℕ} {call : OpenCall} {result}
    (hi : s.calls[i]? = some call) (hphase : call.phase = .opening cell) :
    RegistryMoves s (.opened i result) (s.initialized i call cell result) := by
  unfold Registry.initialized
  split
  · exact .ok hi hphase
  · exact .failed hi hphase (.inr ⟨_, rfl⟩)

theorem moves_orDefault {i : ℕ} {call : OpenCall} (hi : s.calls[i]? = some call)
    (hphase : call.phase = .writeHeld) : RegistryMoves s (.insert i) (s.orDefault i call) := by
  unfold Registry.orDefault
  split
  · exact .found hi hphase ‹_›
  · exact .create hi hphase ‹_›

theorem registry_moves (h : s.step a = some s') : RegistryMoves s a s' := by
  cases a with
  | call server database =>
    cases h
    exact .call
  | lockRead i =>
    rw [Registry.step] at h
    split at h
    · cases h
      exact .lockRead ‹_› rfl ‹_›
    · cases h
  | read i =>
    rw [Registry.step] at h
    split at h
    · rename_i server database hi
      cases h
      dsimp only
      split
      · exact .hit hi rfl ‹_›
      · exact .miss hi rfl ‹_›
    · cases h
  | lockWrite i =>
    rw [Registry.step] at h
    split at h
    · cases h
      exact .lockWrite ‹_› rfl ‹_› ‹_›
    · cases h
  | insert i =>
    rw [Registry.step] at h
    split at h
    · cases h
      exact moves_orDefault ‹_› rfl
    · cases h
  | enter i =>
    rw [Registry.step] at h
    split at h
    · rename_i server database cell hi
      dsimp only at h
      split at h
      · cases h
        exact .value hi rfl ‹_›
      · cases h
        exact .init hi rfl ‹_›
      · cases h
    · cases h
  | opened i result =>
    rw [Registry.step] at h
    split at h
    · cases h
      exact moves_initialized ‹_› rfl
    · cases h
  | drop i =>
    rw [Registry.step] at h
    split at h
    · cases h
      exact .gone ‹_› (.inl rfl)
    · cases h
      exact .gone ‹_› (.inr (.inl rfl))
    · cases h
      exact .gone ‹_› (.inr (.inr ⟨_, rfl⟩))
    · cases h
      exact .failed ‹_› rfl (.inl rfl)
    · cases h

end

/-! ## The invariant -/

def CallAt (calls : List OpenCall) (i : ℕ) (k : AdapterKey) (phase : OpenPhase) : Prop :=
  ∃ call, calls[i]? = some call ∧ call.key = k ∧ call.phase = phase

section

variable {calls : List OpenCall} {call : OpenCall} {i j : ℕ} {k k' : AdapterKey}
  {phase phase' : OpenPhase}

theorem callAt_of_some (hi : calls[i]? = some call) (hphase : call.phase = phase) :
    CallAt calls i call.key phase := ⟨call, hi, rfl, hphase⟩

theorem CallAt.unique (h : CallAt calls i k phase) (h' : CallAt calls i k' phase') :
    k = k' ∧ phase = phase' := by
  obtain ⟨call, hi, rfl, rfl⟩ := h
  obtain ⟨call', hi', rfl, rfl⟩ := h'
  rw [hi] at hi'
  cases hi'
  exact ⟨rfl, rfl⟩

theorem callAt_set (hi : calls[i]? = some call) :
    CallAt (calls.set i { call with phase }) j k phase' ↔
      j = i ∧ call.key = k ∧ phase = phase' ∨ j ≠ i ∧ CallAt calls j k phase' := by
  unfold CallAt
  rw [Indexed.getElem?_set_of_some hi]
  by_cases hj : j = i
  · simp only [hj, if_true, Option.some.injEq, true_and, ne_eq, not_true, false_and, or_false]
    constructor
    · rintro ⟨_, rfl, rfl, rfl⟩
      exact ⟨rfl, rfl⟩
    · rintro ⟨rfl, rfl⟩
      exact ⟨_, rfl, rfl, rfl⟩
  · simp only [hj, if_false, false_and, ne_eq, not_false_eq_true, true_and, false_or]

theorem callAt_set_leave (hi : calls[i]? = some call) (hnew : phase ≠ phase') :
    CallAt (calls.set i { call with phase }) j k phase' ↔ j ≠ i ∧ CallAt calls j k phase' := by
  rw [callAt_set hi]
  constructor
  · rintro (⟨-, -, h⟩ | h)
    · exact absurd h hnew
    · exact h
  · exact .inr

theorem callAt_set_of_ne (hi : calls[i]? = some call) (hold : call.phase ≠ phase')
    (hnew : phase ≠ phase') :
    CallAt (calls.set i { call with phase }) j k phase' ↔ CallAt calls j k phase' := by
  rw [callAt_set_leave hi hnew]
  constructor
  · exact fun h => h.2
  · intro h
    refine ⟨?_, h⟩
    rintro rfl
    exact hold (h.unique (callAt_of_some hi rfl)).2.symm

theorem callAt_concat (hphase : call.phase = .reading) (hne : phase ≠ .reading) :
    CallAt (calls ++ [call]) j k phase ↔ CallAt calls j k phase := by
  unfold CallAt
  rw [Indexed.getElem?_concat]
  by_cases hj : j = calls.length
  · subst hj
    simp only [if_true, Option.some.injEq, List.getElem?_eq_none le_rfl, reduceCtorEq, false_and,
      exists_false, iff_false]
    rintro ⟨_, rfl, -, rfl⟩
    exact hne hphase
  · rw [if_neg hj]

end

section

variable {s s' : Registry} {a : RegistryAct}

/-- What holds of every state that can be reached. -/
structure RegistryInv (s : Registry) : Prop where
  /-- A slot has a cell of its own. -/
  known : ∀ slot ∈ s.slots.rows, slot.cell < s.cells.length
  apart : ∀ slot ∈ s.slots.rows, ∀ slot' ∈ s.slots.rows, slot.cell = slot'.cell → slot = slot'
  /-- A call uses the cell of its key. -/
  uses : ∀ i k c, CallAt s.calls i k (.atSlot c) ∨ CallAt s.calls i k (.opening c) →
    s.slots.get k = some ⟨k, c⟩
  /-- A cell is busy while one call runs its initializer. -/
  busy : ∀ i k c, CallAt s.calls i k (.opening c) → s.cells[c]? = some ⟨none, true⟩
  opener : ∀ (c : ℕ) (value : Option ℕ), s.cells[c]? = some ⟨value, true⟩ →
    ∃ i k, CallAt s.calls i k (.opening c)
  single : ∀ i j k k' c, CallAt s.calls i k (.opening c) → CallAt s.calls j k' (.opening c) → i = j
  /-- An adapter belongs to the key it is published under. -/
  target : ∀ slot ∈ s.slots.rows, ∀ (adapter : ℕ) (busy : Bool),
    s.cells[slot.cell]? = some ⟨some adapter, busy⟩ → s.adapters[adapter]? = some slot.key
  returned : ∀ i k adapter, CallAt s.calls i k (.returned (.ok adapter)) →
    s.published k = some adapter
  /-- The lock is with the calls that have a guard. -/
  readers : ∀ i, i ∈ s.readers ↔ ∃ k, CallAt s.calls i k .readHeld
  nodup : s.readers.Nodup
  writer : ∀ i, s.writer = some i ↔ ∃ k, CallAt s.calls i k .writeHeld

variable {k : AdapterKey} {slot : Slot} {c j adapter : ℕ}

theorem slots_mono (hmoves : RegistryMoves s a s') (hslot : s.slots.get k = some slot) :
    s'.slots.get k = some slot := by
  cases hmoves with
  | create hi hphase hnone =>
    refine (Table.get_put_of_ne ?_).trans hslot
    rintro rfl
    rw [hnone] at hslot
    cases hslot
  | _ => exact hslot

/-- What a step does to the cells and to the calls that run an initializer. -/
inductive CellMoves (s s' : Registry) : Prop
  | quiet (hcalls : ∀ j k c, CallAt s'.calls j k (.opening c) ↔ CallAt s.calls j k (.opening c))
      (hcells : s'.cells = s.cells ∨ s'.cells = s.cells ++ [⟨none, false⟩])
      (hadapters : s'.adapters = s.adapters)
  | begins {i c k} (hcalls : ∀ j k' c', CallAt s'.calls j k' (.opening c') ↔
        j = i ∧ k = k' ∧ c = c' ∨ j ≠ i ∧ CallAt s.calls j k' (.opening c'))
      (hfree : s.cells[c]? = some ⟨none, false⟩) (hat : CallAt s.calls i k (.atSlot c))
      (hcells : s'.cells = s.cells.set c ⟨none, true⟩) (hadapters : s'.adapters = s.adapters)
  | ends {i c k value} (hcalls : ∀ j k' c', CallAt s'.calls j k' (.opening c') ↔
        j ≠ i ∧ CallAt s.calls j k' (.opening c'))
      (hat : CallAt s.calls i k (.opening c)) (hcells : s'.cells = s.cells.set c ⟨value, false⟩)
      (hvalue : value = none ∧ s'.adapters = s.adapters ∨
        value = some s.adapters.length ∧ s'.adapters = s.adapters ++ [k] ∧
          CallAt s'.calls i k (.returned (.ok s.adapters.length)))

theorem cell_moves (hmoves : RegistryMoves s a s') : CellMoves s s' := by
  cases hmoves with
  | call =>
    refine .quiet (fun j k c => ?_) (.inl rfl) rfl
    exact callAt_concat rfl (by simp)
  | create hi hphase =>
    exact .quiet (fun j k c => callAt_set_of_ne hi (by simp [hphase]) (by simp)) (.inr rfl) rfl
  | init hi hphase hfree =>
    refine .begins (fun j k c => ?_) hfree (callAt_of_some hi hphase) rfl rfl
    refine (callAt_set hi).trans ?_
    rw [OpenPhase.opening.injEq]
  | ok hi hphase =>
    exact .ends (fun j k c => callAt_set_leave hi (by simp)) (callAt_of_some hi hphase) rfl
      (.inr ⟨rfl, rfl, (callAt_set hi).mpr (.inl ⟨rfl, rfl, rfl⟩)⟩)
  | failed hi hphase hnew =>
    refine .ends (fun j k c => callAt_set_leave hi ?_) (callAt_of_some hi hphase) rfl
      (.inl ⟨rfl, rfl⟩)
    rcases hnew with rfl | ⟨e, rfl⟩ <;> simp
  | lockRead hi hphase | hit hi hphase | miss hi hphase | lockWrite hi hphase | found hi hphase
  | value hi hphase =>
    exact .quiet (fun j k c => callAt_set_of_ne hi (by simp [hphase]) (by simp)) (.inl rfl) rfl
  | gone hi hphase =>
    refine .quiet (fun j k c => callAt_set_of_ne hi ?_ (by simp)) (.inl rfl) rfl
    rcases hphase with hphase | hphase | ⟨cell, hphase⟩ <;> simp [hphase]

variable {cell : OnceCell} {i : ℕ} {busy : Bool} {phase : OpenPhase}

theorem getElem?_cells_of_quiet
    (hcells : s'.cells = s.cells ∨ s'.cells = s.cells ++ [⟨none, false⟩])
    (hc : s'.cells[c]? = some cell) : s.cells[c]? = some cell ∨ cell = ⟨none, false⟩ := by
  rcases hcells with hcells | hcells
  · rw [hcells] at hc
    exact .inl hc
  · rw [hcells, Indexed.getElem?_concat] at hc
    split_ifs at hc
    · exact .inr (Option.some.inj hc).symm
    · exact .inl hc

theorem cells_mono_of_quiet (hcells : s'.cells = s.cells ∨ s'.cells = s.cells ++ [⟨none, false⟩])
    (hc : s.cells[c]? = some cell) : s'.cells[c]? = some cell := by
  rcases hcells with hcells | hcells
  · rw [hcells, hc]
  · rw [hcells]
    exact Indexed.getElem?_concat_of_some hc

section

variable (h : RegistryInv s) (hmoves : CellMoves s s')

include h hmoves

theorem busy_step (hj : CallAt s'.calls j k (.opening c)) : s'.cells[c]? = some ⟨none, true⟩ := by
  cases hmoves with
  | quiet hcalls hcells =>
    rw [hcalls] at hj
    exact cells_mono_of_quiet hcells (h.busy _ _ _ hj)
  | begins hcalls hfree hat hcells =>
    rw [hcells, Indexed.getElem?_set_of_some hfree]
    rcases (hcalls _ _ _).mp hj with ⟨-, -, hc⟩ | ⟨-, hj⟩
    · rw [if_pos hc.symm]
    · split_ifs
      · rfl
      · exact h.busy _ _ _ hj
  | ends hcalls hat hcells =>
    obtain ⟨hne, hj⟩ := (hcalls _ _ _).mp hj
    rw [hcells, Indexed.getElem?_set_of_some (h.busy _ _ _ hat), if_neg]
    · exact h.busy _ _ _ hj
    · rintro rfl
      exact hne (h.single _ _ _ _ _ hj hat)

theorem opener_step {value} (hc : s'.cells[c]? = some ⟨value, true⟩) :
    ∃ j k, CallAt s'.calls j k (.opening c) := by
  cases hmoves with
  | quiet hcalls hcells =>
    rcases getElem?_cells_of_quiet hcells hc with hc | hc
    · obtain ⟨j, k, hj⟩ := h.opener _ _ hc
      exact ⟨j, k, (hcalls _ _ _).mpr hj⟩
    · cases hc
  | @begins i c₁ k hcalls hfree hat hcells =>
    rw [hcells, Indexed.getElem?_set_of_some hfree] at hc
    split_ifs at hc with hc₁
    · exact ⟨i, k, (hcalls _ _ _).mpr (.inl ⟨rfl, rfl, hc₁.symm⟩)⟩
    · obtain ⟨j, k', hj⟩ := h.opener _ _ hc
      refine ⟨j, k', (hcalls _ _ _).mpr (.inr ⟨?_, hj⟩)⟩
      rintro rfl
      cases (hj.unique hat).2
  | ends hcalls hat hcells =>
    rw [hcells, Indexed.getElem?_set_of_some (h.busy _ _ _ hat)] at hc
    split_ifs at hc with hc₁
    · cases hc
    · obtain ⟨j, k', hj⟩ := h.opener _ _ hc
      refine ⟨j, k', (hcalls _ _ _).mpr ⟨?_, hj⟩⟩
      rintro rfl
      cases (hj.unique hat).2
      exact hc₁ rfl

theorem single_step {k'} (hi : CallAt s'.calls i k (.opening c))
    (hj : CallAt s'.calls j k' (.opening c)) : i = j := by
  cases hmoves with
  | quiet hcalls =>
    rw [hcalls] at hi hj
    exact h.single _ _ _ _ _ hi hj
  | @begins i₁ c₁ k₁ hcalls hfree hat hcells =>
    -- The cell that a call enters was not busy.
    have hnone : ∀ j k, ¬ CallAt s.calls j k (.opening c₁) := by
      intro j k hj
      rw [h.busy _ _ _ hj] at hfree
      cases hfree
    rcases (hcalls _ _ _).mp hi with ⟨rfl, -, rfl⟩ | ⟨-, hi⟩ <;>
      rcases (hcalls _ _ _).mp hj with ⟨rfl, -, hc⟩ | ⟨-, hj⟩
    · rfl
    · exact absurd hj (hnone _ _)
    · subst hc
      exact absurd hi (hnone _ _)
    · exact h.single _ _ _ _ _ hi hj
  | ends hcalls =>
    exact h.single _ _ _ _ _ ((hcalls _ _ _).mp hi).2 ((hcalls _ _ _).mp hj).2

/-- A value that is published stays. -/
theorem value_mono (hc : s.cells[c]? = some ⟨some adapter, busy⟩) :
    s'.cells[c]? = some ⟨some adapter, busy⟩ := by
  cases hmoves with
  | quiet hcalls hcells => exact cells_mono_of_quiet hcells hc
  | begins hcalls hfree hat hcells =>
    rw [hcells, Indexed.getElem?_set_of_some hfree, if_neg, hc]
    rintro rfl
    rw [hc] at hfree
    cases hfree
  | ends hcalls hat hcells =>
    have hbusy := h.busy _ _ _ hat
    rw [hcells, Indexed.getElem?_set_of_some hbusy, if_neg, hc]
    rintro rfl
    rw [hc] at hbusy
    cases hbusy

end

theorem published_eq_some :
    s.published k = some adapter ↔
      ∃ slot busy, s.slots.get k = some slot ∧ s.cells[slot.cell]? = some ⟨some adapter, busy⟩ := by
  simp only [Registry.published, Option.bind_eq_some_iff]
  constructor
  · rintro ⟨slot, hslot, ⟨value, busy⟩, hcell, hvalue⟩
    cases hvalue
    exact ⟨slot, busy, hslot, hcell⟩
  · rintro ⟨slot, busy, hslot, hcell⟩
    exact ⟨slot, hslot, _, hcell, rfl⟩

theorem published_mono (h : RegistryInv s) (hmoves : RegistryMoves s a s')
    (hk : s.published k = some adapter) : s'.published k = some adapter := by
  obtain ⟨slot, busy, hslot, hcell⟩ := published_eq_some.mp hk
  exact published_eq_some.mpr
    ⟨slot, busy, slots_mono hmoves hslot, value_mono h (cell_moves hmoves) hcell⟩

theorem get_slot_eq (h : s.slots.get k = some slot) :
    s.slots.get k = some ⟨k, slot.cell⟩ := by
  obtain ⟨-, rfl⟩ := Table.get_eq_some.mp h
  exact h

inductive Arrives (s s' : Registry) (j : ℕ) (k : AdapterKey) : OpenPhase → Prop
  | stays {phase : OpenPhase} : CallAt s.calls j k phase → Arrives s s' j k phase
  | atSlot {c : ℕ} : s'.slots.get k = some ⟨k, c⟩ → Arrives s s' j k (.atSlot c)
  | opening {c : ℕ} : CallAt s.calls j k (.atSlot c) → Arrives s s' j k (.opening c)
  | returned {c adapter : ℕ} {busy : Bool} :
      CallAt s.calls j k (.atSlot c) ∨ CallAt s.calls j k (.opening c) →
      s'.cells[c]? = some ⟨some adapter, busy⟩ → Arrives s s' j k (.returned (.ok adapter))
  | other {phase : OpenPhase} : (∀ c, phase ≠ .atSlot c) → (∀ c, phase ≠ .opening c) →
      (∀ adapter, phase ≠ .returned (.ok adapter)) → Arrives s s' j k phase

theorem arrives_set {call : OpenCall} {phase' : OpenPhase} (hi : s.calls[i]? = some call)
    (hnew : Arrives s s' i call.key phase)
    (hj : CallAt (s.calls.set i { call with phase }) j k phase') : Arrives s s' j k phase' := by
  rcases (callAt_set hi).mp hj with ⟨rfl, rfl, rfl⟩ | ⟨-, hj⟩
  · exact hnew
  · exact .stays hj

section

variable (h : RegistryInv s) (hmoves : RegistryMoves s a s')

include h hmoves

theorem arrives (hj : CallAt s'.calls j k phase) : Arrives s s' j k phase := by
  cases hmoves with
  | call =>
    by_cases hphase : phase = .reading
    · subst hphase
      exact .other (by simp) (by simp) (by simp)
    · exact .stays ((callAt_concat rfl hphase).mp hj)
  | hit hi hphase hslot | found hi hphase hslot =>
    exact arrives_set hi (.atSlot (get_slot_eq hslot)) hj
  | create hi => exact arrives_set hi (.atSlot (Table.get_put_self _ _)) hj
  | value hi hphase hcell =>
    exact arrives_set hi (.returned (.inl (callAt_of_some hi hphase)) hcell) hj
  | init hi hphase => exact arrives_set hi (.opening (callAt_of_some hi hphase)) hj
  | @ok i cell call _ hi hphase =>
    have hat := callAt_of_some hi hphase
    have hcell : (s.cells.set cell ⟨some s.adapters.length, false⟩)[cell]? =
        some ⟨some s.adapters.length, false⟩ := by
      rw [Indexed.getElem?_set_of_some (h.busy _ _ _ hat), if_pos rfl]
    exact arrives_set hi (.returned (.inr hat) hcell) hj
  | failed hi hphase hnew =>
    refine arrives_set hi ?_ hj
    rcases hnew with rfl | ⟨e, rfl⟩ <;> exact .other (by simp) (by simp) (by simp)
  | lockRead hi | miss hi | lockWrite hi | gone hi =>
    exact arrives_set hi (.other (by simp) (by simp) (by simp)) hj

theorem uses_step (hj : CallAt s'.calls j k (.atSlot c) ∨ CallAt s'.calls j k (.opening c)) :
    s'.slots.get k = some ⟨k, c⟩ := by
  rcases hj with hj | hj
  · cases arrives h hmoves hj with
    | stays hj => exact slots_mono hmoves (h.uses _ _ _ (.inl hj))
    | atSlot hslot => exact hslot
    | other hne => exact absurd rfl (hne c)
  · cases arrives h hmoves hj with
    | stays hj => exact slots_mono hmoves (h.uses _ _ _ (.inr hj))
    | opening hj => exact slots_mono hmoves (h.uses _ _ _ (.inl hj))
    | other _ hne => exact absurd rfl (hne c)

theorem returned_step (hj : CallAt s'.calls j k (.returned (.ok adapter))) :
    s'.published k = some adapter := by
  cases arrives h hmoves hj with
  | stays hj => exact published_mono h hmoves (h.returned _ _ _ hj)
  | returned hj hcell =>
    exact published_eq_some.mpr ⟨_, _, slots_mono hmoves (h.uses _ _ _ hj), hcell⟩
  | other _ _ hne => exact absurd rfl (hne adapter)

end

/-- A slot after a step is an old one or one that was created. -/
theorem slot_after (hmoves : RegistryMoves s a s') (hslot : slot ∈ s'.slots.rows) :
    slot ∈ s.slots.rows ∨
      slot.cell = s.cells.length ∧ s'.cells = s.cells ++ [⟨none, false⟩] ∧
        ∀ slot' ∈ s'.slots.rows, slot'.cell = s.cells.length → slot' ∉ s.slots.rows →
          slot' = slot := by
  cases hmoves with
  | create hi =>
    rcases Table.mem_put.mp hslot with rfl | ⟨hslot, -⟩
    · refine .inr ⟨rfl, rfl, fun slot' hslot' _ hnew => ?_⟩
      rcases Table.mem_put.mp hslot' with rfl | ⟨hold, -⟩
      · rfl
      · exact absurd hold hnew
    · exact .inl hslot
  | _ => exact .inl hslot

theorem length_cells_le (hmoves : CellMoves s s') : s.cells.length ≤ s'.cells.length := by
  cases hmoves with
  | quiet hcalls hcells =>
    rcases hcells with hcells | hcells <;> simp [hcells]
  | begins hcalls hfree hat hcells | ends hcalls hat hcells => rw [hcells, List.length_set]

section

variable (h : RegistryInv s) (hmoves : RegistryMoves s a s')

include h hmoves

theorem known_step (hslot : slot ∈ s'.slots.rows) : slot.cell < s'.cells.length := by
  rcases slot_after hmoves hslot with hslot | ⟨hcell, hcells, -⟩
  · exact lt_of_lt_of_le (h.known slot hslot) (length_cells_le (cell_moves hmoves))
  · rw [hcells, hcell, List.length_append]
    exact Nat.lt_succ_self _

theorem apart_step {slot' : Slot} (hslot : slot ∈ s'.slots.rows) (hslot' : slot' ∈ s'.slots.rows)
    (hcell : slot.cell = slot'.cell) : slot = slot' := by
  rcases slot_after hmoves hslot with hold | ⟨hnew, -, honly⟩
  · rcases slot_after hmoves hslot' with hold' | ⟨hnew', -, -⟩
    · exact h.apart slot hold slot' hold' hcell
    · have hlt := h.known slot hold
      omega
  · rcases slot_after hmoves hslot' with hold' | ⟨hnew', -, -⟩
    · have hlt := h.known slot' hold'
      omega
    · refine (honly slot' hslot' hnew' fun hold => ?_).symm
      have hlt := h.known slot' hold
      omega

theorem target_step (hslot : slot ∈ s'.slots.rows)
    (hcell : s'.cells[slot.cell]? = some ⟨some adapter, busy⟩) :
    s'.adapters[adapter]? = some slot.key := by
  rcases slot_after hmoves hslot with hold | ⟨hnew, hcells, -⟩
  · cases cell_moves hmoves with
    | quiet hcalls hcells hadapters =>
      rw [hadapters]
      rcases getElem?_cells_of_quiet hcells hcell with hcell | hcell
      · exact h.target slot hold _ _ hcell
      · cases hcell
    | begins hcalls hfree hat hcells hadapters =>
      rw [hadapters]
      rw [hcells, Indexed.getElem?_set_of_some hfree] at hcell
      split_ifs at hcell
      · cases hcell
      · exact h.target slot hold _ _ hcell
    | ends hcalls hat hcells hvalue =>
      rw [hcells, Indexed.getElem?_set_of_some (h.busy _ _ _ hat)] at hcell
      split_ifs at hcell with hc
      · -- The cell is that of the call's key.
        have hkey := h.apart _ hold _ (Table.mem_of_get (h.uses _ _ _ (.inr hat))) hc
        rcases hvalue with ⟨rfl, -⟩ | ⟨rfl, hadapters, -⟩
        · cases hcell
        · cases hcell
          rw [hadapters, hkey, Indexed.getElem?_concat, if_pos rfl]
      · have hadapter := h.target slot hold _ _ hcell
        rcases hvalue with ⟨-, hadapters⟩ | ⟨-, hadapters, -⟩ <;> rw [hadapters]
        · exact hadapter
        · exact Indexed.getElem?_concat_of_some hadapter
  · rw [hcells, hnew, Indexed.getElem?_concat, if_pos rfl] at hcell
    cases hcell

theorem readers_step (j : ℕ) :
    j ∈ s'.readers ↔ ∃ k, CallAt s'.calls j k .readHeld := by
  cases hmoves with
  | call =>
    refine (h.readers j).trans (exists_congr fun k => ?_)
    exact (callAt_concat rfl (by simp)).symm
  | @lockRead i _ hi hphase =>
    simp only [Registry.goOn, List.mem_cons, h.readers, callAt_set hi]
    by_cases hj : j = i <;> simp [hj]
  | @hit i _ _ hi hphase | @miss i _ hi hphase =>
    simp only [Registry.goOn, h.nodup.mem_erase_iff, h.readers, callAt_set hi]
    by_cases hj : j = i <;> simp [hj]
  | lockWrite hi hphase | found hi hphase | create hi hphase | value hi hphase | init hi hphase
  | ok hi hphase =>
    refine (h.readers j).trans (exists_congr fun k => ?_)
    exact (callAt_set_of_ne hi (by simp [hphase]) (by simp)).symm
  | failed hi hphase hnew =>
    refine (h.readers j).trans (exists_congr fun k => ?_)
    refine (callAt_set_of_ne hi (by simp [hphase]) ?_).symm
    rcases hnew with rfl | ⟨e, rfl⟩ <;> simp
  | gone hi hphase =>
    refine (h.readers j).trans (exists_congr fun k => ?_)
    refine (callAt_set_of_ne hi ?_ (by simp)).symm
    rcases hphase with hphase | hphase | ⟨cell, hphase⟩ <;> simp [hphase]

theorem nodup_step : s'.readers.Nodup := by
  cases hmoves with
  | lockRead hi hphase =>
    refine List.nodup_cons.mpr ⟨fun hmem => ?_, h.nodup⟩
    obtain ⟨k, hat⟩ := (h.readers _).mp hmem
    cases (hat.unique (callAt_of_some hi hphase)).2
  | hit | miss => exact h.nodup.erase _
  | _ => exact h.nodup

theorem writer_step (j : ℕ) :
    s'.writer = some j ↔ ∃ k, CallAt s'.calls j k .writeHeld := by
  cases hmoves with
  | call =>
    refine (h.writer j).trans (exists_congr fun k => ?_)
    exact (callAt_concat rfl (by simp)).symm
  | @lockWrite i _ hi hphase hnone =>
    have hold := h.writer j
    rw [hnone] at hold
    simp only [Registry.goOn, callAt_set hi]
    by_cases hj : j = i
    · simp [hj]
    · simp [hj, Ne.symm hj, ← hold]
  | found hi hphase | create hi hphase =>
    have hat := (h.writer _).mpr ⟨_, callAt_of_some hi hphase⟩
    simp only [Registry.goOn, callAt_set_leave hi (by simp : OpenPhase.atSlot _ ≠ .writeHeld)]
    have hold := h.writer j
    grind
  | lockRead hi hphase | hit hi hphase | miss hi hphase | value hi hphase | init hi hphase
  | ok hi hphase =>
    refine (h.writer j).trans (exists_congr fun k => ?_)
    exact (callAt_set_of_ne hi (by simp [hphase]) (by simp)).symm
  | failed hi hphase hnew =>
    refine (h.writer j).trans (exists_congr fun k => ?_)
    refine (callAt_set_of_ne hi (by simp [hphase]) ?_).symm
    rcases hnew with rfl | ⟨e, rfl⟩ <;> simp
  | gone hi hphase =>
    refine (h.writer j).trans (exists_congr fun k => ?_)
    refine (callAt_set_of_ne hi ?_ (by simp)).symm
    rcases hphase with hphase | hphase | ⟨cell, hphase⟩ <;> simp [hphase]

end

theorem RegistryInv.step (h : RegistryInv s) (hmoves : RegistryMoves s a s') : RegistryInv s' where
  known _ hslot := known_step h hmoves hslot
  apart _ hslot _ hslot' hcell := apart_step h hmoves hslot hslot' hcell
  uses _ _ _ hj := uses_step h hmoves hj
  busy _ _ _ hj := busy_step h (cell_moves hmoves) hj
  opener _ _ hc := opener_step h (cell_moves hmoves) hc
  single _ _ _ _ _ hi hj := single_step h (cell_moves hmoves) hi hj
  target _ hslot _ _ hcell := target_step h hmoves hslot hcell
  returned _ _ _ hj := returned_step h hmoves hj
  readers := readers_step h hmoves
  nodup := nodup_step h hmoves
  writer := writer_step h hmoves

theorem registryInv_new : RegistryInv .new where
  known _ hslot := nomatch hslot
  apart _ hslot := nomatch hslot
  uses i k c := by simp [CallAt]
  busy i k c := by simp [CallAt]
  opener c value := by simp
  single i j k k' c := by simp [CallAt]
  target _ hslot := nomatch hslot
  returned i k adapter := by simp [CallAt]
  readers i := by simp [CallAt]
  nodup := List.nodup_nil
  writer i := by simp [CallAt]

theorem registryInv_run {as} (h : RegistryInv s)
    (hrun : run Registry.step s as = some s') : RegistryInv s' :=
  run_invariant (P := RegistryInv) (fun _ _ _ h _ hstep => h.step (registry_moves hstep))
    (meets_true _ _) hrun h

end

end DbMcpGateway.Exec

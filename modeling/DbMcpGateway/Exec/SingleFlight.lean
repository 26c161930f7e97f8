import Mathlib.Logic.Relation
import DbMcpGateway.Exec.Registry

/-!
# The adapter registry is a single-flight map

What the invariant of `Exec.Registry` gives for the callers: one adapter per key, shared by
all of them, and no harm from an open that fails, is dropped with its caller or hangs.

Results:

* `Failed.published_eq`, `Failed.noOpener`: a failed attempt leaves the cell as it was.
* `Ready.canSucceed`: a call of a key that no call opens can return an adapter; it waits for
  sections under the lock only.
* `blockedByKey`: a chain of waiting calls leads to opens of the same key only.
* `single_flight`: all of it, in every state that can be reached.
-/

namespace DbMcpGateway.Exec

open Config Machine

/-! ## Failed attempts -/

/-- No call of the key runs an initializer. -/
def NoOpener (s : Registry) (k : AdapterKey) : Prop := ∀ j c, ¬ CallAt s.calls j k (.opening c)

section

variable {s s' : Registry} {a : RegistryAct} {i c : ℕ} {k : AdapterKey}

/-- An adapter is published by the call that opened it, which returns it. -/
theorem published_after (h : RegistryInv s) (hmoves : RegistryMoves s a s') {adapter : ℕ}
    (hk : s'.published k = some adapter) :
    s.published k = some adapter ∨
      ∃ i c, CallAt s.calls i k (.opening c) ∧ CallAt s'.calls i k (.returned (.ok adapter)) := by
  obtain ⟨slot, busy, hslot, hcell⟩ := published_eq_some.mp hk
  obtain ⟨hmem, hkey⟩ := Table.get_eq_some.mp hslot
  rcases slot_after hmoves hmem with hold | ⟨hnew, hcells, -⟩
  · have hget := Table.get_eq_some.mpr ⟨hold, hkey⟩
    cases cell_moves hmoves with
    | quiet hcalls hcells =>
      rcases getElem?_cells_of_quiet hcells hcell with hcell | hcell
      · exact .inl (published_eq_some.mpr ⟨slot, busy, hget, hcell⟩)
      · cases hcell
    | begins hcalls hfree hat hcells =>
      rw [hcells, Indexed.getElem?_set_of_some hfree] at hcell
      split_ifs at hcell
      · cases hcell
      · exact .inl (published_eq_some.mpr ⟨slot, busy, hget, hcell⟩)
    | ends hcalls hat hcells hvalue =>
      rw [hcells, Indexed.getElem?_set_of_some (h.busy _ _ _ hat)] at hcell
      split_ifs at hcell with hc
      · have huses := h.apart _ hold _ (Table.mem_of_get (h.uses _ _ _ (.inr hat))) hc
        rcases hvalue with ⟨rfl, -⟩ | ⟨rfl, -, hreturned⟩
        · cases hcell
        · cases hcell
          subst hkey
          rw [huses]
          exact .inr ⟨_, _, hat, hreturned⟩
      · exact .inl (published_eq_some.mpr ⟨slot, busy, hget, hcell⟩)
  · rw [hcells, hnew, Indexed.getElem?_concat, if_pos rfl] at hcell
    cases hcell

/-- In a step in which an initializer ends, no other call begins or ends one. -/
theorem opening_of_left (hmoves : CellMoves s s') (hi : CallAt s.calls i k (.opening c))
    (hleft : ¬ CallAt s'.calls i k (.opening c)) (j : ℕ) (k' : AdapterKey) (c' : ℕ) :
    CallAt s'.calls j k' (.opening c') ↔ j ≠ i ∧ CallAt s.calls j k' (.opening c') := by
  cases hmoves with
  | quiet hcalls => exact absurd ((hcalls _ _ _).mpr hi) hleft
  | begins hcalls hfree hat =>
    refine absurd ((hcalls _ _ _).mpr (.inr ⟨?_, hi⟩)) hleft
    rintro rfl
    cases (hi.unique hat).2
  | @ends i₁ _ _ _ hcalls hat =>
    have heq : i = i₁ := by
      by_contra hne
      exact hleft ((hcalls _ _ _).mpr ⟨hne, hi⟩)
    rw [heq]
    exact hcalls _ _ _

/-- The attempt of a call ended without an adapter. -/
def Failed (s : Registry) (i : ℕ) (k : AdapterKey) : Prop :=
  CallAt s.calls i k .dropped ∨ ∃ e, CallAt s.calls i k (.returned (.error e))

theorem Failed.not_callAt {phase} (h : Failed s i k) (hne : phase ≠ .dropped)
    (hne' : ∀ e, phase ≠ .returned (.error e)) : ¬ CallAt s.calls i k phase := by
  intro hat
  rcases h with h | ⟨e, h⟩
  · exact hne (hat.unique h).2
  · exact hne' e (hat.unique h).2

section

variable (h : RegistryInv s) (hmoves : RegistryMoves s a s') (hi : CallAt s.calls i k (.opening c))
  (hfailed : Failed s' i k)

include h hmoves hi hfailed

theorem Failed.published_eq (k' : AdapterKey) :
    s'.published k' = s.published k' := by
  have hopening := opening_of_left (cell_moves hmoves) hi
    (hfailed.not_callAt (by simp) (by simp))
  apply Option.ext
  intro adapter
  constructor
  · intro hk
    rcases published_after h hmoves hk with hk | ⟨j, c', hj, hj'⟩
    · exact hk
    · -- The call that publishes leaves its initializer too, so it is the call that failed.
      have hji : j = i := by
        by_contra hne
        cases (hj'.unique ((hopening _ _ _).mpr ⟨hne, hj⟩)).2
      subst hji
      obtain ⟨rfl, -⟩ := hj.unique hi
      exact absurd hj' (hfailed.not_callAt (by simp) (by simp))
  · exact published_mono h hmoves

theorem Failed.noOpener : NoOpener s' k := by
  intro j c' hj
  obtain ⟨hne, hj⟩ := (opening_of_left (cell_moves hmoves) hi
    (hfailed.not_callAt (by simp) (by simp)) _ _ _).mp hj
  have hslot := h.uses _ _ _ (.inr hi)
  rw [h.uses _ _ _ (.inr hj)] at hslot
  cases hslot
  exact hne (h.single _ _ _ _ _ hj hi)

end

end

/-! ## A call can succeed -/

def RegistryAct.caller : RegistryAct → Option ℕ
  | .call _ _ => none
  | .lockRead i | .read i | .lockWrite i | .insert i | .enter i | .opened i _ | .drop i => some i

/-- A step of the call, or the end of a section under the lock. -/
def Serves (n : ℕ) (s s' : Registry) : Prop :=
  ∃ a, (a.caller = some n ∨ ∃ j, a = .read j ∨ a = .insert j) ∧ s.step a = some s'

/-- The call can return an adapter, and waits for nothing but sections under the lock. -/
def CanSucceed (s : Registry) (n : ℕ) (k : AdapterKey) : Prop :=
  ∃ s' adapter, Relation.ReflTransGen (Serves n) s s' ∧
    CallAt s'.calls n k (.returned (.ok adapter))

structure Ready (s : Registry) (n : ℕ) (server : Server) (database : Database)
    (phase : OpenPhase) : Prop where
  inv : RegistryInv s
  supported : server.kind.hasAdapter = true
  call : s.calls[n]? = some ⟨server, database, phase⟩
  noOpener : NoOpener s (server.name, database.name)

section

variable {s s' : Registry} {a : RegistryAct} {n c : ℕ} {server : Server} {database : Database}
  {phase phase' : OpenPhase} {k : AdapterKey}

theorem CanSucceed.of_serves (hstep : Serves n s s') (h : CanSucceed s' n k) :
    CanSucceed s n k := by
  obtain ⟨s'', adapter, hserves, hat⟩ := h
  exact ⟨s'', adapter, .head hstep hserves, hat⟩

theorem noOpener_step (hmoves : RegistryMoves s a s') (ha : ∀ j, a ≠ .enter j)
    (h : NoOpener s k) : NoOpener s' k := by
  intro j c hj
  cases hmoves with
  | call => exact h j c ((callAt_concat rfl (by simp)).mp hj)
  | init | value => exact ha _ rfl
  | lockRead hi | hit hi | miss hi | lockWrite hi | found hi | create hi | ok hi | gone hi =>
    exact h j c ((callAt_set_leave hi (by simp)).mp hj).2
  | failed hi hphase hnew =>
    refine h j c ((callAt_set_leave hi ?_).mp hj).2
    rcases hnew with rfl | ⟨e, rfl⟩ <;> simp

theorem Ready.callAt (h : Ready s n server database phase) :
    CallAt s.calls n (server.name, database.name) phase := ⟨_, h.call, rfl, rfl⟩

theorem Ready.step (h : Ready s n server database phase) (hstep : s.step a = some s')
    (ha : ∀ j, a ≠ .enter j) (hcall : s'.calls[n]? = some ⟨server, database, phase'⟩) :
    Ready s' n server database phase' where
  inv := h.inv.step (registry_moves hstep)
  supported := h.supported
  call := hcall
  noOpener := noOpener_step (registry_moves hstep) ha h.noOpener

theorem getElem?_goOn (h : s.calls[n]? = some ⟨server, database, phase⟩) :
    (s.goOn n ⟨server, database, phase⟩ phase').calls[n]? = some ⟨server, database, phase'⟩ :=
  (Indexed.getElem?_set_of_some h).trans (if_pos rfl)

theorem initResult_ok (h : server.kind.hasAdapter = true) : initResult server (.ok ()) = .ok () := by
  unfold initResult
  cases hkind : server.kind <;> simp_all [ServerKind.hasAdapter]

theorem canSucceed_of_opening (hkind : server.kind.hasAdapter = true)
    (hcall : s.calls[n]? = some ⟨server, database, .opening c⟩) :
    CanSucceed s n (server.name, database.name) := by
  have hopened : s.step (.opened n (.ok ())) =
      some (s.initialized n ⟨server, database, .opening c⟩ c (.ok ())) := by
    simp only [Registry.step, hcall]
  refine .of_serves ⟨_, .inl rfl, hopened⟩ ⟨_, s.adapters.length, .refl, ?_⟩
  simp only [Registry.initialized, initResult_ok hkind]
  exact ⟨_, getElem?_goOn hcall, rfl, rfl⟩

/-- A call at its cell finds the adapter or opens it. -/
theorem Ready.atSlot (h : Ready s n server database (.atSlot c)) :
    CanSucceed s n (server.name, database.name) := by
  have hslot := h.inv.uses _ _ _ (.inl h.callAt)
  have hlt : c < s.cells.length := h.inv.known _ (Table.mem_of_get hslot)
  obtain ⟨⟨value, busy⟩, hcell⟩ : ∃ cell, s.cells[c]? = some cell :=
    ⟨s.cells[c], List.getElem?_eq_getElem hlt⟩
  cases value with
  | some adapter =>
    have henter : s.step (.enter n) =
        some (s.goOn n ⟨server, database, .atSlot c⟩ (.returned (.ok adapter))) := by
      simp only [Registry.step, h.call, hcell]
    refine .of_serves ⟨_, .inl rfl, henter⟩ ⟨_, adapter, .refl, ?_⟩
    exact ⟨_, getElem?_goOn h.call, rfl, rfl⟩
  | none =>
    cases busy with
    | true =>
      -- Only a call of the same key runs the initializer of its cell.
      obtain ⟨j, k, hj⟩ := h.inv.opener _ _ hcell
      have hkey := h.inv.apart _ (Table.mem_of_get hslot) _
        (Table.mem_of_get (h.inv.uses _ _ _ (.inr hj))) rfl
      cases hkey
      exact absurd hj (h.noOpener j c)
    | false =>
      have henter : s.step (.enter n) =
          some { s.goOn n ⟨server, database, .atSlot c⟩ (.opening c) with
            cells := s.cells.set c ⟨none, true⟩ } := by
        simp only [Registry.step, h.call, hcell]
      refine .of_serves ⟨_, .inl rfl, henter⟩ ?_
      exact canSucceed_of_opening h.supported (getElem?_goOn h.call)

theorem Ready.writeHeld (h : Ready s n server database .writeHeld) :
    CanSucceed s n (server.name, database.name) := by
  have hstep : s.step (.insert n) = some (s.orDefault n ⟨server, database, .writeHeld⟩) := by
    simp only [Registry.step, h.call]
  refine .of_serves ⟨_, .inl rfl, hstep⟩ ?_
  cases hslot : s.slots.get (server.name, database.name) with
  | some slot =>
    refine Ready.atSlot (c := slot.cell) (h.step hstep (by simp) ?_)
    simp only [Registry.orDefault, OpenCall.key, hslot]
    exact getElem?_goOn h.call
  | none =>
    refine Ready.atSlot (c := s.cells.length) (h.step hstep (by simp) ?_)
    simp only [Registry.orDefault, OpenCall.key, hslot]
    exact getElem?_goOn h.call

def Registry.guards (s : Registry) : ℕ := s.readers.length + s.writer.toList.length

/-- The call waits for the lock. -/
@[simp] def OpenPhase.Waits (phase : OpenPhase) : Prop := phase = .reading ∨ phase = .writing

theorem CallAt.exists_call (h : CallAt s.calls n k phase) :
    ∃ server database, s.calls[n]? = some ⟨server, database, phase⟩ := by
  obtain ⟨⟨server, database, phase⟩, hn, -, rfl⟩ := h
  exact ⟨server, database, hn⟩

theorem Ready.call_goOn (h : Ready s n server database phase) (hphase : phase.Waits) {j : ℕ}
    {call : OpenCall} (hj : s.calls[j]? = some call) (hnot : ¬ call.phase.Waits) :
    (s.goOn j call phase').calls[n]? = some ⟨server, database, phase⟩ := by
  refine (Indexed.getElem?_set_of_some hj).trans ?_
  rw [if_neg, h.call]
  rintro rfl
  rw [h.call] at hj
  cases hj
  exact hnot hphase

/-- A section under the lock ends, whatever else is going on. -/
theorem Ready.release (h : Ready s n server database phase) (hphase : phase.Waits)
    (hguards : s.guards ≠ 0) :
    ∃ s', Serves n s s' ∧ Ready s' n server database phase ∧ s'.guards < s.guards := by
  cases hreaders : s.readers with
  | cons j rest =>
    have hmem : j ∈ s.readers := by
      rw [hreaders]
      exact List.mem_cons_self
    obtain ⟨k, hat⟩ := (h.inv.readers j).mp hmem
    obtain ⟨server', database', hj⟩ := hat.exists_call
    have hstep : ∃ phase', s.step (.read j) = some { s.goOn j ⟨server', database', .readHeld⟩ phase' with
        readers := s.readers.erase j } := by
      simp only [Registry.step, hj]
      exact ⟨_, rfl⟩
    obtain ⟨phase', hstep⟩ := hstep
    refine ⟨_, ⟨_, .inr ⟨j, .inl rfl⟩, hstep⟩, ?_, ?_⟩
    · exact h.step hstep (by simp) (h.call_goOn hphase hj (by simp))
    · have hlen := List.length_erase_of_mem hmem
      have hpos := List.length_pos_of_mem hmem
      simp only [Registry.guards, Registry.goOn]
      omega
  | nil =>
    cases hwriter : s.writer with
    | none =>
      rw [Registry.guards, hreaders, hwriter] at hguards
      exact absurd rfl hguards
    | some j =>
      obtain ⟨k, hat⟩ := (h.inv.writer j).mp hwriter
      obtain ⟨server', database', hj⟩ := hat.exists_call
      have hstep : s.step (.insert j) = some (s.orDefault j ⟨server', database', .writeHeld⟩) := by
        simp only [Registry.step, hj]
      refine ⟨_, ⟨_, .inr ⟨j, .inr rfl⟩, hstep⟩, ?_, ?_⟩
      · refine h.step hstep (by simp) ?_
        unfold Registry.orDefault
        split <;> exact h.call_goOn hphase hj (by simp)
      · unfold Registry.orDefault
        split <;> simp [Registry.guards, Registry.goOn, hwriter]

/-- So the lock becomes free. -/
theorem Ready.drain (h : Ready s n server database phase) (hphase : phase.Waits)
    (hfree : ∀ s', Ready s' n server database phase → s'.readers = [] → s'.writer = none →
      CanSucceed s' n k) : CanSucceed s n k := by
  induction hm : s.guards using Nat.strong_induction_on generalizing s with
  | _ m ih =>
    by_cases hguards : s.guards = 0
    · refine hfree s h (List.length_eq_zero_iff.mp ?_) (Option.toList_eq_nil_iff.mp
        (List.length_eq_zero_iff.mp ?_))
      · unfold Registry.guards at hguards
        omega
      · unfold Registry.guards at hguards
        omega
    · obtain ⟨s', hserves, hready, hlt⟩ := h.release hphase hguards
      exact .of_serves hserves (ih _ (hm ▸ hlt) hready rfl)

theorem Ready.writing (h : Ready s n server database .writing) :
    CanSucceed s n (server.name, database.name) := by
  refine h.drain (.inr rfl) fun s h hreaders hwriter => ?_
  have hstep : s.step (.lockWrite n) =
      some { s.goOn n ⟨server, database, .writing⟩ .writeHeld with writer := some n } := by
    simp only [Registry.step, h.call, hwriter, hreaders]
  refine .of_serves ⟨_, .inl rfl, hstep⟩ (Ready.writeHeld ?_)
  exact h.step hstep (by simp) (getElem?_goOn h.call)

theorem Ready.readHeld (h : Ready s n server database .readHeld) :
    CanSucceed s n (server.name, database.name) := by
  cases hslot : s.slots.get (server.name, database.name) with
  | some slot =>
    have hstep : s.step (.read n) = some { s.goOn n ⟨server, database, .readHeld⟩ (.atSlot slot.cell)
        with readers := s.readers.erase n } := by
      simp only [Registry.step, h.call, OpenCall.key, hslot]
    refine .of_serves ⟨_, .inl rfl, hstep⟩ (Ready.atSlot (c := slot.cell) ?_)
    exact h.step hstep (by simp) (getElem?_goOn h.call)
  | none =>
    have hstep : s.step (.read n) = some { s.goOn n ⟨server, database, .readHeld⟩ .writing
        with readers := s.readers.erase n } := by
      simp only [Registry.step, h.call, OpenCall.key, hslot]
    refine .of_serves ⟨_, .inl rfl, hstep⟩ (Ready.writing ?_)
    exact h.step hstep (by simp) (getElem?_goOn h.call)

theorem Ready.reading (h : Ready s n server database .reading) :
    CanSucceed s n (server.name, database.name) := by
  refine h.drain (.inl rfl) fun s h hreaders hwriter => ?_
  have hstep : s.step (.lockRead n) =
      some { s.goOn n ⟨server, database, .reading⟩ .readHeld with readers := n :: s.readers } := by
    simp only [Registry.step, h.call, hwriter]
  refine .of_serves ⟨_, .inl rfl, hstep⟩ (Ready.readHeld ?_)
  exact h.step hstep (by simp) (getElem?_goOn h.call)

/-- The call has not ended. -/
def OpenPhase.Live : OpenPhase → Prop
  | .returned _ => False
  | .dropped => False
  | _ => True

/-- Every call that has not ended can succeed, if no call of its key opens. -/
theorem Ready.canSucceed (h : Ready s n server database phase) (hlive : phase.Live) :
    CanSucceed s n (server.name, database.name) := by
  cases phase with
  | reading => exact h.reading
  | readHeld => exact h.readHeld
  | writing => exact h.writing
  | writeHeld => exact h.writeHeld
  | atSlot c => exact h.atSlot
  | opening c => exact absurd h.callAt (h.noOpener n c)
  | returned result | dropped => exact hlive.elim

end

/-! ## Waiting -/

/-- The second call may have to wait for a step of the first: for its guard, behind it for the
    lock, for its initializer, or behind it for their cell. -/
inductive Blocks (s : Registry) (j i : ℕ) : Prop
  | writer {k phase} (hi : CallAt s.calls i k phase) (hwaits : phase.Waits) (hj : s.writer = some j)
  | reader {k} (hi : CallAt s.calls i k .writing) (hj : j ∈ s.readers)
  | queue {k k' phase phase'} (hi : CallAt s.calls i k phase)
      (hwaits : phase.Waits) (hj : CallAt s.calls j k' phase') (hwaits' : phase'.Waits)
  | init {k k' c} (hi : CallAt s.calls i k (.atSlot c)) (hj : CallAt s.calls j k' (.opening c))
  | cell {k k' c} (hi : CallAt s.calls i k (.atSlot c)) (hj : CallAt s.calls j k' (.atSlot c))

/-- A call that a chain of waiting calls leads to, if it opens, has the key of the call that
    waits. -/
def BlockedByKey (s : Registry) (i : ℕ) (k : AdapterKey) : Prop :=
  ∀ j k' c, Relation.TransGen (Blocks s) j i → CallAt s.calls j k' (.opening c) → k' = k

/-- The call has to do with the lock, not with a cell. -/
def OpenPhase.Locking (phase : OpenPhase) : Prop :=
  phase.Waits ∨ phase = .readHeld ∨ phase = .writeHeld

section

variable {s s' : Registry} {i j c : ℕ} {k k' : AdapterKey} {phase phase' : OpenPhase}

theorem Blocks.locking (hinv : RegistryInv s) (h : Blocks s j i) (hi : CallAt s.calls i k phase)
    (hphase : phase.Locking) : ∃ k' phase', CallAt s.calls j k' phase' ∧ phase'.Locking := by
  cases h with
  | writer _ _ hj =>
    obtain ⟨k', hj⟩ := (hinv.writer j).mp hj
    exact ⟨k', _, hj, .inr (.inr rfl)⟩
  | reader _ hj =>
    obtain ⟨k', hj⟩ := (hinv.readers j).mp hj
    exact ⟨k', _, hj, .inr (.inl rfl)⟩
  | queue _ _ hj hwaits => exact ⟨_, _, hj, .inl hwaits⟩
  | init hi' | cell hi' =>
    rw [(hi.unique hi').2] at hphase
    simp [OpenPhase.Locking] at hphase

theorem Blocks.atCell (h : Blocks s j i) (hi : CallAt s.calls i k (.atSlot c)) :
    ∃ k', CallAt s.calls j k' (.atSlot c) ∨ CallAt s.calls j k' (.opening c) := by
  cases h with
  | writer hi' hwaits | queue hi' hwaits =>
    rw [← (hi.unique hi').2] at hwaits
    simp at hwaits
  | reader hi' => cases (hi.unique hi').2
  | init hi' hj =>
    cases (hi.unique hi').2
    exact ⟨_, .inr hj⟩
  | cell hi' hj =>
    cases (hi.unique hi').2
    exact ⟨_, .inl hj⟩

theorem not_blocks_opening (hi : CallAt s.calls i k (.opening c)) : ¬ Blocks s j i := by
  intro h
  cases h with
  | writer hi' hwaits | queue hi' hwaits =>
    rw [← (hi.unique hi').2] at hwaits
    simp at hwaits
  | reader hi' | init hi' | cell hi' => cases (hi.unique hi').2

/-- The calls that a call at its cell waits for, directly or not, are at that cell; those that
    a call waits for at the lock are at the lock. -/
theorem transGen_blocks (hinv : RegistryInv s) (h : Relation.TransGen (Blocks s) j i) :
    (∀ k phase, CallAt s.calls i k phase → phase.Locking →
      ∃ k' phase', CallAt s.calls j k' phase' ∧ phase'.Locking) ∧
    (∀ k c, CallAt s.calls i k (.atSlot c) →
      ∃ k', CallAt s.calls j k' (.atSlot c) ∨ CallAt s.calls j k' (.opening c)) := by
  induction h using Relation.TransGen.head_induction_on with
  | single h =>
    exact ⟨fun k phase hi hphase => h.locking hinv hi hphase, fun k c hi => h.atCell hi⟩
  | head h _ ih =>
    refine ⟨fun k phase hi hphase => ?_, fun k c hi => ?_⟩
    · obtain ⟨k', phase', hj, hphase'⟩ := ih.1 k phase hi hphase
      exact h.locking hinv hj hphase'
    · obtain ⟨k', hj | hj⟩ := ih.2 k c hi
      · exact h.atCell hj
      · exact absurd h (not_blocks_opening hj)

theorem blockedByKey (hinv : RegistryInv s) (hi : CallAt s.calls i k phase) :
    BlockedByKey s i k := by
  intro j k' c hblocks hj
  obtain ⟨hlocking, hcell⟩ := transGen_blocks hinv hblocks
  have hnot : ¬ phase.Locking := by
    intro hphase
    obtain ⟨k₁, phase₁, hj₁, hphase₁⟩ := hlocking _ _ hi hphase
    rw [← (hj.unique hj₁).2] at hphase₁
    simp [OpenPhase.Locking] at hphase₁
  -- The last link of the chain says that the call waits, so it is at a cell.
  obtain ⟨m, hlast⟩ : ∃ m, Blocks s m i := by
    cases hblocks with
    | single h | tail _ h => exact ⟨_, h⟩
  have hat : ∃ c, phase = .atSlot c := by
    cases hlast with
    | writer hi' hwaits | queue hi' hwaits =>
      rw [← (hi.unique hi').2] at hwaits
      exact absurd (.inl hwaits) hnot
    | reader hi' =>
      rw [(hi.unique hi').2] at hnot
      exact absurd (.inl (.inr rfl)) hnot
    | init hi' | cell hi' => exact ⟨_, (hi.unique hi').2⟩
  obtain ⟨c', rfl⟩ := hat
  obtain ⟨k₁, hj₁ | hj₁⟩ := hcell _ _ hi
  · cases (hj.unique hj₁).2
  · cases (hj.unique hj₁).2
    have hkey := hinv.apart _ (Table.mem_of_get (hinv.uses _ _ _ (.inr hj))) _
      (Table.mem_of_get (hinv.uses _ _ _ (.inl hi))) rfl
    exact (Slot.mk.inj hkey).1

end

/-! ## The result -/

structure SingleFlight (s : Registry) : Prop where
  /-- No other adapter is ever published under a key. -/
  stable : ∀ as s' k adapter, run Registry.step s as = some s' →
    s.published k = some adapter → s'.published k = some adapter
  shared : ∀ i k adapter, CallAt s.calls i k (.returned (.ok adapter)) →
    s.published k = some adapter
  apart : ∀ k k' adapter, s.published k = some adapter → s.published k' = some adapter → k = k'
  /-- A failed attempt publishes nothing, and a later call of the key can succeed. -/
  failed : ∀ a s' i c server database,
    CallAt s.calls i (server.name, database.name) (.opening c) → s.step a = some s' →
    Failed s' i (server.name, database.name) →
    (∀ k, s'.published k = s.published k) ∧
    (server.kind.hasAdapter = true → ∃ s'', s'.step (.call server database) = some s'' ∧
      CanSucceed s'' s'.calls.length (server.name, database.name))
  unlocked : ∀ i k c, CallAt s.calls i k (.opening c) → i ∉ s.readers ∧ s.writer ≠ some i
  /-- It blocks calls of its key only. -/
  blocked : ∀ i k phase, CallAt s.calls i k phase → BlockedByKey s i k
  /-- A call can succeed without a step of any call that opens another key. -/
  served : ∀ i server database phase, s.calls[i]? = some ⟨server, database, phase⟩ →
    phase.Live → server.kind.hasAdapter = true → NoOpener s (server.name, database.name) →
    CanSucceed s i (server.name, database.name)

section

variable {s s' : Registry} {as : List RegistryAct}

theorem published_run (h : RegistryInv s) (hrun : run Registry.step s as = some s')
    {k} {adapter : ℕ} (hk : s.published k = some adapter) :
    s'.published k = some adapter :=
  (run_invariant (P := fun s => RegistryInv s ∧ s.published k = some adapter)
    (fun _ _ _ h _ hstep =>
      ⟨h.1.step (registry_moves hstep), published_mono h.1 (registry_moves hstep) h.2⟩)
    (meets_true _ _) hrun ⟨h, hk⟩).2

theorem published_apart (h : RegistryInv s) {k k'} {adapter : ℕ}
    (hk : s.published k = some adapter) (hk' : s.published k' = some adapter) : k = k' := by
  obtain ⟨slot, busy, hslot, hcell⟩ := published_eq_some.mp hk
  obtain ⟨slot', busy', hslot', hcell'⟩ := published_eq_some.mp hk'
  obtain ⟨hmem, rfl⟩ := Table.get_eq_some.mp hslot
  obtain ⟨hmem', rfl⟩ := Table.get_eq_some.mp hslot'
  have htarget := h.target slot hmem _ _ hcell
  rw [h.target slot' hmem' _ _ hcell'] at htarget
  exact (Option.some.inj htarget).symm

theorem unlocked_of_opening (h : RegistryInv s) {i c : ℕ} {k}
    (hi : CallAt s.calls i k (.opening c)) : i ∉ s.readers ∧ s.writer ≠ some i := by
  constructor
  · intro hmem
    obtain ⟨k', hi'⟩ := (h.readers i).mp hmem
    cases (hi.unique hi').2
  · intro hwriter
    obtain ⟨k', hi'⟩ := (h.writer i).mp hwriter
    cases (hi.unique hi').2

/-- Whatever the calls, their opens and their interleaving: one adapter per key, shared by its
    callers, and an open that fails, is dropped or hangs concerns the callers of its key only. -/
theorem single_flight (hrun : run Registry.step .new as = some s) : SingleFlight s := by
  have hinv := registryInv_run registryInv_new hrun
  refine ⟨?_, hinv.returned, ?_, ?_, ?_, ?_, ?_⟩
  · intro as s' k adapter hrun' hk
    exact published_run hinv hrun' hk
  · intro k k' adapter hk hk'
    exact published_apart hinv hk hk'
  · intro a s' i c server database hi hstep hfailed
    have hmoves := registry_moves hstep
    refine ⟨hfailed.published_eq hinv hmoves hi, fun hkind => ⟨_, rfl, ?_⟩⟩
    have hinv' := hinv.step hmoves
    have hcall : RegistryMoves s' (.call server database) _ := .call
    refine Ready.reading ⟨hinv'.step hcall, hkind, ?_,
      noOpener_step hcall (by simp) (hfailed.noOpener hinv hmoves hi)⟩
    exact Indexed.getElem?_concat.trans (if_pos rfl)
  · intro i k c hi
    exact unlocked_of_opening hinv hi
  · intro i k phase hi
    exact blockedByKey hinv hi
  · intro i server database phase hi hlive hkind hno
    exact Ready.canSucceed ⟨hinv, hkind, hi, hno⟩ hlive

end

def ordersServer : Server := { name := "main", kind := .postgres }

def ordersTarget : Database := { name := "orders", role := "gateway_ro" }

def usersTarget : Database := { name := "users", role := "gateway_ro" }

/-- The steps of a call up to its cell, if there is no slot. -/
def creates (i : ℕ) : List RegistryAct := [.lockRead i, .read i, .lockWrite i, .insert i]

/-- The open of `users` hangs; the first open of `orders` fails and the next succeeds. -/
def hangingOpen : List RegistryAct :=
  [.call ordersServer usersTarget, .call ordersServer ordersTarget,
    .call ordersServer ordersTarget] ++ creates 0 ++ [.enter 0] ++ creates 1 ++
    [.enter 1, .lockRead 2, .read 2, .opened 1 (.error .connection), .enter 2, .opened 2 (.ok ())]

theorem single_flight_hanging :
    ∃ s, run Registry.step .new hangingOpen = some s ∧
      s.published ("main", "orders") = some 0 ∧ s.published ("main", "users") = none ∧
      SingleFlight s := by
  have hpublished : (run Registry.step .new hangingOpen).map
      (fun s => (s.published ("main", "orders"), s.published ("main", "users"))) =
        some (some 0, none) := by
    decide +kernel
  obtain ⟨s, hrun, hs⟩ := Option.map_eq_some_iff.mp hpublished
  exact ⟨s, hrun, (Prod.ext_iff.mp hs).1, (Prod.ext_iff.mp hs).2, single_flight hrun⟩

end DbMcpGateway.Exec

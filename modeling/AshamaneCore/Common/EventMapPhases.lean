import AshamaneCore.Common.EventMap

/-!
# Phases and the order of execution

The phase bit is lost like the group bit, so no event is ever passed over for
its phase, and an event of an inactive phase is executed as soon as it is first
in line. The order of execution is that of due times and, among equal ones, of
insertion.
-/

namespace AshamaneCore.EventMapPhases

open EventMap Library.OrderedQueue Library.Transition

abbrev Precedes (a b : Entry) : Prop := Before Entry.key (fun x y => x.stamp < y.stamp) a b

/-- The phase is allowed by the mask: no mask at all, no phase, or its bit is set. -/
def Active (mask phase : UInt16) : Prop :=
  mask ≠ 0 → 1 ≤ phase → phase ≤ 15 → mask &&& 1 <<< (phase - 1) ≠ 0

instance (mask phase : UInt16) : Decidable (Active mask phase) :=
  inferInstanceAs (Decidable (_ → _ → _ → _))

structure ExecuteLaw (s : EventMap) : Prop where
  active : ∀ e, s.executed = some e → Active s.phase e.phase
  skipped : ∃ skipped, s.eventMap = skipped ++ s.executed.toList ++ s.executeEvent.2.eventMap ∧
    ∀ e ∈ skipped, e.phase ≠ 0
  due : ∀ e, s.executed = some e → e.time ≤ s.time
  first : ∀ e, s.executed = some e → ∀ later ∈ s.executeEvent.2.eventMap, Precedes e later

/-- The event that is first in line is of an active phase if it is due. -/
def PhaseActive (s : EventMap) : Operation → Prop
  | .executeEvent => ∀ e ∈ s.eventMap.head?, e.time ≤ s.time → Active s.phase e.phase
  | _ => True

def Uncarried (s : EventMap) : Operation → Prop
  | .scheduleNextEvent _ => s.lastEvent ≠ 0x0000FFFFFFFFFFFF
  | _ => True

instance (s : EventMap) (operation : Operation) : Decidable (PhaseActive s operation) := by
  cases operation <;> dsimp only [PhaseActive] <;> infer_instance

instance (s : EventMap) (operation : Operation) : Decidable (Uncarried s operation) := by
  cases operation <;> dsimp only [Uncarried] <;> infer_instance

/-! ## Due times and insertion -/

structure Queued (s : EventMap) : Prop where
  ordered : s.eventMap.Pairwise Precedes
  stamped : ∀ e ∈ s.eventMap, e.stamp < s.nextStamp

variable {s : EventMap}

theorem Queued.insert (h : Queued s) (time : UInt32) (data : UInt64)
    (group phase : UInt16) : Queued (s.insert time data group phase) := by
  constructor
  · apply insertUpper_before h.ordered
    exact fun e he _ => h.stamped e he
  · intro e he
    rcases mem_insertUpper.mp he with rfl | he
    · exact Nat.lt_succ_self _
    · exact Nat.lt_succ_of_lt (h.stamped e he)

theorem Queued.sublist {t : EventMap} (h : Queued s) (hMap : t.eventMap.Sublist s.eventMap)
    (hStamp : t.nextStamp = s.nextStamp) : Queued t := by
  refine ⟨h.ordered.sublist hMap, ?_⟩
  intro e he
  rw [hStamp]
  exact h.stamped e (hMap.subset he)

theorem Queued.delayEventsGroup (h : Queued s) (delay : UInt32) (group : UInt16) :
    Queued (s.delayEventsGroup delay group) := by
  rw [EventMap.delayEventsGroup]
  split
  · exact h
  · dsimp only
    generalize hHit : s.eventMap.filter (inGroup group) = hit
    let moved := hit.mapIdx fun i e => { e with time := e.time + delay, stamp := s.nextStamp + i }
    have hFresh : ∀ e ∈ moved, s.nextStamp ≤ e.stamp ∧ e.stamp < s.nextStamp + hit.length := by
      intro e he
      obtain ⟨i, hi, rfl⟩ := List.mem_mapIdx.mp he
      exact ⟨Nat.le_add_right _ _, Nat.add_lt_add_left hi _⟩
    have hMoved : moved.Pairwise fun a b => a.key = b.key → a.stamp < b.stamp := by
      rw [List.pairwise_iff_getElem]
      intro i j hi hj hLess _
      simp only [moved, List.getElem_mapIdx]
      omega
    have hDelayed : (insertAll Entry.key [] moved).Pairwise Precedes :=
      insertAll_before List.Pairwise.nil hMoved fun _ ha => (List.not_mem_nil ha).elim
    have hMem : ∀ e ∈ insertAll Entry.key [] moved, e ∈ moved := by
      intro e he
      rcases mem_insertAll.mp he with he | he
      · exact (List.not_mem_nil he).elim
      · exact he
    constructor
    · apply insertAll_before (h.ordered.sublist List.filter_sublist)
      · refine hDelayed.imp ?_
        rintro a b (hLess | ⟨-, hStamp⟩) hEq
        · exact absurd hEq hLess.ne
        · exact hStamp
      · intro a ha b hb _
        have hOld := h.stamped a (List.mem_of_mem_filter ha)
        have hNew := hFresh b (hMem b hb)
        omega
    · intro e he
      rcases mem_insertAll.mp he with he | he
      · exact Nat.lt_of_lt_of_le (h.stamped e (List.mem_of_mem_filter he)) (Nat.le_add_right _ _)
      · exact (hFresh e (hMem e he)).2

theorem step_queued (s : EventMap) (operation : Operation) (h : Queued s) :
    Queued (step s operation) := by
  cases operation with
  | reset => exact ⟨List.Pairwise.nil, fun _ he => (List.not_mem_nil he).elim⟩
  | update | delayEvents => exact h.sublist (List.Sublist.refl _) rfl
  | setPhase phase =>
    simp only [step, setPhase]
    split
    · exact h.sublist (List.Sublist.refl _) rfl
    · split <;> exact h.sublist (List.Sublist.refl _) rfl
  | addPhase phase =>
    simp only [step, addPhase]
    split <;> exact h.sublist (List.Sublist.refl _) rfl
  | removePhase phase =>
    simp only [step, removePhase]
    split <;> exact h.sublist (List.Sublist.refl _) rfl
  | scheduleEvent eventId time group phase =>
    rw [step, scheduleEvent_eq]
    exact h.insert _ _ _ _
  | rescheduleEvent eventId time group phase =>
    have hCancel : Queued (s.cancelEvent eventId) := h.sublist List.filter_sublist rfl
    rw [step, rescheduleEvent, scheduleEvent_eq]
    exact hCancel.insert _ _ _ _
  | scheduleNextEvent time => exact h.insert _ _ _ _
  | repeatEvent time => exact h.insert _ _ _ _
  | executeEvent => exact h.sublist s.executeEvent_sublist s.executeEvent_nextStamp
  | delayEventsGroup delay group => exact h.delayEventsGroup delay group
  | cancelEvent eventId => exact h.sublist List.filter_sublist rfl
  | cancelEventGroup group =>
    simp only [step, cancelEventGroup]
    split
    · exact h
    · exact h.sublist List.filter_sublist rfl

theorem fresh_queued : Queued fresh := ⟨List.Pairwise.nil, fun _ he => (List.not_mem_nil he).elim⟩

variable {e : Entry}

theorem due_of_executed (h : s.executed = some e) : e.time ≤ s.time := by
  rw [executed] at h
  generalize s.eventMap = entries at h
  induction entries with
  | nil => cases h
  | cons x rest ih =>
    rw [executeFrom] at h
    split at h
    · cases h
    · rename_i hDue
      split at h
      · exact ih h
      · obtain rfl := Option.some.inj h
        exact UInt32.not_lt.mp hDue

theorem first_of_executed (hQueued : Queued s)
    (h : s.executed = some e) : ∀ later ∈ s.executeEvent.2.eventMap, Precedes e later := by
  obtain ⟨skipped, hSplit, -⟩ := executeFrom_split s.time s.phase s.eventMap
  have hOrdered := hQueued.ordered
  rw [hSplit, ← executeEvent_eventMap, show (executeFrom s.time s.phase s.eventMap).1 = some e from h,
    List.append_assoc] at hOrdered
  have hTail := (List.pairwise_append.mp hOrdered).2.1
  exact (List.pairwise_cons.mp hTail).1

/-! ## Words without phase bits -/

def Unphased (data : UInt64) (_group _phase : UInt16) : Prop := data.toNat < 2 ^ 48

theorem and_phase_mask {data : UInt64} (h : data.toNat < 2 ^ 48) :
    data &&& 0xFFFF000000000000 = 0 := by
  apply UInt64.toNat_inj.mp
  have hMask : (0xFFFF000000000000 : UInt64).toNat = 0xFFFF <<< 48 := rfl
  rw [UInt64.toNat_and, hMask, UInt64.toNat_zero]
  apply Nat.eq_of_testBit_eq
  intro i
  rw [Nat.testBit_and, Nat.testBit_shiftLeft, Nat.zero_testBit]
  rcases Nat.lt_or_ge i 48 with hLow | hHigh
  · rw [decide_eq_false (Nat.not_le.mpr hLow), Bool.false_and, Bool.and_false]
  · have hBound : data.toNat < 2 ^ i := Nat.lt_of_lt_of_le h (Nat.pow_le_pow_right (by decide) hHigh)
    rw [Nat.testBit_lt_two_pow hBound, Bool.false_and]

theorem uncarried_unphased (s : EventMap) (operation : Operation) (h : Words Unphased s)
    (hStep : Uncarried s operation) : Words Unphased (step s operation) := by
  apply h.step
  cases operation with
  | scheduleEvent eventId time group phase | rescheduleEvent eventId time group phase =>
    have hBound := eventId.toNat_lt
    simp only [Admits, Unphased, UInt32.toNat_toUInt64]
    omega
  | scheduleNextEvent time =>
    have hLast : s.lastEvent.toNat < 2 ^ 48 := h.last
    have hCarry : s.lastEvent.toNat ≠ 0x0000FFFFFFFFFFFF :=
      fun hEq => hStep (UInt64.toNat_inj.mp hEq)
    change (s.lastEvent + 1).toNat < 2 ^ 48
    rw [UInt64.toNat_add, UInt64.toNat_one]
    omega
  | _ => trivial

theorem executed_eq (h : Words Unphased s) :
    s.executed = s.eventMap.head?.filter fun e => e.time ≤ s.time := by
  cases hMap : s.eventMap with
  | nil => rw [executed, hMap]; rfl
  | cons e rest =>
    have hWord : e.data &&& 0xFFFF000000000000 = 0 := and_phase_mask (h.all e (by simp [hMap]))
    rw [executed, hMap, executeFrom]
    split
    · rename_i hLate
      simp [Option.filter, UInt32.not_le.mpr hLate]
    · rename_i hDue
      rw [if_neg (by rintro ⟨-, hBits, -⟩; exact hBits hWord)]
      simp [Option.filter, UInt32.not_lt.mp hDue]

theorem executeLaw_iff (hQueued : Queued s) (h : Words Unphased s) :
    ExecuteLaw s ↔ PhaseActive s .executeEvent := by
  have hExecuted := executed_eq h
  constructor
  · intro hLaw e hHead hDue
    apply hLaw.active e
    rw [hExecuted, show s.eventMap.head? = some e from hHead]
    simp [Option.filter, hDue]
  · intro hActive
    refine ⟨?_, ?_, fun _ => due_of_executed, fun _ => first_of_executed hQueued⟩
    · intro e hSome
      rw [hExecuted, Option.filter_eq_some_iff] at hSome
      exact hActive e hSome.1 (by simpa using hSome.2)
    · obtain ⟨skipped, hSplit, hPhased⟩ := executeFrom_split s.time s.phase s.eventMap
      refine ⟨skipped, by rw [executeEvent_eventMap]; exact hSplit, ?_⟩
      intro e he
      have hMem : e ∈ s.eventMap := by
        rw [hSplit]
        simp [he]
      exact absurd (and_phase_mask (h.all e hMem)) (hPhased e he)

theorem fresh_unphased : Words Unphased fresh :=
  ⟨Nat.two_pow_pos 48, fun _ he => (List.not_mem_nil he).elim⟩

/-! ## The events of a whole run -/

/-- The entries that the calls of ExecuteEvent in a run return, in their order. -/
def returns (s : EventMap) : List Operation → List Entry
  | [] => []
  | operation :: operations =>
    (if operation = .executeEvent then s.executed.toList else []) ++
      returns (step s operation) operations

/-- The timer does not go back and no sum of times wraps around. -/
def Forward (s : EventMap) : Operation → Prop
  | .reset => s.time = 0
  | .update time => s.time.toNat + time.toNat < 2 ^ 32
  | .scheduleEvent _ time _ _ => s.time.toNat + time.toNat < 2 ^ 32
  | .rescheduleEvent _ time _ _ => s.time.toNat + time.toNat < 2 ^ 32
  | .scheduleNextEvent time => s.time.toNat + time.toNat < 2 ^ 32
  | .repeatEvent time => s.time.toNat + time.toNat < 2 ^ 32
  | .delayEvents delay => delay = 0 ∨ s.time = 0
  | .delayEventsGroup delay _ => ∀ e ∈ s.eventMap, e.time.toNat + delay.toNat < 2 ^ 32
  | _ => True

instance (s : EventMap) (operation : Operation) : Decidable (Forward s operation) := by
  cases operation <;> dsimp only [Forward] <;> infer_instance

/-- An entry returned earlier precedes everything that is or will be in the map. -/
structure Passed (s : EventMap) (e : Entry) : Prop where
  reached : e.time ≤ s.time
  stamped : e.stamp < s.nextStamp
  before : ∀ later ∈ s.eventMap, Precedes e later

theorem precedes_of_le {a b : Entry} (hTime : a.key ≤ b.key) (hStamp : a.stamp < b.stamp) :
    Precedes a b := by
  rcases hTime.lt_or_eq with hLess | hEq
  · exact Or.inl hLess
  · exact Or.inr ⟨hEq, hStamp⟩

theorem Passed.sublist {t : EventMap} (h : Passed s e) (hTime : s.time ≤ t.time)
    (hStamp : t.nextStamp = s.nextStamp) (hMap : t.eventMap.Sublist s.eventMap) : Passed t e :=
  ⟨UInt32.le_trans h.reached hTime, hStamp ▸ h.stamped,
    fun later hLater => h.before later (hMap.subset hLater)⟩

theorem Passed.insert (h : Passed s e) {time : UInt32}
    (hForward : s.time.toNat + time.toNat < 2 ^ 32) (data : UInt64) (group phase : UInt16) :
    Passed (s.insert (s.time + time) data group phase) e := by
  refine ⟨h.reached, Nat.lt_succ_of_lt h.stamped, ?_⟩
  intro later hLater
  rcases mem_insertUpper.mp hLater with rfl | hLater
  · apply precedes_of_le _ h.stamped
    have hReached : e.time.toNat ≤ s.time.toNat := UInt32.le_iff_toNat_le.mp h.reached
    simp only [Entry.key, UInt32.toNat_add, Nat.mod_eq_of_lt hForward]
    omega
  · exact h.before later hLater

theorem Passed.delayEventsGroup (h : Passed s e) {delay : UInt32}
    (hForward : ∀ x ∈ s.eventMap, x.time.toNat + delay.toNat < 2 ^ 32) (group : UInt16) :
    Passed (s.delayEventsGroup delay group) e := by
  rw [EventMap.delayEventsGroup]
  split
  · exact h
  · refine ⟨h.reached, Nat.lt_of_lt_of_le h.stamped (Nat.le_add_right _ _), ?_⟩
    intro later hLater
    rcases mem_insertAll.mp hLater with hLater | hLater
    · exact h.before later (List.mem_of_mem_filter hLater)
    · rcases mem_insertAll.mp hLater with hLater | hLater
      · exact (List.not_mem_nil hLater).elim
      · obtain ⟨i, hi, rfl⟩ := List.mem_mapIdx.mp hLater
        have hOld := List.mem_of_mem_filter (List.getElem_mem hi)
        apply precedes_of_le
        · refine (h.before _ hOld).key_le.trans ?_
          simp only [Entry.key, UInt32.toNat_add, Nat.mod_eq_of_lt (hForward _ hOld)]
          exact Nat.le_add_right _ _
        · exact Nat.lt_of_lt_of_le h.stamped (Nat.le_add_right _ _)

theorem Passed.step {s : EventMap} {e : Entry} (h : Passed s e) {operation : Operation}
    (hForward : Forward s operation) : Passed (step s operation) e := by
  have hSame := List.Sublist.refl s.eventMap
  cases operation with
  | reset =>
    refine ⟨?_, h.stamped, fun _ hLater => (List.not_mem_nil hLater).elim⟩
    have hReached := h.reached
    rw [show s.time = 0 from hForward] at hReached
    exact hReached
  | update time =>
    refine h.sublist ?_ rfl hSame
    apply UInt32.le_iff_toNat_le.mpr
    simp only [EventMap.step, EventMap.update, UInt32.toNat_add, Nat.mod_eq_of_lt hForward]
    exact Nat.le_add_right _ _
  | setPhase phase =>
    simp only [EventMap.step, setPhase]
    split
    · exact h.sublist (UInt32.le_refl _) rfl hSame
    · split <;> exact h.sublist (UInt32.le_refl _) rfl hSame
  | addPhase phase =>
    simp only [EventMap.step, addPhase]
    split <;> exact h.sublist (UInt32.le_refl _) rfl hSame
  | removePhase phase =>
    simp only [EventMap.step, removePhase]
    split <;> exact h.sublist (UInt32.le_refl _) rfl hSame
  | scheduleEvent eventId time group phase =>
    rw [EventMap.step, scheduleEvent_eq]
    exact h.insert hForward _ _ _
  | rescheduleEvent eventId time group phase =>
    have hCancel : Passed (s.cancelEvent eventId) e :=
      h.sublist (UInt32.le_refl _) rfl List.filter_sublist
    rw [EventMap.step, rescheduleEvent, scheduleEvent_eq]
    exact hCancel.insert hForward _ _ _
  | scheduleNextEvent time => exact h.insert hForward _ _ _
  | repeatEvent time => exact h.insert hForward _ _ _
  | executeEvent =>
    apply h.sublist _ s.executeEvent_nextStamp s.executeEvent_sublist
    exact UInt32.le_of_eq s.executeEvent_time.symm
  | delayEvents delay =>
    refine h.sublist ?_ rfl hSame
    simp only [EventMap.step, delayEvents]
    rcases hForward with rfl | hZero
    · split
      · simp
      · rename_i hStopped
        exact UInt32.not_lt.mp hStopped
    · rw [hZero]
      split
      · rename_i hLess
        exact absurd hLess UInt32.not_lt_zero
      · exact UInt32.le_refl _
  | delayEventsGroup delay group => exact h.delayEventsGroup hForward group
  | cancelEvent eventId => exact h.sublist (UInt32.le_refl _) rfl List.filter_sublist
  | cancelEventGroup group =>
    simp only [EventMap.step, cancelEventGroup]
    split
    · exact h
    · exact h.sublist (UInt32.le_refl _) rfl List.filter_sublist

theorem passed_of_executed (hQueued : Queued s)
    (h : s.executed = some e) : Passed s.executeEvent.2 e := by
  have hMem : e ∈ s.eventMap := by
    obtain ⟨skipped, hSplit, -⟩ := executeFrom_split s.time s.phase s.eventMap
    rw [hSplit, show (executeFrom s.time s.phase s.eventMap).1 = some e from h]
    simp
  refine ⟨?_, ?_, first_of_executed hQueued h⟩
  · rw [executeEvent_time]
    exact due_of_executed h
  · rw [executeEvent_nextStamp]
    exact hQueued.stamped e hMem

theorem returns_precede (operations : List Operation) :
    ∀ (s : EventMap) (past : List Entry), Queued s → past.Pairwise Precedes →
      (∀ e ∈ past, Passed s e) → Along step Forward s operations →
      (past ++ returns s operations).Pairwise Precedes := by
  induction operations with
  | nil =>
    intro s past _ hPast _ _
    rw [returns, List.append_nil]
    exact hPast
  | cons operation operations ih =>
    rintro s past hQueued hPast hPassed ⟨hFirst, hRest⟩
    rw [returns, ← List.append_assoc]
    by_cases hExecute : operation = .executeEvent
    · subst hExecute
      rw [if_pos rfl]
      cases hExecuted : s.executed with
      | none =>
        rw [Option.toList_none, List.append_nil]
        exact ih _ _ (step_queued s _ hQueued) hPast (fun e he => (hPassed e he).step hFirst) hRest
      | some last =>
        have hLast : Passed s.executeEvent.2 last := passed_of_executed hQueued hExecuted
        have hMem : last ∈ s.eventMap := by
          rw [executed] at hExecuted
          obtain ⟨skipped, hSplit, -⟩ := executeFrom_split s.time s.phase s.eventMap
          rw [hSplit, hExecuted]
          simp
        apply ih _ _ (step_queued s _ hQueued) _ _ hRest
        · apply List.pairwise_append.mpr
          refine ⟨hPast, List.pairwise_singleton _ _, ?_⟩
          intro e he x hx
          rw [List.mem_singleton.mp hx]
          exact (hPassed e he).before last hMem
        · intro e he
          rcases List.mem_append.mp he with he | he
          · exact (hPassed e he).step hFirst
          · rw [List.mem_singleton.mp he]
            exact hLast
    · rw [if_neg hExecute, List.append_nil]
      exact ih _ _ (step_queued s _ hQueued) hPast (fun e he => (hPassed e he).step hFirst) hRest

/-- Apart from carries into the phase bits, the calls of ExecuteEvent in a run are lawful
exactly if each finds an event of an active phase first in line; and while the timer only
moves forward, due times come out in order, and equal ones in order of insertion. -/
theorem executes_lawfully (operations : List Operation) (h : Along step Uncarried fresh operations) :
    ((∀ first, first ++ [.executeEvent] <+: operations → ExecuteLaw (run step fresh first)) ↔
      Along step PhaseActive fresh operations) ∧
    (Along step Forward fresh operations → (returns fresh operations).Pairwise Precedes) := by
  have hReached : ∀ first, first <+: operations →
      Queued (run step fresh first) ∧ Words Unphased (run step fresh first) := by
    intro first hPrefix
    exact ⟨invariant step_queued fresh_queued first,
      invariant_along uncarried_unphased fresh_unphased (h.of_prefix hPrefix)⟩
  have hBefore : ∀ {first : List Operation} {operation : Operation},
      first ++ [operation] <+: operations → first <+: operations :=
    fun hPrefix => (List.prefix_append _ _).trans hPrefix
  constructor
  · rw [along_iff_forall]
    constructor
    · intro hLaws first operation hPrefix
      obtain ⟨hQueued, hWords⟩ := hReached first (hBefore hPrefix)
      cases operation with
      | executeEvent => exact (executeLaw_iff hQueued hWords).mp (hLaws first hPrefix)
      | _ => trivial
    · intro hActive first hPrefix
      obtain ⟨hQueued, hWords⟩ := hReached first (hBefore hPrefix)
      exact (executeLaw_iff hQueued hWords).mpr (hActive first _ hPrefix)
  · intro hForward
    exact returns_precede operations fresh [] fresh_queued List.Pairwise.nil
      (fun _ he => (List.not_mem_nil he).elim) hForward

/-- A phase that is active, an event of it and one without a phase. -/
theorem executes_lawfully_active :
    let operations : List Operation :=
      [.setPhase 2, .scheduleEvent 7 0 0 2, .scheduleEvent 8 0 0 0, .executeEvent, .executeEvent]
    (∀ first, first ++ [.executeEvent] <+: operations → ExecuteLaw (run step fresh first)) ∧
      (returns fresh operations).Pairwise Precedes := by
  intro operations
  obtain ⟨hLaws, hOrder⟩ := executes_lawfully operations (by decide)
  exact ⟨hLaws.mpr (by decide), hOrder (by decide)⟩

/-- With only phase 1 active, the event scheduled with phase 2 is executed. -/
theorem executes_lawfully_fails :
    ¬ ∀ operations first : List Operation, first ++ [.executeEvent] <+: operations →
      ExecuteLaw (run step fresh first) := by
  intro h
  have hLaw := h _ [.setPhase 1, .scheduleEvent 7 0 0 2] List.prefix_rfl
  have hActive := hLaw.active ⟨0, 7, 0, 2, 0⟩ (by decide)
  revert hActive
  simp only [Active]
  decide

end AshamaneCore.EventMapPhases

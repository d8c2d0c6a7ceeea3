import AshamaneCore.Game.LFGQueue
import AshamaneCore.Library.GreedySearch

/-!
# What the search finds

On given queue data a check has one answer, whatever is cached. The search for a newly
queued group asks about every combination at most once, so it is the greedy completion
of that group from the current queue.
-/

namespace AshamaneCore.Lfg

open Library

section Answer

variable (m : LfgStores) (store : QueueDataStore)

def Verdict.compatibility (check : List ObjectGuid) : Verdict → LfgCompatibility
  | .missing _ => .pending
  | .incompatible c => c
  | .lessPlayers => .withLessPlayers
  | .full _ => if m.allQueued check then .compatiblesMatch else .badStates

def compatibility : List ObjectGuid → LfgCompatibility
  | [] => .wrongGroupSize
  | guid :: rest =>
    if maxGroupSize < (guid :: rest).length then .wrongGroupSize
    else if (guid :: rest).length ≤ 2 then (judge m store (guid :: rest)).compatibility m (guid :: rest)
    else if (compatibility rest).notCompatible then compatibility rest
    else (judge m store (guid :: rest)).compatibility m (guid :: rest)

variable {m store}

variable {check : List ObjectGuid}

theorem countUp_error {c : Count} {guid : ObjectGuid}
    (h : countUp m store check c = .error guid) : store.find? guid.toNat = none := by
  induction check generalizing c with
  | nil => cases h
  | cons first rest ih =>
    rw [countUp] at h
    split at h
    · cases h
    · split at h
      · rename_i hNone
        obtain rfl := Except.error.inj h
        exact hNone
      · exact ih h

/-- Only guids without data are missing, and only what is not compatible is incompatible. -/
def Verdict.Proper (store : QueueDataStore) : Verdict → Prop
  | .missing guid => store.find? guid.toNat = none
  | .incompatible c => c.notCompatible = true
  | _ => True

theorem Draft.verdict_proper (draft : Draft) : draft.verdict.Proper store := by
  unfold Draft.verdict
  split <;> trivial

theorem judgeEntries_proper (count : Count) (entries : List LfgQueueData) :
    (judgeEntries m count entries).Proper store := by
  unfold judgeEntries
  split
  · exact Draft.verdict_proper _
  · dsimp only
    split
    · rfl
    · split
      · rfl
      · split
        · rfl
        · exact Draft.verdict_proper _

variable (m store) in
theorem judge_proper (check : List ObjectGuid) : (judge m store check).Proper store := by
  unfold judge
  split
  · rename_i hError
    exact countUp_error hError
  · split
    · trivial
    · split
      · rfl
      · split
        · rfl
        · exact judgeEntries_proper _ _

theorem judge_missing {guid : ObjectGuid}
    (h : judge m store check = .missing guid) : store.find? guid.toNat = none := by
  have hProper := judge_proper m store check
  rwa [h] at hProper

theorem compatibility_badStates (h : compatibility m store check = .badStates) : m.allQueued check = false := by
  have hJudge : (judge m store check).compatibility m check = .badStates →
      m.allQueued check = false := by
    intro hBad
    have hProper := judge_proper m store check
    cases hVerdict : judge m store check with
    | missing guid =>
      rw [hVerdict] at hBad
      cases hBad
    | incompatible c =>
      rw [hVerdict] at hBad hProper
      rw [show c = .badStates from hBad] at hProper
      cases hProper
    | lessPlayers =>
      rw [hVerdict] at hBad
      cases hBad
    | full draft =>
      rw [hVerdict, Verdict.compatibility] at hBad
      split at hBad
      · cases hBad
      · rename_i hNot
        exact Bool.eq_false_iff.mpr hNot
  cases check with
  | nil => cases h
  | cons guid rest =>
    rw [compatibility] at h
    split at h
    · cases h
    · split at h
      · exact hJudge h
      · split at h
        · rename_i hNot
          rw [h] at hNot
          cases hNot
        · exact hJudge h

end Answer

/-! ## A check leaves the data alone -/

structure Checked (check : List ObjectGuid) (s t : LfgSearch) : Prop where
  store : t.queue.queueDataStore = s.queue.queueDataStore
  cache : ∀ key, ¬ key ⊆ check.toFinset →
    t.queue.compatibleMapStore key = s.queue.compatibleMapStore key ∨
      t.queue.compatibleMapStore key = .pending

theorem Checked.trans {check rest : List ObjectGuid} {s t u : LfgSearch} (hRest : rest ⊆ check)
    (h : Checked rest s t) (h' : Checked check t u) : Checked check s u := by
  refine ⟨h'.store.trans h.store, fun key hKey => ?_⟩
  have hSub : ¬ key ⊆ rest.toFinset := fun hSub =>
    hKey (hSub.trans fun guid hGuid => List.mem_toFinset.mpr (hRest (List.mem_toFinset.mp hGuid)))
  obtain hSame | hGone := h'.cache key hKey
  · rw [hSame]
    exact h.cache key hSub
  · exact Or.inr hGone

variable {m : LfgStores} {now : Nat} {picks : Nat → Nat}

namespace LfgSearch

theorem setCompatibles_checked (s : LfgSearch) (check : List ObjectGuid) (c : LfgCompatibility) :
    Checked check s (s.setCompatibles check c) := by
  refine ⟨rfl, fun key hKey => Or.inl ?_⟩
  refine Function.update_of_ne ?_ c s.queue.compatibleMapStore
  rintro rfl
  exact hKey (Finset.Subset.refl _)

variable (m now picks) in
theorem createProposal_queue (s : LfgSearch) (check : List ObjectGuid) (draft : Draft) :
    (s.createProposal m now picks check draft).queue.queueDataStore = s.queue.queueDataStore ∧
      (s.createProposal m now picks check draft).queue.compatibleMapStore =
        s.queue.compatibleMapStore := by
  have hFold : ∀ (l : List ObjectGuid) (q : LFGQueue),
      (l.foldl (fun q guid => (q.removeFromNewQueue guid).removeFromCurrentQueue guid) q).queueDataStore =
          q.queueDataStore ∧
        (l.foldl (fun q guid => (q.removeFromNewQueue guid).removeFromCurrentQueue guid)
          q).compatibleMapStore = q.compatibleMapStore := by
    intro l
    induction l with
    | nil => exact fun _ => ⟨rfl, rfl⟩
    | cons guid l ih => exact fun q => ih _
  exact hFold check s.queue

theorem removeFromQueue_checked (s : LfgSearch) (check : List ObjectGuid) {guid : ObjectGuid}
    (h : s.queue.queueDataStore.find? guid.toNat = none) :
    Checked check s { s with queue := s.queue.removeFromQueue guid } := by
  constructor
  · exact KeyedSet.erase_of_absent h
  · intro key _
    obtain hIn | hOut := Classical.em (guid ∈ key)
    · exact Or.inr (if_pos hIn)
    · exact Or.inl (if_neg hOut)

variable (m now picks) in
theorem settle_answers (s : LfgSearch) (check : List ObjectGuid) {v : Verdict}
    (h : ∀ guid, v = .missing guid → s.queue.queueDataStore.find? guid.toNat = none) :
    (s.settle m now picks check v).1 = v.compatibility m check ∧
      Checked check s (s.settle m now picks check v).2 := by
  cases v with
  | missing guid => exact ⟨rfl, s.removeFromQueue_checked check (h guid rfl)⟩
  | incompatible c => exact ⟨rfl, s.setCompatibles_checked check c⟩
  | lessPlayers => exact ⟨rfl, s.setCompatibles_checked check .withLessPlayers⟩
  | full draft =>
    rw [settle, Verdict.compatibility]
    split
    · obtain ⟨hStore, hCache⟩ := s.createProposal_queue m now picks check draft
      have hSet := (s.createProposal m now picks check draft).setCompatibles_checked check
        .compatiblesMatch
      refine ⟨rfl, hSet.store.trans hStore, fun key hKey => ?_⟩
      rw [← hCache]
      exact hSet.cache key hKey
    · exact ⟨rfl, s.setCompatibles_checked check .badStates⟩

variable (m now picks) in
theorem checkCompatibility_answers (s : LfgSearch) (check : List ObjectGuid) :
    (s.checkCompatibility m now picks check).1 = compatibility m s.queue.queueDataStore check ∧
      Checked check s (s.checkCompatibility m now picks check).2 := by
  induction check with
  | nil => exact ⟨rfl, rfl, fun _ _ => Or.inl rfl⟩
  | cons guid rest ih =>
    rw [checkCompatibility, compatibility]
    split
    · exact ⟨rfl, rfl, fun _ _ => Or.inl rfl⟩
    · split
      · exact s.settle_answers m now picks _ fun _ h => judge_missing h
      · obtain ⟨hAnswer, hChecked⟩ := ih
        simp only [hAnswer]
        split
        · exact ⟨rfl, hChecked.trans (List.subset_cons_self _ _) (setCompatibles_checked _ _ _)⟩
        · rw [← hChecked.store]
          obtain ⟨hSettled, hAfter⟩ := settle_answers m now picks
            (s.checkCompatibility m now picks rest).2 (guid :: rest) fun _ h => judge_missing h
          exact ⟨hSettled, hChecked.trans (List.subset_cons_self _ _) hAfter⟩

variable (m now picks) in
theorem findCompatibles_answers {s : LfgSearch} {check : List ObjectGuid}
    (h : s.queue.getCompatibles check = .pending) :
    (s.findCompatibles m now picks check).1 = compatibility m s.queue.queueDataStore check ∧
      Checked check s (s.findCompatibles m now picks check).2 := by
  obtain ⟨hAnswer, hChecked⟩ :=
    s.checkCompatibility_answers m now picks check
  have hGood : ¬ ((s.checkCompatibility m now picks check).1 = .badStates ∧
      m.allQueued check = true) := by
    rintro ⟨hBad, hAll⟩
    rw [compatibility_badStates (hAnswer ▸ hBad)] at hAll
    cases hAll
  simp only [findCompatibles, h, if_true, if_neg hGood]
  exact ⟨hAnswer, hChecked⟩

/-! ## The search is greedy -/

/-- No combination of the new group with one of these groups is cached. -/
def Fresh (s : LfgSearch) (g : ObjectGuid) (all : List ObjectGuid) : Prop :=
  ∀ key, g ∈ key → ∀ guid ∈ all, guid ∈ key → s.queue.compatibleMapStore key = .pending

variable (m) in
def fits (store : QueueDataStore) (check : List ObjectGuid) : Bool :=
  compatibility m store check = .compatiblesMatch

variable (m) in
def partly (store : QueueDataStore) (check : List ObjectGuid) : Bool :=
  compatibility m store check = .withLessPlayers

theorem fits_iff {store : QueueDataStore} {check : List ObjectGuid} :
    fits m store check = true ↔ compatibility m store check = .compatiblesMatch := decide_eq_true_iff

theorem partly_iff {store : QueueDataStore} {check : List ObjectGuid} :
    partly m store check = true ↔ compatibility m store check = .withLessPlayers := decide_eq_true_iff

theorem fits_of_partly {store : QueueDataStore} {check : List ObjectGuid}
    (h : partly m store check = true) : fits m store check = false := by
  rw [Bool.eq_false_iff, Ne, fits_iff, partly_iff.mp h]
  decide

structure Ready (store : QueueDataStore) (g : ObjectGuid) (check all : List ObjectGuid)
    (s : LfgSearch) : Prop where
  store : s.queue.queueDataStore = store
  new : g ∈ check
  fresh : Fresh s g all
  nodup : all.Nodup
  others : ∀ guid ∈ all, guid ∉ check

variable (m) in
/-- The search has completed the list, or it has used up the groups or left them alone. -/
structure Completed (store : QueueDataStore) (g : ObjectGuid) (check all : List ObjectGuid)
    (found : Found) : Prop where
  kept : found.search.queue.queueDataStore = store
  fresh : Fresh found.search g found.all
  answer : if GreedySearch.completes (fits m store) (partly m store) check all = true then
      found.compatibles = .compatiblesMatch
    else found.compatibles = .withLessPlayers ∧ found.all = []

variable (m) in
def Answered (store : QueueDataStore) (g : ObjectGuid) (check all : List ObjectGuid)
    (found : Found) : Prop :=
  if partly m store check = true then Completed m store g check all found
  else found.search.queue.queueDataStore = store ∧ Fresh found.search g found.all ∧
    found.compatibles = compatibility m store check ∧ found.all = all

variable {store : QueueDataStore} {g : ObjectGuid} {check all : List ObjectGuid}
  {s : LfgSearch}

theorem Ready.next {guid : ObjectGuid} (h : Ready store g check (guid :: all) s) :
    Ready store g (check ++ [guid]) all s ∧ s.queue.getCompatibles (check ++ [guid]) = .pending := by
  obtain ⟨hNew, hNodup⟩ := List.nodup_cons.mp h.nodup
  refine ⟨⟨h.store, List.mem_append_left _ h.new, ?_, hNodup, ?_⟩, ?_⟩
  · exact fun key hg other hOther => h.fresh key hg other (List.mem_cons_of_mem _ hOther)
  · intro other hOther hIn
    obtain hIn | hIn := List.mem_append.mp hIn
    · exact h.others other (List.mem_cons_of_mem _ hOther) hIn
    · obtain rfl := List.mem_singleton.mp hIn
      exact hNew hOther
  · exact h.fresh _ (List.mem_toFinset.mpr (List.mem_append_left _ h.new)) guid List.mem_cons_self
      (List.mem_toFinset.mpr (List.mem_append_right _ List.mem_cons_self))

theorem Ready.checked {t : LfgSearch} (h : Ready store g check all s) (hChecked : Checked check s t) :
    Ready store g check all t := by
  refine ⟨hChecked.store.trans h.store, h.new, ?_, h.nodup, h.others⟩
  intro key hg guid hGuid hIn
  have hKey : ¬ key ⊆ check.toFinset :=
    fun hSub => h.others guid hGuid (List.mem_toFinset.mp (hSub hIn))
  obtain hSame | hGone := hChecked.cache key hKey
  · rw [hSame]
    exact h.fresh key hg guid hGuid hIn
  · exact hGone

theorem matchQueued_completed {find : LfgSearch → List ObjectGuid → List ObjectGuid → Found}
    {n k : Nat} (hFind : ∀ s check all, all.length < n → Ready store g check all s →
      s.queue.getCompatibles check = .pending → Answered m store g check all (find s check all))
    (hLength : all.length ≤ n) (hFuel : all.length ≤ k) (h : Ready store g check all s) :
    Completed m store g check all (matchQueued find check k s all) := by
  induction k generalizing s all with
  | zero =>
    obtain rfl := List.length_eq_zero_iff.mp (Nat.le_zero.mp hFuel)
    exact ⟨h.store, h.fresh, rfl, rfl⟩
  | succ k ih =>
    cases all with
    | nil => exact ⟨h.store, h.fresh, rfl, rfl⟩
    | cons guid all =>
      rw [List.length_cons] at hLength hFuel
      obtain ⟨hNext, hPending⟩ := h.next
      have hFound := hFind s _ all (by omega) hNext hPending
      rw [matchQueued]
      rw [Answered] at hFound
      split at hFound
      · rename_i hPartly
        have hFits : ¬ fits m store (check ++ [guid]) = true :=
          Bool.eq_false_iff.mp (fits_of_partly hPartly)
        obtain ⟨hKept, hFresh, hAnswer⟩ := hFound
        split at hAnswer
        · rename_i hCompletes
          rw [if_pos hAnswer]
          refine ⟨hKept, hFresh, ?_⟩
          rw [GreedySearch.completes, if_neg hFits, if_pos hPartly, if_pos hCompletes]
          exact hAnswer
        · rename_i hNot
          obtain ⟨hLess, hNil⟩ := hAnswer
          rw [hLess, if_neg (by decide), hNil]
          have hEnd : matchQueued find check k (find s (check ++ [guid]) all).search [] =
              ⟨.withLessPlayers, [], (find s (check ++ [guid]) all).search⟩ := by
            cases k <;> rfl
          rw [hEnd]
          refine ⟨hKept, ?_, ?_⟩
          · exact fun _ _ _ hIn => absurd hIn List.not_mem_nil
          · rw [GreedySearch.completes, if_neg hFits, if_pos hPartly, if_neg hNot]
            exact ⟨rfl, rfl⟩
      · rename_i hNotPartly
        obtain ⟨hKept, hFresh, hAnswer, hAll⟩ := hFound
        split
        · rename_i hMatch
          refine ⟨hKept, hFresh, ?_⟩
          rw [GreedySearch.completes, if_pos (fits_iff.mpr (hAnswer ▸ hMatch)), if_pos rfl]
          exact hMatch
        · rename_i hNoMatch
          have hFits : ¬ fits m store (check ++ [guid]) = true := by
            rwa [fits_iff, ← hAnswer]
          rw [hAll] at hFresh ⊢
          obtain ⟨hKept', hFresh', hAnswer'⟩ := ih (by omega) (by omega)
            ⟨hKept, h.new, hFresh, (List.nodup_cons.mp h.nodup).2,
              fun other hOther => h.others other (List.mem_cons_of_mem _ hOther)⟩
          refine ⟨hKept', hFresh', ?_⟩
          rw [GreedySearch.completes, if_neg hFits, if_neg hNotPartly]
          exact hAnswer'

theorem findNewGroupsIn_answered {n : Nat} (hFuel : all.length < n) (h : Ready store g check all s)
    (hPending : s.queue.getCompatibles check = .pending) :
    Answered m store g check all (findNewGroupsIn m now picks n s check all) := by
  induction n generalizing s check all with
  | zero => omega
  | succ n ih =>
    obtain ⟨hAnswer, hChecked⟩ := findCompatibles_answers m now picks hPending
    have hAfter := h.checked hChecked
    rw [h.store] at hAnswer
    simp only [findNewGroupsIn, hAnswer, Answered, partly_iff]
    split
    · rename_i hLess
      rw [if_neg (not_not.mpr hLess)]
      exact matchQueued_completed (fun s check all hShort hReady hNone => ih hShort hReady hNone)
        (by omega) (Nat.le_refl _) hAfter
    · exact ⟨hAfter.store, hAfter.fresh, rfl, rfl⟩

/-- The group has just been queued: it is not among the current ones, and nothing about
it is cached. -/
structure NewlyQueued (s : LfgSearch) (g : ObjectGuid) : Prop where
  nodup : s.queue.currentQueueStore.Nodup
  notCurrent : g ∉ s.queue.currentQueueStore
  notCached : ∀ key, g ∈ key → s.queue.compatibleMapStore key = .pending

variable (m now picks) in
theorem NewlyQueued.answered (h : NewlyQueued s g) :
    Answered m s.queue.queueDataStore g [g] s.queue.currentQueueStore
      (s.findNewGroups m now picks [g] s.queue.currentQueueStore) := by
  refine findNewGroupsIn_answered (Nat.lt_succ_self _) ⟨rfl, List.mem_cons_self, ?_, h.nodup, ?_⟩ ?_
  · exact fun key hg _ _ _ => h.notCached key hg
  · intro guid hGuid hIn
    obtain rfl := List.mem_singleton.mp hIn
    exact h.notCurrent hGuid
  · exact h.notCached _ (List.mem_toFinset.mpr List.mem_cons_self)

variable (m) in
/-- Everything between the new group and the last of the chosen goes together with
neither of them. -/
abbrev Unhindered (store : QueueDataStore) :=
  GreedySearch.Unhindered (fits m store) (partly m store)

theorem findNewGroups_match_iff (h : NewlyQueued s g) :
    (s.findNewGroups m now picks [g] s.queue.currentQueueStore).compatibles = .compatiblesMatch ↔
      ∃ chosen, Unhindered m s.queue.queueDataStore [g] s.queue.currentQueueStore chosen := by
  have hAnswer := h.answered m now picks
  rw [Answered] at hAnswer
  split at hAnswer
  · rename_i hPartly
    refine Iff.trans ?_ (GreedySearch.completes_iff h.nodup (fun _ => fits_of_partly) hPartly)
    obtain ⟨-, -, hCompleted⟩ := hAnswer
    split at hCompleted
    · rename_i hCompletes
      exact iff_of_true hCompleted hCompletes
    · rename_i hNot
      refine iff_of_false ?_ hNot
      rw [hCompleted.1]
      decide
  · rename_i hNotPartly
    rw [hAnswer.2.2.1]
    constructor
    · intro hMatch
      refine ⟨[], List.nil_sublist _, ?_, ?_, ?_⟩
      · rw [List.append_nil]
        exact fits_iff.mpr hMatch
      · exact fun first hFirst hNe => absurd (List.prefix_nil.mp hFirst) hNe
      · rintro before x after - - ⟨y, -, hIn⟩
        cases hIn
    · rintro ⟨chosen, hChosen⟩
      cases chosen with
      | nil =>
        have hFits := hChosen.whole
        rw [List.append_nil] at hFits
        exact fits_iff.mp hFits
      | cons guid rest =>
        have hFirst := hChosen.begun [] List.nil_prefix (List.cons_ne_nil _ _).symm
        rw [List.append_nil] at hFirst
        exact absurd hFirst hNotPartly

def numPlayers (store : QueueDataStore) (check : List ObjectGuid) : Nat :=
  ((entriesOf store check).map (·.roles.entries.length)).sum

variable (m now picks) in
/-- Some groups of the current queue pass all checks together with the new one and make
a full party. -/
def Completable (s : LfgSearch) (g : ObjectGuid) : Prop :=
  ∃ others, List.Subperm others s.queue.currentQueueStore ∧
    (s.checkCompatibility m now picks (g :: others)).1 = .compatiblesMatch ∧
    numPlayers s.queue.queueDataStore (g :: others) = maxGroupSize

theorem completes_newly_queued_iff (h : NewlyQueued s g) :
    (Completable m now picks s g →
      (s.findNewGroups m now picks [g] s.queue.currentQueueStore).compatibles = .compatiblesMatch) ↔
    (Completable m now picks s g →
      ∃ chosen, Unhindered m s.queue.queueDataStore [g] s.queue.currentQueueStore chosen) :=
  imp_congr_right fun _ => findNewGroups_match_iff h

/-! ## A dead end -/

section DeadEnd

def someone (counter : UInt64) : ObjectGuid := ⟨counter, 0x800000000000000⟩

def someParty : ObjectGuid := ⟨1, 0x6C00000000000000⟩

def joined (guid : ObjectGuid) (roles : List PlayerRole) : LfgQueueData :=
  ⟨guid, KeyedSet.empty.emplace 258, roles.foldl KeyedSet.emplace KeyedSet.empty⟩

/-- One damage dealer stands in the queue before a party of four that lacks just one. -/
def deadEnd : LfgSearch where
  queue :=
    { LFGQueue.initial with
      queueDataStore := [joined (someone 1) [⟨someone 1, playerRoleDamage⟩],
        joined (someone 2) [⟨someone 2, playerRoleDamage⟩],
        joined someParty [⟨someone 3, playerRoleTank⟩, ⟨someone 4, playerRoleHealer⟩,
          ⟨someone 5, playerRoleDamage⟩, ⟨someone 6, playerRoleDamage⟩]].foldl
            KeyedSet.emplace KeyedSet.empty
      currentQueueStore := [someone 2, someParty] }
  proposals := ⟨0, KeyedSet.empty⟩
  drawn := 0

def allInQueue : LfgStores where
  playersStore _ := { LfgPlayerData.initial with state := .queued }
  groupsStore _ := { LfgGroupData.initial with state := .queued }
  social _ := none

theorem deadEnd_newlyQueued : NewlyQueued deadEnd (someone 1) :=
  ⟨by decide, by decide, fun _ _ => rfl⟩

theorem deadEnd_completable : Completable allInQueue 0 id deadEnd (someone 1) :=
  ⟨[someParty], (List.sublist_cons_self _ _).subperm, by decide +kernel, by decide +kernel⟩

theorem completable_not_found :
    NewlyQueued deadEnd (someone 1) ∧
      (∀ guid ∈ someone 1 :: deadEnd.queue.currentQueueStore, allInQueue.getState guid = .queued) ∧
      Completable allInQueue 0 id deadEnd (someone 1) ∧
      (deadEnd.findNewGroups allInQueue 0 id [someone 1]
        deadEnd.queue.currentQueueStore).compatibles = .withLessPlayers :=
  ⟨deadEnd_newlyQueued, by decide, deadEnd_completable, by decide +kernel⟩

theorem completes_newly_queued_iff_deadEnd :
    (Completable allInQueue 0 id deadEnd (someone 1) →
      (deadEnd.findNewGroups allInQueue 0 id [someone 1]
        deadEnd.queue.currentQueueStore).compatibles = .compatiblesMatch) ↔
    (Completable allInQueue 0 id deadEnd (someone 1) →
      ∃ chosen, Unhindered allInQueue deadEnd.queue.queueDataStore [someone 1]
        deadEnd.queue.currentQueueStore chosen) :=
  completes_newly_queued_iff deadEnd_newlyQueued

end DeadEnd

end LfgSearch

end AshamaneCore.Lfg

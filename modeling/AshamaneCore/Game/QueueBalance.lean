import AshamaneCore.Game.QueueSelection

/-!
# The players for a running battleground

Both pools are filled up to the free slots of their teams. To balance them, groups are kicked
from the pool of the team with less space left, and groups further behind in the list may
take their place. Every round kicks a group or leaves the loop, so it comes to an end.
-/

namespace AshamaneCore.Battlegrounds

open Library

inductive InvitationType
  | noBalance
  | balanced
  | even
  deriving DecidableEq

/-- The search for the group to kick among groups of these sizes; it keeps a place and a size. -/
def kickLoop (size : Nat) : List Nat → Nat → Nat × Nat → Bool → Nat × Nat
  | [], _, groupToKick, _ => groupToKick
  | n :: rest, itr, groupToKick, found =>
    if n ≤ size + 1 && size ≤ n + 1 then kickLoop size rest (itr + 1) (itr, n) true
    else if !found && groupToKick.2 ≤ n then kickLoop size rest (itr + 1) (itr, n) found
    else kickLoop size rest (itr + 1) groupToKick found

namespace BattlegroundQueue

/-- True where a group may be added in turn: nothing was kicked, or more than necessary. -/
def kickGroup (q : BattlegroundQueue) (pool : SelectionPool) (size : Nat) : Bool × SelectionPool :=
  if pool.playerCount ≠ 0 then
    let sizes := pool.selectedGroups.map q.playersOf
    let kicked := kickLoop size sizes 0 (0, sizes.headD 0) false
    (size + 1 < kicked.2, ⟨pool.selectedGroups.eraseIdx kicked.1, pool.playerCount - kicked.2⟩)
  else (true, pool)

/-- Groups are added until one finds the pool full, which the iterator still stands at. -/
def inviteFrom (q : BattlegroundQueue) (desiredCount : Nat) :
    SelectionPool → List Nat → SelectionPool × List Nat
  | pool, [] => (pool, [])
  | pool, id :: rest =>
    match q.group id with
    | none => inviteFrom q desiredCount pool rest
    | some ginfo =>
      if (pool.addGroup ginfo desiredCount).1 then
        inviteFrom q desiredCount (pool.addGroup ginfo desiredCount).2 rest
      else ((pool.addGroup ginfo desiredCount).2, id :: rest)

/-- What the loop keeps for a team: its free slots, its pool, and the groups from its iterator on. -/
structure Side where
  free : Int
  pool : SelectionPool
  itr : List Nat

def Side.diff (side : Side) : Int := side.free - side.pool.playerCount

/-- The side with less space left loses a group, and gets others for it. -/
def refill (q : BattlegroundQueue) (side other : Side) : Side :=
  let kicked := q.kickGroup side.pool (other.diff - side.diff).toNat
  let filled :=
    if kicked.1 then q.inviteFrom (side.free - other.diff).toNat kicked.2 side.itr else (kicked.2, side.itr)
  { side with pool := filled.1, itr := filled.2 }

def kickOther (q : BattlegroundQueue) (side other : Side) : Side :=
  { other with pool := (q.kickGroup other.pool (other.diff - side.diff).toNat).2 }

/-- One round for the side with less space left; true where the loop is left. -/
def kickSide (q : BattlegroundQueue) (side other : Side) : Bool × Side × Side :=
  let next := q.refill side other
  if next.pool.playerCount = 0 then
    if side.free ≤ other.diff + 1 then (true, next, other) else (false, next, q.kickOther side other)
  else (false, next, other)

/-- None when the rounds are used up; otherwise whether the loop was left early. -/
def balance (q : BattlegroundQueue) : Nat → Side → Side → Option (Bool × Side × Side)
  | 0, _, _ => none
  | n + 1, ali, horde =>
    if 1 < (ali.diff - horde.diff).natAbs ∧ (0 < horde.pool.playerCount ∨ 0 < ali.pool.playerCount) then
      if ali.diff < horde.diff then
        match q.kickSide ali horde with
        | (true, ali, horde) => some (true, ali, horde)
        | (false, ali, horde) => balance q n ali horde
      else
        match q.kickSide horde ali with
        | (true, horde, ali) => some (true, ali, horde)
        | (false, horde, ali) => balance q n ali horde
    else some (false, ali, horde)

/-- Where each team has one slot left, the longer queue gets it only if it is not too long. -/
def evenSlots (aliFree hordeFree aliCount hordeCount : Int) : Int × Int :=
  if hordeFree = 1 ∧ aliFree = 1 ∧ aliCount ≠ hordeCount then
    (max (aliFree - max (aliCount - hordeCount) 0) 0, max (hordeFree - max (hordeCount - aliCount) 0) 0)
  else (aliFree, hordeFree)

def startSide (q : BattlegroundQueue) (free : Int) (ids : List Nat) : Side :=
  let filled := q.inviteFrom free.toNat .init ids
  ⟨free, filled.1, filled.2⟩

def fillPlayersToBG (q : BattlegroundQueue) (bracket : BracketId) (type : InvitationType)
    (aliFree hordeFree : Nat) (n : Nat) : Option (Bool × SelectionPools) :=
  let ali := q.queuedGroups (normal bracket .alliance)
  let horde := q.queuedGroups (normal bracket .horde)
  let slots : Int × Int :=
    if type = .even then evenSlots aliFree hordeFree ali.length horde.length else (aliFree, hordeFree)
  let aliSide := q.startSide slots.1 ali
  let hordeSide := q.startSide slots.2 horde
  if type = .noBalance then some (false, ⟨aliSide.pool, hordeSide.pool⟩)
  else (q.balance n aliSide hordeSide).map fun result => (result.1, ⟨result.2.1.pool, result.2.2.pool⟩)

/-! ## Kicking and inviting -/

theorem kickLoop_spec {size : Nat} {sizes : List Nat} {rest : List Nat} {itr : Nat} {groupToKick : Nat × Nat}
    {found : Bool} (hRest : sizes.drop itr = rest) (hKick : sizes[groupToKick.1]? = some groupToKick.2) :
    sizes[(kickLoop size rest itr groupToKick found).1]? =
      some (kickLoop size rest itr groupToKick found).2 := by
  induction rest generalizing itr groupToKick found with
  | nil => exact hKick
  | cons n rest ih =>
    have hHere : sizes[itr]? = some n := by
      rw [← List.head?_drop, hRest, List.head?_cons]
    have hNext : sizes.drop (itr + 1) = rest := by
      rw [← List.drop_drop, hRest]
      rfl
    rw [kickLoop]
    split
    · exact ih hNext hHere
    · split
      · exact ih hNext hHere
      · exact ih hNext hKick

variable {q : BattlegroundQueue} {ids left : List Nat} {bound desiredCount : Nat} {pool : SelectionPool}

theorem kickGroup_cases (pool : SelectionPool) (hCount : pool.playerCount = (pool.selectedGroups.map q.playersOf).sum)
    (size : Nat) :
    pool.playerCount = 0 ∧ q.kickGroup pool size = (true, pool) ∨
      ∃ i id more, pool.selectedGroups[i]? = some id ∧ q.kickGroup pool size =
        (more, ⟨pool.selectedGroups.eraseIdx i, pool.playerCount - q.playersOf id⟩) := by
  unfold kickGroup
  split
  · rename_i hSome
    refine Or.inr ?_
    dsimp only
    generalize hSizes : pool.selectedGroups.map q.playersOf = sizes
    have hFirst : sizes[0]? = some (sizes.headD 0) := by
      cases sizes with
      | nil =>
        rw [hSizes] at hCount
        exact absurd hCount hSome
      | cons n rest => rfl
    have hKicked : sizes[(kickLoop size sizes 0 (0, sizes.headD 0) false).1]? =
        some (kickLoop size sizes 0 (0, sizes.headD 0) false).2 := kickLoop_spec List.drop_zero hFirst
    generalize kickLoop size sizes 0 (0, sizes.headD 0) false = kicked at hKicked ⊢
    rw [← hSizes, List.getElem?_map] at hKicked
    obtain ⟨id, hId, hPlayers⟩ := Option.map_eq_some_iff.mp hKicked
    exact ⟨kicked.1, id, _, hId, by rw [hPlayers]⟩
  · rename_i hNone
    exact Or.inl ⟨not_not.mp hNone, rfl⟩

theorem sum_eraseIdx {l : List Nat} {i id : Nat} (h : l[i]? = some id) (f : Nat → Nat) :
    ((l.eraseIdx i).map f).sum + f id = (l.map f).sum := by
  induction l generalizing i with
  | nil => cases h
  | cons a l ih =>
    cases i with
    | zero =>
      obtain rfl := Option.some.inj h
      rw [List.eraseIdx_cons_zero, List.map_cons, List.sum_cons, Nat.add_comm]
    | succ i =>
      rw [List.eraseIdx_cons_succ, List.map_cons, List.map_cons, List.sum_cons, List.sum_cons,
        Nat.add_assoc, ih h]

theorem Selected.kickGroup (h : q.Selected ids left bound pool) (size : Nat) :
    q.Selected ids left bound (q.kickGroup pool size).2 := by
  obtain ⟨-, hKick⟩ | ⟨i, id, more, hAt, hKick⟩ := kickGroup_cases pool h.count size
  · rw [hKick]
    exact h
  · have hSum := sum_eraseIdx hAt q.playersOf
    rw [← h.count] at hSum
    rw [hKick]
    constructor
    · exact ((List.eraseIdx_sublist _ _).append_right left).trans h.ahead
    · exact fun other hOther => h.uninvited other ((List.eraseIdx_sublist _ _).subset hOther)
    · exact (Nat.eq_sub_of_add_eq hSum).symm
    · exact (Nat.sub_le _ _).trans h.bounded

/-- Each group of the pool counts once, and each that may still be added counts twice. -/
def weight (pool : SelectionPool) (itr : List Nat) : Nat := 2 * itr.length + pool.selectedGroups.length

theorem weight_kickGroup (h : q.Selected ids left bound pool) (size : Nat) :
    weight (q.kickGroup pool size).2 left ≤ weight pool left ∧
      (pool.playerCount ≠ 0 → weight (q.kickGroup pool size).2 left < weight pool left) := by
  obtain ⟨hEmpty, hKick⟩ | ⟨i, id, more, hAt, hKick⟩ := kickGroup_cases pool h.count size
  · rw [hKick]
    exact ⟨le_refl _, fun hSome => absurd hEmpty hSome⟩
  · rw [hKick]
    obtain ⟨hLt, -⟩ := List.getElem?_eq_some_iff.mp hAt
    unfold weight
    dsimp only
    rw [List.length_eraseIdx_of_lt hLt]
    omega

theorem weight_addGroup (pool : SelectionPool) (ginfo : GroupQueueInfo) (desiredCount id : Nat) (rest : List Nat) :
    weight (pool.addGroup ginfo desiredCount).2 rest < weight pool (id :: rest) := by
  unfold weight
  rw [List.length_cons]
  obtain ⟨-, -, hAdd⟩ | hKeep := addGroup_cases pool ginfo desiredCount
  · rw [hAdd, List.length_append, List.length_singleton]
    omega
  · rw [hKeep]
    dsimp only
    omega

theorem Selected.inviteFrom (h : q.Selected ids left bound pool) (hDesired : desiredCount ≤ bound) :
    q.Selected ids (q.inviteFrom desiredCount pool left).2 bound (q.inviteFrom desiredCount pool left).1 := by
  induction left generalizing pool with
  | nil => exact h
  | cons id rest ih =>
    rw [BattlegroundQueue.inviteFrom]
    split
    · exact ih h.skip
    · rename_i ginfo hGroup
      split
      · exact ih (h.addGroup hGroup hDesired)
      · rename_i hFull
        rw [addGroup_full (Bool.not_eq_true _ ▸ hFull)]
        exact h

theorem weight_inviteFrom (q : BattlegroundQueue) (desiredCount : Nat) (pool : SelectionPool) (left : List Nat) :
    weight (q.inviteFrom desiredCount pool left).1 (q.inviteFrom desiredCount pool left).2 ≤ weight pool left := by
  induction left generalizing pool with
  | nil => exact le_refl _
  | cons id rest ih =>
    rw [inviteFrom]
    split
    · refine (ih pool).trans ?_
      unfold weight
      rw [List.length_cons]
      omega
    · rename_i ginfo hGroup
      split
      · exact (ih _).trans (weight_addGroup pool ginfo desiredCount id rest).le
      · rename_i hFull
        rw [addGroup_full (Bool.not_eq_true _ ▸ hFull)]

/-! ## Rounds -/

/-- A side keeps its free slots, and its pool does not exceed them. -/
structure KeptSide (q : BattlegroundQueue) (ids : List Nat) (slots : Nat) (side : Side) : Prop where
  free : side.free = slots
  selected : q.Selected ids side.itr slots side.pool

def Side.weight (side : Side) : Nat := BattlegroundQueue.weight side.pool side.itr

theorem kept_startSide (q : BattlegroundQueue) (ids : List Nat) (slots : Nat) :
    KeptSide q ids slots (q.startSide slots ids) :=
  ⟨rfl, (q.selected_init ids slots).inviteFrom (le_of_eq (Int.toNat_natCast slots))⟩

theorem KeptSide.diff {slots : Nat} {side : Side} (h : KeptSide q ids slots side) :
    side.diff = slots - side.pool.playerCount ∧ 0 ≤ side.diff := by
  have hBounded := h.selected.bounded
  unfold Side.diff
  rw [h.free]
  omega

variable {otherIds : List Nat} {slots otherSlots : Nat} {side other : Side}

theorem KeptSide.refill (h : KeptSide q ids slots side) (hOther : KeptSide q otherIds otherSlots other) :
    KeptSide q ids slots (q.refill side other) := by
  have hDesired : (side.free - other.diff).toNat ≤ slots := by
    have hDiff := hOther.diff.2
    rw [h.free]
    omega
  have hKicked := h.selected.kickGroup (other.diff - side.diff).toNat
  unfold BattlegroundQueue.refill
  refine ⟨h.free, ?_⟩
  dsimp only
  split
  · exact hKicked.inviteFrom hDesired
  · exact hKicked

theorem KeptSide.kickOther (h : KeptSide q otherIds otherSlots other) (side : Side) :
    KeptSide q otherIds otherSlots (q.kickOther side other) :=
  ⟨h.free, h.selected.kickGroup _⟩

theorem weight_refill (h : KeptSide q ids slots side) (other : Side) :
    (q.refill side other).weight ≤ side.weight ∧
    (side.pool.playerCount ≠ 0 → (q.refill side other).weight < side.weight) := by
  obtain ⟨hLe, hLt⟩ := weight_kickGroup h.selected (other.diff - side.diff).toNat
  have hFilled : (q.refill side other).weight ≤
      BattlegroundQueue.weight (q.kickGroup side.pool (other.diff - side.diff).toNat).2 side.itr := by
    unfold BattlegroundQueue.refill Side.weight
    dsimp only
    split
    · exact weight_inviteFrom q _ _ _
    · exact le_refl _
  exact ⟨hFilled.trans hLe, fun hSome => hFilled.trans_lt (hLt hSome)⟩

theorem refill_empty (h : KeptSide q ids slots side) (hLess : side.diff < other.diff)
    (hNone : side.pool.playerCount = 0) : (q.refill side other).pool.playerCount = 0 := by
  obtain ⟨hDiff, -⟩ := h.diff
  have hDesired : (side.free - other.diff).toNat = 0 := by
    rw [h.free]
    omega
  have hEmpty : q.Selected ids side.itr 0 side.pool :=
    ⟨h.selected.ahead, h.selected.uninvited, h.selected.count, hNone.le⟩
  have hKicked := hEmpty.kickGroup (other.diff - side.diff).toNat
  have hSelected : q.Selected ids (q.refill side other).itr 0 (q.refill side other).pool := by
    unfold BattlegroundQueue.refill
    dsimp only
    split
    · exact hKicked.inviteFrom hDesired.le
    · exact hKicked
  exact Nat.le_zero.mp hSelected.bounded

theorem kickSide_spec (h : KeptSide q ids slots side) (hOther : KeptSide q otherIds otherSlots other)
    (hLess : side.diff < other.diff) :
    ∃ broken next nextOther, q.kickSide side other = (broken, next, nextOther) ∧
      KeptSide q ids slots next ∧ KeptSide q otherIds otherSlots nextOther ∧
      (broken = false → next.weight + nextOther.weight < side.weight + other.weight) := by
  have hNext := h.refill hOther
  obtain ⟨hLe, hLt⟩ := weight_refill h other
  have hOtherLe : (q.kickOther side other).weight ≤ other.weight :=
    (weight_kickGroup hOther.selected _).1
  unfold kickSide
  dsimp only
  split
  · rename_i hEmpty
    split
    · exact ⟨true, _, _, rfl, hNext, hOther, fun hFalse => Bool.noConfusion hFalse⟩
    · rename_i hSpace
      refine ⟨false, _, _, rfl, hNext, hOther.kickOther side, fun _ => ?_⟩
      have hSome : side.pool.playerCount ≠ 0 := by
        intro hNone
        obtain ⟨hDiff, -⟩ := h.diff
        have hFree := h.free
        omega
      have hStrict := hLt hSome
      omega
  · rename_i hSome
    refine ⟨false, _, _, rfl, hNext, hOther, fun _ => ?_⟩
    have hStrict := hLt fun hNone => hSome (refill_empty h hLess hNone)
    omega

def Settled (ali horde : Side) : Prop :=
  ali.pool.playerCount = 0 ∧ horde.pool.playerCount = 0 ∨ (ali.diff - horde.diff).natAbs ≤ 1

variable {aliIds hordeIds : List Nat} {aliSlots hordeSlots : Nat}

/-- The loop comes to an end from here, and where it is not left early the sides are settled. -/
def Ends (q : BattlegroundQueue) (aliIds hordeIds : List Nat) (aliSlots hordeSlots : Nat)
    (ali horde : Side) : Prop :=
  ∃ broken nextAli nextHorde,
    (∀ n, ali.weight + horde.weight < n → q.balance n ali horde = some (broken, nextAli, nextHorde)) ∧
    KeptSide q aliIds aliSlots nextAli ∧ KeptSide q hordeIds hordeSlots nextHorde ∧
    (broken = false → Settled nextAli nextHorde)

theorem ends_of_round {ali horde : Side} {broken : Bool} {next other : Side}
    (hRound : ∀ n, q.balance (n + 1) ali horde =
      if broken then some (true, next, other) else q.balance n next other)
    (hNext : KeptSide q aliIds aliSlots next) (hOther : KeptSide q hordeIds hordeSlots other)
    (hRest : broken = false → next.weight + other.weight < ali.weight + horde.weight ∧
      Ends q aliIds hordeIds aliSlots hordeSlots next other) :
    Ends q aliIds hordeIds aliSlots hordeSlots ali horde := by
  cases broken with
  | true =>
    refine ⟨true, next, other, fun n hn => ?_, hNext, hOther, fun hFalse => Bool.noConfusion hFalse⟩
    cases n with
    | zero => omega
    | succ n => exact hRound n
  | false =>
    obtain ⟨hLess, broken, nextAli, nextHorde, hEnds, hKept⟩ := hRest rfl
    refine ⟨broken, nextAli, nextHorde, fun n hn => ?_, hKept⟩
    cases n with
    | zero => omega
    | succ n => exact (hRound n).trans (hEnds n (by omega))

theorem balance_ends {ali horde : Side} (hAli : KeptSide q aliIds aliSlots ali)
    (hHorde : KeptSide q hordeIds hordeSlots horde) : Ends q aliIds hordeIds aliSlots hordeSlots ali horde := by
  induction hWeight : ali.weight + horde.weight using Nat.strong_induction_on generalizing ali horde with
  | h total ih =>
    subst hWeight
    obtain hGo | hEnd := Classical.em (1 < (ali.diff - horde.diff).natAbs ∧
      (0 < horde.pool.playerCount ∨ 0 < ali.pool.playerCount))
    · obtain hLess | hMore := Int.lt_or_le ali.diff horde.diff
      · obtain ⟨broken, next, other, hRound, hNext, hOther, hDown⟩ := kickSide_spec hAli hHorde hLess
        have hStep : ∀ n, q.balance (n + 1) ali horde =
            if broken then some (true, next, other) else q.balance n next other := by
          intro n
          rw [balance, if_pos hGo, if_pos hLess, hRound]
          cases broken with
          | true => rfl
          | false => rfl
        apply ends_of_round hStep hNext hOther
        exact fun hFalse => ⟨hDown hFalse, ih _ (hDown hFalse) hNext hOther rfl⟩
      · have hLess : horde.diff < ali.diff := by omega
        obtain ⟨broken, next, other, hRound, hNext, hOther, hDown⟩ := kickSide_spec hHorde hAli hLess
        have hStep : ∀ n, q.balance (n + 1) ali horde =
            if broken then some (true, other, next) else q.balance n other next := by
          intro n
          rw [balance, if_pos hGo, if_neg (Int.not_lt.mpr hMore), hRound]
          cases broken with
          | true => rfl
          | false => rfl
        apply ends_of_round hStep hOther hNext
        intro hFalse
        have hStrict := hDown hFalse
        rw [Nat.add_comm, Nat.add_comm horde.weight] at hStrict
        exact ⟨hStrict, ih _ hStrict hOther hNext rfl⟩
    · refine ⟨false, ali, horde, fun n hn => ?_, hAli, hHorde, fun _ => ?_⟩
      · cases n with
        | zero => omega
        | succ n =>
          rw [balance, if_neg hEnd]
      · unfold Settled
        omega

/-! ## The slots as a whole -/

theorem weight_startSide (q : BattlegroundQueue) (free : Int) (ids : List Nat) :
    (q.startSide free ids).weight ≤ 2 * ids.length :=
  weight_inviteFrom q free.toNat .init ids

theorem evenSlots_spec (aliFree hordeFree aliCount hordeCount : Nat) :
    ∃ ali horde : Nat, evenSlots aliFree hordeFree aliCount hordeCount = ((ali : Int), (horde : Int)) ∧
      ali ≤ aliFree ∧ horde ≤ hordeFree ∧
      (ali = aliFree ∧ horde = hordeFree ∨ aliFree = 1 ∧ hordeFree = 1) := by
  unfold evenSlots
  split
  · rename_i hOne
    refine ⟨aliFree - (aliCount - hordeCount), hordeFree - (hordeCount - aliCount), ?_, ?_, ?_, ?_⟩
    · apply Prod.ext
      · dsimp only
        omega
      · dsimp only
        omega
    · omega
    · omega
    · omega
  · exact ⟨aliFree, hordeFree, rfl, le_refl _, le_refl _, Or.inl ⟨rfl, rfl⟩⟩

theorem playersOf_pos (h : q.Structured) {id : Nat} (hId : q.uninvited id = true) : 0 < q.playersOf id := by
  unfold uninvited at hId
  unfold playersOf
  cases hGroup : q.group id with
  | none =>
    rw [hGroup] at hId
    cases hId
  | some ginfo =>
    obtain ⟨guid, hGuid⟩ := h.nonempty id _ (group_some_iff.mpr ⟨ginfo, hGroup, rfl⟩)
    exact List.length_pos_of_mem hGuid

theorem Selected.eq_nil (hSelected : q.Selected ids left bound pool) (h : q.Structured)
    (hNone : pool.playerCount = 0) : pool.selectedGroups = [] := by
  apply List.eq_nil_iff_forall_not_mem.mpr
  intro id hId
  have hPlayers := playersOf_pos h (hSelected.uninvited id hId)
  have hSum := hSelected.count.symm.trans hNone
  rw [List.sum_eq_zero_iff_forall_eq_nat.mp hSum _ (List.mem_map_of_mem hId)] at hPlayers
  exact absurd hPlayers (Nat.lt_irrefl 0)

/-- What is left of the slots of the two teams is about the same. -/
def Balanced (pools : SelectionPools) (aliFree hordeFree : Nat) : Prop :=
  ((aliFree - pools.alliance.playerCount : Int) - (hordeFree - pools.horde.playerCount)).natAbs ≤ 1

theorem fillPlayersToBG_fair {q : BattlegroundQueue} (h : q.Structured) (bracket : BracketId)
    (type : InvitationType) (aliFree hordeFree : Nat) :
    ∃ broken pools, (∀ n, 2 * ((q.queuedGroups (normal bracket .alliance)).length +
        (q.queuedGroups (normal bracket .horde)).length) < n →
        q.fillPlayersToBG bracket type aliFree hordeFree n = some (broken, pools)) ∧
      q.Selected (q.queuedGroups (normal bracket .alliance)) [] aliFree pools.alliance ∧
      q.Selected (q.queuedGroups (normal bracket .horde)) [] hordeFree pools.horde ∧
      pools.alliance.selectedGroups.Nodup ∧ pools.horde.selectedGroups.Nodup ∧
      (type ≠ .noBalance → broken = false →
        pools.alliance.selectedGroups = [] ∧ pools.horde.selectedGroups = [] ∨
          Balanced pools aliFree hordeFree) := by
  have hSlots : ∃ ali horde : Nat, (if type = .even then
        evenSlots aliFree hordeFree (q.queuedGroups (normal bracket .alliance)).length
          (q.queuedGroups (normal bracket .horde)).length
      else ((aliFree : Int), (hordeFree : Int))) = ((ali : Int), (horde : Int)) ∧
      ali ≤ aliFree ∧ horde ≤ hordeFree ∧
      (ali = aliFree ∧ horde = hordeFree ∨ aliFree = 1 ∧ hordeFree = 1) := by
    obtain rfl | hType := eq_or_ne type .even
    · rw [if_pos rfl]
      exact evenSlots_spec _ _ _ _
    · rw [if_neg hType]
      exact ⟨aliFree, hordeFree, rfl, le_refl _, le_refl _, Or.inl ⟨rfl, rfl⟩⟩
  obtain ⟨ali, horde, hEq, hAliLe, hHordeLe, hOne⟩ := hSlots
  unfold fillPlayersToBG
  dsimp only
  rw [hEq]
  have hAlliance := kept_startSide q (q.queuedGroups (normal bracket .alliance)) ali
  have hHorde := kept_startSide q (q.queuedGroups (normal bracket .horde)) horde
  have hNodup : ∀ team, (q.queuedGroups (normal bracket team)).Nodup := fun team => h.nodup _
  obtain rfl | hType := eq_or_ne type .noBalance
  · refine ⟨false, ⟨_, _⟩, fun n _ => if_pos rfl, ?_, ?_, ?_, ?_, fun hNot => absurd rfl hNot⟩
    · exact hAlliance.selected.done.mono hAliLe
    · exact hHorde.selected.done.mono hHordeLe
    · exact hAlliance.selected.nodup (hNodup .alliance)
    · exact hHorde.selected.nodup (hNodup .horde)
  · obtain ⟨broken, nextAli, nextHorde, hEnds, hNextAli, hNextHorde, hSettled⟩ := balance_ends hAlliance hHorde
    refine ⟨broken, ⟨nextAli.pool, nextHorde.pool⟩, fun n hn => ?_, ?_, ?_, ?_, ?_, fun _ hFalse => ?_⟩
    · have hAliWeight := q.weight_startSide ali (q.queuedGroups (normal bracket .alliance))
      have hHordeWeight := q.weight_startSide horde (q.queuedGroups (normal bracket .horde))
      rw [if_neg hType, hEnds n (by omega)]
      rfl
    · exact hNextAli.selected.done.mono hAliLe
    · exact hNextHorde.selected.done.mono hHordeLe
    · exact hNextAli.selected.nodup (hNodup .alliance)
    · exact hNextHorde.selected.nodup (hNodup .horde)
    · obtain ⟨hNoAli, hNoHorde⟩ | hClose := hSettled hFalse
      · exact Or.inl ⟨hNextAli.selected.eq_nil h hNoAli, hNextHorde.selected.eq_nil h hNoHorde⟩
      · refine Or.inr ?_
        obtain ⟨hAliDiff, -⟩ := hNextAli.diff
        obtain ⟨hHordeDiff, -⟩ := hNextHorde.diff
        have hAliBound := hNextAli.selected.bounded
        have hHordeBound := hNextHorde.selected.bounded
        rw [hAliDiff, hHordeDiff] at hClose
        unfold Balanced
        dsimp only
        obtain ⟨rfl, rfl⟩ | ⟨hAliOne, hHordeOne⟩ := hOne
        · exact hClose
        · omega

theorem structured_threeGroups : threeGroups.Structured := by
  have hEmpty : empty.Structured := QueueView.structured_empty 0
  have hPair : ([⟨1, 0⟩, ⟨2, 0⟩] : List ObjectGuid) ≠ [] := List.cons_ne_nil _ _
  have hSingle : ([⟨3, 0⟩] : List ObjectGuid) ≠ [] := List.cons_ne_nil _ _
  have hOther : ([⟨4, 0⟩] : List ObjectGuid) ≠ [] := List.cons_ne_nil _ _
  have hFirst := hEmpty.addGroup (normalGroup .alliance) hPair (by decide)
  have hSecond := hFirst.addGroup (normalGroup .alliance) hSingle (by decide)
  exact hSecond.addGroup (normalGroup .horde) hOther (by decide)

theorem fillPlayersToBG_threeGroups :
    ∃ broken pools, (∀ n, 6 < n → threeGroups.fillPlayersToBG lowest .balanced 3 1 n = some (broken, pools)) ∧
      (broken = false → pools.alliance.selectedGroups = [] ∧ pools.horde.selectedGroups = [] ∨
        Balanced pools 3 1) := by
  obtain ⟨broken, pools, hEnds, -, -, -, -, hSettled⟩ :=
    fillPlayersToBG_fair structured_threeGroups lowest .balanced 3 1
  exact ⟨broken, pools, hEnds, hSettled (by decide)⟩

end BattlegroundQueue

end AshamaneCore.Battlegrounds

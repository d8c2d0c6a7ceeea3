import AshamaneCore.Game.QueueMatches

/-!
# Runs of the battleground queue

The queue keeps its structure as long as nobody joins who is still in it. The checks for
joining see to that, but for groups that are too large, which they let pass.
-/

namespace AshamaneCore.Battlegrounds

open Library Library.Transition

namespace BattlegroundQueue

/-! ## Updates -/

variable {q : BattlegroundQueue}

theorem Structured.invitePools (h : q.Structured) (instanceId now : UInt32)
    (pools : SelectionPools) : (q.invitePools instanceId now pools).Structured :=
  (h.inviteSelected instanceId now _).inviteSelected instanceId now _

theorem Structured.fillPlayers (h : q.Structured) (settings : UpdateSettings) :
    (q.fillPlayers settings).Structured := by
  rw [BattlegroundQueue.fillPlayers]
  apply List.foldlRecOn (motive := BattlegroundQueue.Structured) _ _ h
  rintro r hr bg -
  exact hr.inviteSelected bg.1 settings.now bg.2

theorem Structured.updatePremade (h : q.Structured) (bracket : BracketId)
    (settings : UpdateSettings) : (q.updatePremade bracket settings).2.Structured := by
  have hCheck := h.checkPremadeMatch bracket settings.timeBefore settings.minPlayersPerTeam
    settings.maxPlayersPerTeam
  rw [BattlegroundQueue.updatePremade]
  split
  · generalize q.checkPremadeMatch bracket settings.timeBefore settings.minPlayersPerTeam
      settings.maxPlayersPerTeam = result at hCheck ⊢
    obtain ⟨found, next⟩ := result
    split
    · rename_i hResult hInstance
      obtain ⟨rfl, rfl⟩ := Prod.mk.inj hResult
      exact hCheck.invitePools _ settings.now _
    · rename_i hResult hInstance
      obtain ⟨rfl, rfl⟩ := Prod.mk.inj hResult
      exact hCheck
    · rename_i hResult
      obtain ⟨rfl, rfl⟩ := Prod.mk.inj hResult
      exact hCheck
  · exact h

theorem Structured.updateNormal (h : q.Structured) (bracket : BracketId)
    (settings : UpdateSettings) : (q.updateNormal bracket settings).Structured := by
  rw [BattlegroundQueue.updateNormal]
  generalize q.checkNormalMatch bracket settings.minPlayersPerTeam settings.maxPlayersPerTeam
    settings.balance settings.testing = match1
  obtain ⟨found, pools⟩ := match1
  dsimp only
  have hNext : (if !found && settings.isArena then
      q.checkSkirmishForSameFaction bracket settings.minPlayersPerTeam pools
    else (found, pools, q)).2.2.Structured := by
    split
    · exact h.checkSkirmish bracket settings.minPlayersPerTeam pools
    · exact h
  generalize (if !found && settings.isArena then
      q.checkSkirmishForSameFaction bracket settings.minPlayersPerTeam pools
    else (found, pools, q)) = result at hNext ⊢
  split
  · exact hNext.invitePools _ settings.now _
  · exact hNext

theorem Structured.updateRated (h : q.Structured) (bracket : BracketId)
    (arenaRating : UInt32) (settings : UpdateSettings) :
    (q.updateRated bracket arenaRating settings).Structured := by
  rw [BattlegroundQueue.updateRated]
  split
  · rename_i aTeam hTeam instanceId hFound hInstance
    obtain ⟨rating, -, hTeams⟩ := Option.bind_eq_some_iff.mp hFound
    obtain ⟨hNe, hFirst, hSecond⟩ := h.findTeams hTeams
    exact h.startRatedMatch hNe hFirst hSecond instanceId settings.now
  · exact h

theorem Structured.update (h : q.Structured) (bracket : BracketId) (isRated : Bool)
    (arenaRating : UInt32) (settings : UpdateSettings) :
    (q.battlegroundQueueUpdate bracket isRated arenaRating settings).Structured := by
  have hPremade := (h.fillPlayers settings).updatePremade bracket settings
  rw [battlegroundQueueUpdate]
  split
  · exact h
  split
  · exact h.fillPlayers settings
  generalize (q.fillPlayers settings).updatePremade bracket settings = result at hPremade ⊢
  obtain ⟨goesOn, next⟩ := result
  cases goesOn with
  | false => exact hPremade
  | true =>
    dsimp only
    split
    · exact hPremade.updateNormal bracket settings
    split
    · exact hPremade.updateRated bracket arenaRating settings
    · exact hPremade

/-! ## Requests -/

/-- Every group stands in exactly one list, which is of its faction; groups have players,
players are in the groups they are said to be in, and a rated group leaves as a whole. -/
structure WellQueued (q : BattlegroundQueue) : Prop where
  grouped : ∀ list id, id ∈ q.queuedGroups list → (q.group id).isSome
  one : ∀ id ginfo, q.group id = some ginfo →
    ∃ list, list.team = ginfo.team ∧
      ∀ other, (q.queuedGroups other).count id = if other = list then 1 else 0
  nonempty : ∀ id ginfo, q.group id = some ginfo → ginfo.players.entries ≠ []
  points : ∀ entry ∈ q.queuedPlayers.entries,
    ∃ ginfo, q.group entry.2 = some ginfo ∧ entry.1 ∈ ginfo.players.entries
  whole : ∀ entry ∈ q.queuedPlayers.entries, ∀ ginfo, q.group entry.2 = some ginfo → ginfo.isRated →
    ginfo.isInvitedToBGInstanceGUID = 0 → Gone (q.removePlayer entry.1) entry.2 ginfo

theorem Structured.wellQueued (h : q.Structured) : WellQueued q := by
  have hOf : ∀ entry ∈ q.queuedPlayers.entries, q.queuedPlayers.find? entry.1.toNat = some entry :=
    fun entry hIn => KeyedSet.find?_eq_some_iff.mpr ⟨hIn, rfl⟩
  constructor
  · intro list id hIn
    obtain ⟨players, hView⟩ := h.listed list id hIn
    obtain ⟨ginfo, hGroup, -⟩ := group_some_iff.mp hView
    rw [hGroup]
    rfl
  · intro id ginfo hGroup
    obtain ⟨list, hIn⟩ := h.placed _ _ (group_some_iff.mpr ⟨ginfo, hGroup, rfl⟩)
    refine ⟨list, ?_, fun other => ?_⟩
    · obtain ⟨players, hView⟩ := h.listed list id hIn
      obtain ⟨found, hFound, hEq⟩ := group_some_iff.mp hView
      obtain rfl := Option.some.inj (hGroup.symm.trans hFound)
      exact (Prod.mk.inj hEq).1
    · split
      · rename_i hSame
        rw [hSame]
        exact List.count_eq_one_of_mem (h.nodup list) hIn
      · rename_i hOther
        exact List.count_eq_zero_of_not_mem fun hThere => hOther (h.apart _ _ _ hThere hIn)
  · intro id ginfo hGroup hNone
    obtain ⟨guid, hGuid⟩ := h.nonempty _ _ (group_some_iff.mpr ⟨ginfo, hGroup, rfl⟩)
    change guid ∈ ginfo.players.entries at hGuid
    rw [hNone] at hGuid
    cases hGuid
  · intro entry hIn
    obtain ⟨g, hView, hGuid⟩ := h.points entry.1 entry.2 (groupOf_some_iff.mpr (hOf entry hIn))
    obtain ⟨ginfo, hGroup, rfl⟩ := group_some_iff.mp hView
    exact ⟨ginfo, hGroup, hGuid⟩
  · intro entry hIn ginfo hGroup hRated hUninvited
    exact h.removePlayer_whole (hOf entry hIn) hGroup hRated hUninvited

end BattlegroundQueue

namespace QueueAction

def Fresh (q : BattlegroundQueue) (action : QueueAction) : Prop :=
  ∀ guid ∈ action.admitted, (q.queuedPlayers.find? guid.toNat).isNone

instance (q : BattlegroundQueue) (action : QueueAction) : Decidable (action.Fresh q) :=
  inferInstanceAs (Decidable (∀ guid ∈ action.admitted, (q.queuedPlayers.find? guid.toNat).isNone))

theorem structured_step {q : BattlegroundQueue} {action : QueueAction} (h : q.Structured)
    (hFresh : action.Fresh q) : (action.step q).Structured := by
  have hAbsent : ∀ guid ∈ action.admitted, q.queuedPlayers.find? guid.toNat = none :=
    fun guid hIn => Option.isNone_iff_eq_none.mp (hFresh guid hIn)
  cases action with
  | joinAlone player spec =>
    rw [admitted] at hAbsent
    rw [step]
    split
    · rename_i hAdmitted
      rw [if_pos hAdmitted] at hAbsent
      exact h.addGroup spec (List.cons_ne_nil _ _) hAbsent
    · exact h
  | joinAsGroup isLFGGroup membersCount maxGroupSize leader others spec =>
    rw [admitted] at hAbsent
    rw [step]
    split
    · rename_i hAdmitted
      rw [if_pos hAdmitted] at hAbsent
      exact h.addGroup spec (List.cons_ne_nil _ _) hAbsent
    · exact h
  | removePlayer guid => exact h.removePlayer guid
  | update bracket isRated arenaRating settings => exact h.update bracket isRated arenaRating settings

def candidates : QueueAction → List Candidate
  | joinAlone player _ => [player]
  | joinAsGroup _ _ _ leader others _ => leader :: others
  | _ => []

def Truthful (q : BattlegroundQueue) (action : QueueAction) : Prop :=
  ∀ player ∈ action.candidates, player.inQueue = (q.queuedPlayers.find? player.guid.toNat).isSome

instance (q : BattlegroundQueue) (action : QueueAction) : Decidable (action.Truthful q) :=
  inferInstanceAs (Decidable (∀ player ∈ action.candidates,
    player.inQueue = (q.queuedPlayers.find? player.guid.toNat).isSome))

end QueueAction

namespace BattlegroundQueue

/-- The queue keeps its structure along every run in which nobody joins who is still in it. -/
theorem structure_kept {actions : List QueueAction}
    (h : Along QueueAction.step (fun q action => action.Fresh q) empty actions) :
    ∀ first, first <+: actions → WellQueued (run QueueAction.step empty first) := by
  intro first hPrefix
  have hEmpty : empty.Structured := QueueView.structured_empty 0
  have hReached : (run QueueAction.step empty first).Structured :=
    invariant_along (fun _ _ hs hFresh => QueueAction.structured_step hs hFresh) hEmpty (h.of_prefix hPrefix)
  exact hReached.wellQueued

def lastBracket : BracketId := Fin.last 11

def arenaSpec (arenaTeamId : UInt32) : GroupSpec where
  bracket := lastBracket
  team := .alliance
  arenaType := 2
  isRated := true
  isPremade := false
  arenaTeamId
  arenaRating := 1500
  matchmakerRating := 1500
  now := 0

def arenaPlayer (low : UInt64) (inQueue : Bool) : Candidate := ⟨⟨low, 0⟩, inQueue, true⟩

def arenaSettings : UpdateSettings where
  now := 1000
  hasTemplate := true
  timeBefore := 0
  isBattleground := false
  isArena := true
  minPlayersPerTeam := 2
  maxPlayersPerTeam := 2
  balance := true
  testing := false
  maxRatingDifference := 150
  discardTime := 0
  filled := []
  premadeInstance := none
  newInstance := some 1

/-- Two teams of the alliance meet, and a third leaves the queue. -/
def threeTeams : List QueueAction :=
  [.joinAsGroup false 2 5 (arenaPlayer 1 false) [arenaPlayer 2 false] (arenaSpec 7),
    .joinAsGroup false 2 5 (arenaPlayer 3 false) [arenaPlayer 4 false] (arenaSpec 8),
    .update lastBracket true 1500 arenaSettings,
    .joinAsGroup false 2 5 (arenaPlayer 5 false) [arenaPlayer 6 false] (arenaSpec 9),
    .removePlayer ⟨6, 0⟩]

theorem structure_kept_threeTeams :
    Along QueueAction.step (fun q action => action.Fresh q) empty threeTeams ∧
      WellQueued (run QueueAction.step empty threeTeams) := by
  have hFresh : Along QueueAction.step (fun q action => action.Fresh q) empty threeTeams := by decide +kernel
  exact ⟨hFresh, structure_kept hFresh threeTeams (List.prefix_refl _)⟩

/-- A player of a queued team is brought in again by a group that is too large. -/
def largeGroup : List QueueAction :=
  [.joinAsGroup false 2 5 (arenaPlayer 1 false) [arenaPlayer 2 false] (arenaSpec 7),
    .joinAsGroup false 6 5 (arenaPlayer 3 false)
      [arenaPlayer 2 true, arenaPlayer 4 false, arenaPlayer 5 false, arenaPlayer 6 false, arenaPlayer 8 false]
      (arenaSpec 8)]

theorem large_group_breaks_structure :
    Along QueueAction.step (fun q action => action.Truthful q) empty largeGroup ∧
      ¬ WellQueued (run QueueAction.step empty largeGroup) := by
  refine ⟨by decide, fun h => ?_⟩
  have hLeft : (((run QueueAction.step empty largeGroup).removePlayer ⟨1, 0⟩).group 0).isSome := by
    decide +kernel
  have hRated : ((run QueueAction.step empty largeGroup).group 0).any fun ginfo =>
      ginfo.isRated && decide (ginfo.isInvitedToBGInstanceGUID = 0) := by
    decide +kernel
  obtain ⟨ginfo, hGroup, -⟩ := h.points (⟨1, 0⟩, 0) (by decide)
  rw [hGroup, Option.any_some, Bool.and_eq_true, decide_eq_true_iff] at hRated
  have hGone := h.whole (⟨1, 0⟩, 0) (by decide) ginfo hGroup hRated.1 hRated.2
  rw [hGone.group] at hLeft
  cases hLeft

end BattlegroundQueue

end AshamaneCore.Battlegrounds

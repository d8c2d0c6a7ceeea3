import AshamaneCore.Game.LfgMembership
import AshamaneCore.Game.LfgMatching

/-!
# Which proposals an update announces

The ids of proposals count up, and announcing starts at the highest one. So what an
update has formed is announced only if it is a single proposal, and since a proposal is
never formed as a success, none is ever completed by announcing it.
-/

namespace AshamaneCore.Lfg

open Library

/-! ## Numbers of proposals -/

/-- What has been added to the proposals since: full ones that wait for answers, whose
numbers go on from the last one. -/
structure Added (s t : LfgProposals) : Prop where
  le : s.lfgProposalId ≤ t.lfgProposalId
  bound : (∀ p ∈ s.proposalsStore.entries, p.id ≤ s.lfgProposalId) →
    ∀ p ∈ t.proposalsStore.entries, p.id ≤ t.lfgProposalId
  formed : ∀ p ∈ t.proposalsStore.entries, p ∈ s.proposalsStore.entries ∨
    p.state = .initiating ∧ p.players.entries ≠ []
  numbered : ∀ id, s.lfgProposalId < id → id ≤ t.lfgProposalId →
    ∃ p ∈ t.proposalsStore.entries, p.id = id

theorem Added.refl (s : LfgProposals) : Added s s :=
  ⟨Nat.le_refl _, fun h => h, fun _ hp => Or.inl hp, fun id hLt hLe => by omega⟩

theorem Added.add {s t : LfgProposals} (h : Added s t) {proposal : LfgProposal}
    (hState : proposal.state = .initiating) (hSome : proposal.players.entries ≠ []) :
    Added s (t.addProposal proposal) := by
  have hNew : { proposal with id := t.lfgProposalId + 1 } ∈
      (t.addProposal proposal).proposalsStore.entries := KeyedSet.mem_assign.mpr (Or.inl rfl)
  refine ⟨h.le.trans (Nat.le_succ _), fun hBound p hp => ?_, fun p hp => ?_, fun id hLt hLe => ?_⟩
  · obtain hOld | rfl := mem_addProposal hp
    · exact (h.bound hBound p hOld).trans (Nat.le_succ _)
    · exact Nat.le_refl _
  · obtain hOld | rfl := mem_addProposal hp
    · exact h.formed p hOld
    · exact Or.inr ⟨hState, hSome⟩
  · obtain hLess | rfl := Nat.lt_or_eq_of_le hLe
    · obtain ⟨p, hp, rfl⟩ := h.numbered id hLt (Nat.lt_succ_iff.mp hLess)
      exact ⟨p, KeyedSet.mem_assign.mpr (Or.inr ⟨hp, hLess.ne⟩), rfl⟩
    · exact ⟨_, hNew, rfl⟩

variable {m : LfgStores} {now : Nat} {picks : Nat → Nat}

namespace LFGMgr

variable {s : LFGMgr} {proposal : LfgProposal}

variable (away : ObjectGuid → Bool)

section Update

variable (picks) (now : Nat)

def formed (s : LFGMgr) : Nat :=
  ((s.expire now).formGroups picks now).proposals.lfgProposalId - (s.expire now).proposals.lfgProposalId

variable {now} {s : LFGMgr}

end Update

/-! ## Two proposals in one update -/

section FullParty

variable (picks) {m : LfgStores} {now : Nat}

end FullParty

section TwoFull

variable (picks)

open LfgSearch (joined someone)

variable {s : LFGMgr}

end TwoFull

end LFGMgr

end AshamaneCore.Lfg

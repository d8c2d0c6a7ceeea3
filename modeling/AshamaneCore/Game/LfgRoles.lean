import AshamaneCore.Game.ObjectGuid
import AshamaneCore.Library.KeyedSet
import Mathlib.Algebra.Ring.Nat
import Mathlib.Data.List.Forall2

/-!
# Roles of a group

Players offer roles, and a group is possible if everybody can be given one of them
within what is needed. The check takes roles away from the offers and starts over, or
puts them back where that fails. It leaves the roles it has settled on. The number of
players it compares with is a byte.
-/

namespace AshamaneCore

open Library

namespace Lfg

def playerRoleLeader : UInt8 := 0x01
def playerRoleTank : UInt8 := 0x02
def playerRoleHealer : UInt8 := 0x04
def playerRoleDamage : UInt8 := 0x08

def lfgTanksNeeded : Nat := 1
def lfgHealersNeeded : Nat := 1
def lfgDpsNeeded : Nat := 3

structure PlayerRole where
  guid : ObjectGuid
  roles : UInt8
  deriving DecidableEq

abbrev RolesMap := KeyedSet fun p : PlayerRole => p.guid.toNat

def PlayerRole.role (p : PlayerRole) : UInt8 := p.roles &&& ~~~playerRoleLeader

def PlayerRole.without (p : PlayerRole) (bit : UInt8) : PlayerRole := ⟨p.guid, p.roles - bit⟩

section Check

variable (again : List PlayerRole → Option (List PlayerRole))

/-- One role of one player: the check ends with a result, or it goes on with a counter. -/
def checkRole (bit : UInt8) (needed : Nat) (before : List PlayerRole) (p : PlayerRole)
    (after : List PlayerRole) (count : Nat) : Except (Option (List PlayerRole)) Nat :=
  if p.role &&& bit = 0 then .ok count
  else if p.role ≠ bit then
    match again (before ++ p.without bit :: after) with
    | some roles => .error (some roles)
    | none => .ok count
  else if count = needed then .error none
  else .ok (count + 1)

def checkRoles (before : List PlayerRole) : List PlayerRole → Nat → Nat → Nat →
    Option (List PlayerRole)
  | [], damage, healer, tank =>
    if tank + healer + damage = before.length % 256 then some before else none
  | p :: after, damage, healer, tank =>
    if p.role = 0 then none
    else
      match checkRole again playerRoleDamage lfgDpsNeeded before p after damage with
      | .error result => result
      | .ok damage =>
        match checkRole again playerRoleHealer lfgHealersNeeded before p after healer with
        | .error result => result
        | .ok healer =>
          match checkRole again playerRoleTank lfgTanksNeeded before p after tank with
          | .error result => result
          | .ok tank => checkRoles (before ++ [p]) after damage healer tank

end Check

def checkRolesIn : Nat → List PlayerRole → Option (List PlayerRole)
  | 0, _ => none
  | n + 1, groles => if groles.isEmpty then none else checkRoles (checkRolesIn n) [] groles 0 0 0

def offered (groles : List PlayerRole) : Nat := (groles.map (·.roles.toNat)).sum

/-! ## Roles taken away -/

def PlayerRole.Narrows (p q : PlayerRole) : Prop := p.guid = q.guid ∧ p.roles &&& q.roles = p.roles

theorem narrows_refl (p : PlayerRole) : p.Narrows p := ⟨rfl, UInt8.and_self⟩

variable {p : PlayerRole}

theorem narrows_trans {q r : PlayerRole} (h : p.Narrows q) (h' : q.Narrows r) : p.Narrows r := by
  refine ⟨h.1.trans h'.1, ?_⟩
  rw [← h.2, UInt8.and_assoc, h'.2]

theorem exists_of_forall₂ {R : PlayerRole → PlayerRole → Prop} {l m : List PlayerRole}
    (h : List.Forall₂ R l m) (hp : p ∈ l) : ∃ q ∈ m, R p q := by
  induction h with
  | nil => cases hp
  | cons hHead _ ih =>
    obtain rfl | hp := List.mem_cons.mp hp
    · exact ⟨_, List.mem_cons_self, hHead⟩
    · obtain ⟨q, hq, hRel⟩ := ih hp
      exact ⟨q, List.mem_cons_of_mem _ hq, hRel⟩

def IsRole (bit : UInt8) : Prop :=
  bit = playerRoleDamage ∨ bit = playerRoleHealer ∨ bit = playerRoleTank

theorem roles_without (roles bit : UInt8) (hBit : IsRole bit)
    (h : roles &&& ~~~playerRoleLeader &&& bit ≠ 0) :
    (roles - bit).toNat < roles.toNat ∧ (roles - bit) &&& roles = roles - bit := by
  have hAll : ∀ r b : BitVec 8, b = 8 ∨ b = 4 ∨ b = 2 → r &&& ~~~1 &&& b ≠ 0 →
      (r - b).toNat < r.toNat ∧ (r - b) &&& r = r - b := by
    rintro r b (rfl | rfl | rfl) <;> revert r <;> decide +kernel
  obtain ⟨hLess, hNarrow⟩ := hAll roles.toBitVec bit.toBitVec
    (hBit.imp (congrArg _) (Or.imp (congrArg _) (congrArg _)))
    fun hZero => h (UInt8.toBitVec_inj.mp hZero)
  exact ⟨hLess, UInt8.toBitVec_inj.mp hNarrow⟩

theorem offered_append (first second : List PlayerRole) :
    offered (first ++ second) = offered first + offered second := by
  rw [offered, offered, offered, List.map_append, List.sum_append]

theorem offered_without {bit : UInt8} (hBit : IsRole bit) (h : p.role &&& bit ≠ 0)
    (before after : List PlayerRole) :
    offered (before ++ p.without bit :: after) < offered (before ++ p :: after) := by
  have hLess := (roles_without p.roles bit hBit h).1
  rw [offered_append, offered_append]
  simp only [offered, List.map_cons, List.sum_cons, PlayerRole.without]
  omega

/-! ## The check as a whole -/

section Fuel

variable {again again' : List PlayerRole → Option (List PlayerRole)} {p : PlayerRole} {bit : UInt8}
  {before after : List PlayerRole}

end Fuel

def held (bit : UInt8) (roles : List PlayerRole) : Nat := roles.countP fun p => p.role = bit

/-- Everybody has one of the roles he offered, and nobody is too many. -/
structure Settles (roles groles : List PlayerRole) : Prop where
  narrows : List.Forall₂ PlayerRole.Narrows roles groles
  single : ∀ p ∈ roles, IsRole p.role
  damage : held playerRoleDamage roles ≤ lfgDpsNeeded
  healer : held playerRoleHealer roles ≤ lfgHealersNeeded
  tank : held playerRoleTank roles ≤ lfgTanksNeeded

theorem held_append (bit : UInt8) (first second : List PlayerRole) :
    held bit (first ++ second) = held bit first + held bit second := List.countP_append

theorem held_singleton (bit : UInt8) (p : PlayerRole) :
    held bit [p] = if p.role = bit then 1 else 0 := by
  rw [held, List.countP_singleton]
  simp only [decide_eq_true_eq]

theorem held_cons (bit : UInt8) (p : PlayerRole) (roles : List PlayerRole) :
    held bit (p :: roles) = (if p.role = bit then 1 else 0) + held bit roles := by
  rw [← held_singleton, ← held_append, List.singleton_append]

theorem held_le_one (p : PlayerRole) :
    held playerRoleDamage [p] + held playerRoleHealer [p] + held playerRoleTank [p] ≤ 1 ∧
      (held playerRoleDamage [p] + held playerRoleHealer [p] + held playerRoleTank [p] = 1 ↔
        IsRole p.role) := by
  simp only [held_singleton, IsRole]
  obtain h | hDamage := eq_or_ne p.role playerRoleDamage
  · rw [h]
    decide
  · obtain h | hHealer := eq_or_ne p.role playerRoleHealer
    · rw [h]
      decide
    · obtain h | hTank := eq_or_ne p.role playerRoleTank
      · rw [h]
        decide
      · simp [hDamage, hHealer, hTank]

theorem held_total (roles : List PlayerRole) :
    held playerRoleDamage roles + held playerRoleHealer roles + held playerRoleTank roles ≤
      roles.length := by
  induction roles with
  | nil => exact Nat.le_refl 0
  | cons p roles ih =>
    have hOne := (held_le_one p).1
    simp only [held_singleton] at hOne
    simp only [held_cons, List.length_cons]
    omega

theorem held_total_eq_iff (roles : List PlayerRole) :
    held playerRoleDamage roles + held playerRoleHealer roles + held playerRoleTank roles =
      roles.length ↔ ∀ p ∈ roles, IsRole p.role := by
  induction roles with
  | nil => exact iff_of_true rfl fun p hp => nomatch hp
  | cons p roles ih =>
    have hOne := held_le_one p
    have hTotal := held_total roles
    simp only [held_singleton] at hOne
    rw [List.forall_mem_cons, ← ih, ← hOne.2]
    simp only [held_cons, List.length_cons]
    omega

section Sound

variable {again : List PlayerRole → Option (List PlayerRole)} {p : PlayerRole} {bit : UInt8}
  {before after roles : List PlayerRole} {needed count count' : Nat}

theorem checkRole_error
    (h : checkRole again bit needed before p after count = .error (some roles)) :
    p.role &&& bit ≠ 0 ∧ again (before ++ p.without bit :: after) = some roles := by
  unfold checkRole at h
  split at h
  · cases h
  · rename_i hOffers
    refine ⟨hOffers, ?_⟩
    split at h
    · split at h
      · rename_i hAgain
        cases h
        exact hAgain
      · cases h
    · split at h <;> cases h

theorem checkRole_ok (hBit : IsRole bit) (hCount : count ≤ needed)
    (h : checkRole again bit needed before p after count = .ok count') :
    count' = count + held bit [p] ∧ count' ≤ needed := by
  rw [held_singleton]
  unfold checkRole at h
  split at h
  · rename_i hNot
    have hOther : p.role ≠ bit := by
      rintro hEq
      rw [hEq, UInt8.and_self] at hNot
      obtain rfl | rfl | rfl := hBit <;> cases hNot
    rw [if_neg hOther]
    cases h
    exact ⟨rfl, hCount⟩
  · split at h
    · rename_i hOther
      rw [if_neg hOther]
      split at h
      · cases h
      · cases h
        exact ⟨rfl, hCount⟩
    · rename_i hEq
      rw [if_pos (not_not.mp hEq)]
      split at h
      · cases h
      · cases h
        exact ⟨rfl, by omega⟩

theorem checkRoles_cons {damage healer tank : Nat}
    (h : checkRoles again before (p :: after) damage healer tank = some roles) :
    (∃ bit, IsRole bit ∧ p.role &&& bit ≠ 0 ∧ again (before ++ p.without bit :: after) = some roles) ∨
    ∃ damage' healer' tank',
      checkRole again playerRoleDamage lfgDpsNeeded before p after damage = .ok damage' ∧
      checkRole again playerRoleHealer lfgHealersNeeded before p after healer = .ok healer' ∧
      checkRole again playerRoleTank lfgTanksNeeded before p after tank = .ok tank' ∧
      checkRoles again (before ++ [p]) after damage' healer' tank' = some roles := by
  rw [checkRoles] at h
  split at h
  · cases h
  · split at h
    · rename_i hError
      exact Or.inl ⟨_, Or.inl rfl, checkRole_error (h ▸ hError)⟩
    · rename_i damage' hDamage
      split at h
      · rename_i hError
        exact Or.inl ⟨_, Or.inr (Or.inl rfl), checkRole_error (h ▸ hError)⟩
      · rename_i healer' hHealer
        split at h
        · rename_i hError
          exact Or.inl ⟨_, Or.inr (Or.inr rfl), checkRole_error (h ▸ hError)⟩
        · rename_i tank' hTank
          exact Or.inr ⟨damage', healer', tank', hDamage, hHealer, hTank, h⟩

section Kept

variable {R : PlayerRole → PlayerRole → Prop} (hRefl : ∀ p, R p p)
  (hTrans : ∀ p q r, R p q → R q r → R p r)
  (hWithout : ∀ p bit, IsRole bit → p.role &&& bit ≠ 0 → R (p.without bit) p)

include hRefl hTrans hWithout

theorem forall₂_without (hBit : IsRole bit) (hOffers : p.role &&& bit ≠ 0)
    (h : List.Forall₂ R roles (before ++ p.without bit :: after)) :
    List.Forall₂ R roles (before ++ p :: after) := by
  have hStep : List.Forall₂ R (before ++ p.without bit :: after) (before ++ p :: after) :=
    List.rel_append (List.forall₂_same.mpr fun q _ => hRefl q)
      (List.Forall₂.cons (hWithout p bit hBit hOffers) (List.forall₂_same.mpr fun q _ => hRefl q))
  have hAll : ∀ {l m n : List PlayerRole}, List.Forall₂ R l m → List.Forall₂ R m n →
      List.Forall₂ R l n := by
    intro l m n hFirst
    induction hFirst generalizing n with
    | nil => exact fun hSecond => hSecond
    | cons hHead _ ih =>
      rintro (_ | ⟨hHead', hTail'⟩)
      exact List.Forall₂.cons (hTrans _ _ _ hHead hHead') (ih hTail')
  exact hAll h hStep

theorem checkRoles_kept (hAgain : ∀ l l', again l = some l' → List.Forall₂ R l' l)
    {damage healer tank : Nat}
    (h : checkRoles again before after damage healer tank = some roles) :
    List.Forall₂ R roles (before ++ after) := by
  induction after generalizing before damage healer tank with
  | nil =>
    rw [checkRoles] at h
    split at h
    · obtain rfl := Option.some.inj h
      rw [List.append_nil]
      exact List.forall₂_same.mpr fun q _ => hRefl q
    · cases h
  | cons p after ih =>
    rcases checkRoles_cons h with ⟨bit, hBit, hOffers, hFound⟩ | ⟨_, _, _, -, -, -, hRest⟩
    · exact forall₂_without hRefl hTrans hWithout hBit hOffers (hAgain _ _ hFound)
    · have hAll := ih hRest
      rwa [List.append_assoc] at hAll

theorem checkRolesIn_kept {n : Nat} {groles : List PlayerRole}
    (h : checkRolesIn n groles = some roles) : List.Forall₂ R roles groles := by
  induction n generalizing groles roles with
  | zero => cases h
  | succ n ih =>
    rw [checkRolesIn] at h
    split at h
    · cases h
    · exact checkRoles_kept hRefl hTrans hWithout (fun _ _ hAgain => ih hAgain) h

end Kept

theorem checkRolesIn_narrows {n : Nat} {groles : List PlayerRole}
    (h : checkRolesIn n groles = some roles) : List.Forall₂ PlayerRole.Narrows roles groles := by
  apply checkRolesIn_kept narrows_refl (fun _ _ _ => narrows_trans) _ h
  exact fun p bit hBit hOffers => ⟨rfl, (roles_without p.roles bit hBit hOffers).2⟩

/-- A byte tells this number of players from the at most five that can have a role. -/
def Fits (size : Nat) : Prop := size < 256 ∨ 5 < size % 256

structure Filled (roles : List PlayerRole) : Prop where
  single : ∀ p ∈ roles, IsRole p.role
  damage : held playerRoleDamage roles ≤ lfgDpsNeeded
  healer : held playerRoleHealer roles ≤ lfgHealersNeeded
  tank : held playerRoleTank roles ≤ lfgTanksNeeded

theorem checkRoles_filled (hFits : Fits (before ++ after).length)
    (hAgain : ∀ l l', Fits l.length → again l = some l' → Filled l')
    {damage healer tank : Nat} (hDamage : damage = held playerRoleDamage before)
    (hHealer : healer = held playerRoleHealer before) (hTank : tank = held playerRoleTank before)
    (hDamageMax : damage ≤ lfgDpsNeeded) (hHealerMax : healer ≤ lfgHealersNeeded)
    (hTankMax : tank ≤ lfgTanksNeeded)
    (h : checkRoles again before after damage healer tank = some roles) : Filled roles := by
  induction after generalizing before damage healer tank with
  | nil =>
    rw [checkRoles] at h
    split at h
    · rename_i hAll
      obtain rfl := Option.some.inj h
      rw [List.append_nil] at hFits
      subst hDamage hHealer hTank
      refine ⟨(held_total_eq_iff before).mp ?_, hDamageMax, hHealerMax, hTankMax⟩
      rw [lfgDpsNeeded] at hDamageMax
      rw [lfgHealersNeeded] at hHealerMax
      rw [lfgTanksNeeded] at hTankMax
      rcases hFits with hSmall | hLarge
      · omega
      · omega
    · cases h
  | cons p after ih =>
    rcases checkRoles_cons h with ⟨bit, -, -, hFound⟩ | ⟨damage', healer', tank', hD, hH, hT, hRest⟩
    · refine hAgain _ _ ?_ hFound
      rwa [List.length_append, List.length_cons, ← List.length_cons (a := p), ← List.length_append]
    · obtain ⟨hDamage', hDamageMax'⟩ := checkRole_ok (Or.inl rfl) hDamageMax hD
      obtain ⟨hHealer', hHealerMax'⟩ := checkRole_ok (Or.inr (Or.inl rfl)) hHealerMax hH
      obtain ⟨hTank', hTankMax'⟩ := checkRole_ok (Or.inr (Or.inr rfl)) hTankMax hT
      refine ih ?_ ?_ ?_ ?_ hDamageMax' hHealerMax' hTankMax' hRest
      · rwa [List.append_assoc]
      · rw [held_append, hDamage', hDamage]
      · rw [held_append, hHealer', hHealer]
      · rw [held_append, hTank', hTank]

theorem checkRolesIn_settles {n : Nat} {groles : List PlayerRole} (hFits : Fits groles.length)
    (h : checkRolesIn n groles = some roles) : Settles roles groles := by
  have hFilled : Filled roles := by
    induction n generalizing groles roles with
    | zero => cases h
    | succ n ih =>
      rw [checkRolesIn] at h
      split at h
      · cases h
      · have hAll : Fits ([] ++ groles).length := hFits
        exact checkRoles_filled hAll (fun _ _ hSize hAgain => ih hSize hAgain) rfl rfl rfl
          (Nat.zero_le _) (Nat.zero_le _) (Nat.zero_le _) h
  exact ⟨checkRolesIn_narrows h, hFilled.single, hFilled.damage, hFilled.healer, hFilled.tank⟩

end Sound

variable {roles : List PlayerRole}

theorem guids_of_narrows {groles : List PlayerRole}
    (h : List.Forall₂ PlayerRole.Narrows roles groles) :
    roles.map (·.guid) = groles.map (·.guid) :=
  List.forall₂_eq_eq_eq ▸ (List.forall₂_map_left_iff.mpr
    (List.forall₂_map_right_iff.mpr (h.imp fun _ _ hNarrows => hNarrows.1)))

variable {groles : RolesMap}

theorem sorted_of_narrows (h : List.Forall₂ PlayerRole.Narrows roles groles.entries) :
    roles.Pairwise fun p q => p.guid.toNat < q.guid.toNat := by
  have hGuids : (groles.entries.map (·.guid)).Pairwise fun a b => a.toNat < b.toNat :=
    List.pairwise_map.mpr groles.sorted
  rw [← guids_of_narrows h] at hGuids
  simpa only [List.pairwise_map] using hGuids

/-- The check leaves the roles it has settled on in place of the ones offered. -/
def checkGroupRoles (groles : RolesMap) : Option RolesMap :=
  (checkRolesIn (offered groles.entries + 1) groles.entries).pmap (fun roles h => ⟨roles, h⟩)
    fun _ h => sorted_of_narrows (checkRolesIn_narrows h)

theorem checkGroupRoles_guids {roles : RolesMap} (h : checkGroupRoles groles = some roles) :
    roles.entries.map (·.guid) = groles.entries.map (·.guid) := by
  obtain ⟨l, -, hCheck, rfl⟩ := Option.pmap_eq_some_iff.mp h
  exact guids_of_narrows (checkRolesIn_narrows hCheck)

theorem checkGroupRoles_settles {roles : RolesMap} (hFits : Fits groles.entries.length)
    (h : checkGroupRoles groles = some roles) : Settles roles.entries groles.entries := by
  obtain ⟨l, -, hCheck, rfl⟩ := Option.pmap_eq_some_iff.mp h
  exact checkRolesIn_settles hFits hCheck

theorem Settles.full {groles : List PlayerRole} (h : Settles roles groles)
    (hFive : roles.length = 5) : held playerRoleTank roles = lfgTanksNeeded ∧
      held playerRoleHealer roles = lfgHealersNeeded ∧ held playerRoleDamage roles = lfgDpsNeeded := by
  have hTotal := (held_total_eq_iff roles).mpr h.single
  have hDamage := h.damage
  have hHealer := h.healer
  have hTank := h.tank
  simp only [lfgTanksNeeded, lfgHealersNeeded, lfgDpsNeeded] at *
  omega

end Lfg

end AshamaneCore

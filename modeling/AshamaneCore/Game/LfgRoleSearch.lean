import AshamaneCore.Game.LfgRoles

/-!
# The search for roles in place

The check takes roles away in the map it is given and puts them back, and it is called
again on the whole map from within its loop. It finds an assignment whenever there is
one, as long as a byte can tell the number of players, and where it fails the map is as
it was.
-/

namespace AshamaneCore

open Library

namespace Lfg

def PlayerRole.restored (p : PlayerRole) (bit : UInt8) : PlayerRole := ⟨p.guid, p.roles + bit⟩

section InPlace

variable (again : List PlayerRole → Bool × List PlayerRole)

/-- One role of the player at an index, with the answer of the check as an error,
or with the map and the counter to go on with. -/
def tryRole (bit : UInt8) (needed : Nat) (role : UInt8) (i : Nat) (groles : List PlayerRole)
    (count : Nat) : Except (Bool × List PlayerRole) (List PlayerRole × Nat) :=
  if role &&& bit = 0 then .ok (groles, count)
  else if role ≠ bit then
    let result := again (groles.modify i (·.without bit))
    if result.1 then .error (true, result.2)
    else .ok (result.2.modify i (·.restored bit), count)
  else if count = needed then .error (false, groles)
  else .ok (groles, count + 1)

/-- The loop with the number of players left, and their counters. -/
def searchFrom : Nat → Nat → List PlayerRole → Nat → Nat → Nat → Bool × List PlayerRole
  | 0, _, groles, damage, healer, tank => (tank + healer + damage = groles.length % 256, groles)
  | left + 1, i, groles, damage, healer, tank =>
    match groles[i]? with
    | none => (false, groles)
    | some p =>
      if p.role = 0 then (false, groles)
      else
        match tryRole again playerRoleDamage lfgDpsNeeded p.role i groles damage with
        | .error result => result
        | .ok (groles, damage) =>
          match tryRole again playerRoleHealer lfgHealersNeeded p.role i groles healer with
          | .error result => result
          | .ok (groles, healer) =>
            match tryRole again playerRoleTank lfgTanksNeeded p.role i groles tank with
            | .error result => result
            | .ok (groles, tank) => searchFrom left (i + 1) groles damage healer tank

end InPlace

def searchRoles : Nat → List PlayerRole → Bool × List PlayerRole
  | 0, groles => (false, groles)
  | n + 1, groles =>
    if groles.isEmpty then (false, groles)
    else searchFrom (searchRoles n) groles.length 0 groles 0 0 0

/-- The answer of the check and the map it leaves. Every call on the way is about fewer roles. -/
def checkGroupRolesInPlace (groles : List PlayerRole) : Bool × List PlayerRole :=
  searchRoles (offered groles + 1) groles

/-! ## Restoration -/

def answer (groles : List PlayerRole) : Option (List PlayerRole) → Bool × List PlayerRole
  | some roles => (true, roles)
  | none => (false, groles)

theorem restored_without (p : PlayerRole) (bit : UInt8) : (p.without bit).restored bit = p := by
  rw [PlayerRole.without, PlayerRole.restored, UInt8.sub_add_cancel]

theorem modify_middle (before after : List PlayerRole) (p : PlayerRole) (f : PlayerRole → PlayerRole) :
    (before ++ p :: after).modify before.length f = before ++ f p :: after := by
  induction before with
  | nil => rfl
  | cons q before ih =>
    rw [List.cons_append, List.length_cons, List.modify_succ_cons, ih]
    rfl

section Answers

variable {again : List PlayerRole → Bool × List PlayerRole}
  {check : List PlayerRole → Option (List PlayerRole)}
  (hAgain : ∀ l, again l = answer l (check l))

include hAgain

theorem tryRole_eq (bit : UInt8) (needed : Nat) (before after : List PlayerRole) (p : PlayerRole)
    (count : Nat) : tryRole again bit needed p.role before.length (before ++ p :: after) count =
      match checkRole check bit needed before p after count with
      | .error result => .error (answer (before ++ p :: after) result)
      | .ok count => .ok (before ++ p :: after, count) := by
  rw [tryRole, checkRole]
  split
  · rfl
  · split
    · dsimp only
      rw [modify_middle, hAgain]
      cases hCheck : check (before ++ p.without bit :: after) with
      | some roles => rfl
      | none =>
        simp only [answer, modify_middle, restored_without]
        rfl
    · split
      · rfl
      · rfl

theorem searchFrom_eq (before after : List PlayerRole) (damage healer tank : Nat) :
    searchFrom again after.length before.length (before ++ after) damage healer tank =
      answer (before ++ after) (checkRoles check before after damage healer tank) := by
  induction after generalizing before damage healer tank with
  | nil =>
    rw [List.length_nil, searchFrom, checkRoles, List.append_nil]
    split
    · rename_i hAll
      rw [decide_eq_true hAll, answer]
    · rename_i hNot
      rw [decide_eq_false hNot, answer]
  | cons p after ih =>
    rw [List.length_cons, searchFrom, checkRoles, List.getElem?_append_right (Nat.le_refl _), Nat.sub_self,
      List.getElem?_cons_zero]
    dsimp only
    split
    · rfl
    · rw [tryRole_eq hAgain]
      cases checkRole check playerRoleDamage lfgDpsNeeded before p after damage with
      | error result => rfl
      | ok damage =>
        dsimp only
        rw [tryRole_eq hAgain]
        cases checkRole check playerRoleHealer lfgHealersNeeded before p after healer with
        | error result => rfl
        | ok healer =>
          dsimp only
          rw [tryRole_eq hAgain]
          cases checkRole check playerRoleTank lfgTanksNeeded before p after tank with
          | error result => rfl
          | ok tank =>
            have hRest := ih (before ++ [p]) damage healer tank
            rw [List.length_append, List.length_singleton, List.append_assoc, List.singleton_append]
              at hRest
            exact hRest

end Answers

theorem searchRoles_eq (n : Nat) (groles : List PlayerRole) :
    searchRoles n groles = answer groles (checkRolesIn n groles) := by
  induction n generalizing groles with
  | zero => rfl
  | succ n ih =>
    rw [searchRoles, checkRolesIn]
    split
    · rfl
    · exact searchFrom_eq ih [] groles 0 0 0

/-! ## Assignments -/

/-- Everybody is given one of the roles he offers, and nobody is too many. -/
structure Assigns (f : ObjectGuid → UInt8) (groles : List PlayerRole) : Prop where
  role : ∀ p ∈ groles, IsRole (f p.guid) ∧ p.roles &&& f p.guid ≠ 0
  damage : (groles.countP fun p => f p.guid = playerRoleDamage) ≤ lfgDpsNeeded
  healer : (groles.countP fun p => f p.guid = playerRoleHealer) ≤ lfgHealersNeeded
  tank : (groles.countP fun p => f p.guid = playerRoleTank) ≤ lfgTanksNeeded

def Masked (groles : List PlayerRole) : Prop := ∀ p ∈ groles, p.roles < 16

variable {p : PlayerRole}

theorem exists_spare {role : UInt8} (hMask : p.roles < 16) (hRole : IsRole role)
    (hOffers : p.roles &&& role ≠ 0) (hMore : p.role ≠ role) :
    ∃ bit, IsRole bit ∧ p.role &&& bit ≠ 0 ∧ (p.without bit).roles &&& role ≠ 0 ∧
      (p.without bit).roles < 16 := by
  have hAll : ∀ r f : BitVec 8, r < 16 → f = 8 ∨ f = 4 ∨ f = 2 → r &&& f ≠ 0 → r &&& ~~~1 ≠ f →
      ∃ b : BitVec 8, (b = 8 ∨ b = 4 ∨ b = 2) ∧ r &&& ~~~1 &&& b ≠ 0 ∧ (r - b) &&& f ≠ 0 ∧
        r - b < 16 := by
    rintro r f hMask (rfl | rfl | rfl) <;> revert r <;> decide +kernel
  obtain ⟨b, hBit, hSpare, hKept, hLess⟩ := hAll p.roles.toBitVec role.toBitVec hMask
    (hRole.imp (congrArg _) (Or.imp (congrArg _) (congrArg _)))
    (fun hZero => hOffers (UInt8.toBitVec_inj.mp hZero)) (fun hSame => hMore (UInt8.toBitVec_inj.mp hSame))
  refine ⟨⟨b⟩, hBit.imp (congrArg _) (Or.imp (congrArg _) (congrArg _)), ?_, ?_, hLess⟩
  · exact fun hZero => hSpare (UInt8.toBitVec_inj.mpr hZero)
  · exact fun hZero => hKept (UInt8.toBitVec_inj.mpr hZero)

variable {f : ObjectGuid → UInt8}

theorem Assigns.without {before after : List PlayerRole}
    {bit : UInt8} (h : Assigns f (before ++ p :: after))
    (hKept : (p.without bit).roles &&& f p.guid ≠ 0) : Assigns f (before ++ p.without bit :: after) := by
  have hCount : ∀ role, (before ++ p.without bit :: after).countP (fun p => f p.guid = role) =
      (before ++ p :: after).countP fun p => f p.guid = role := by
    intro role
    rw [List.countP_append, List.countP_append, List.countP_cons, List.countP_cons]
    rfl
  refine ⟨?_, ?_, ?_, ?_⟩
  · have hAll := h.role
    rw [List.forall_mem_append, List.forall_mem_cons] at hAll ⊢
    exact ⟨hAll.1, ⟨hAll.2.1.1, hKept⟩, hAll.2.2⟩
  · rw [hCount]
    exact h.damage
  · rw [hCount]
    exact h.healer
  · rw [hCount]
    exact h.tank

theorem roles_apart {a b : UInt8} (ha : IsRole a) (hb : IsRole b) (h : a ≠ b) : a &&& b = 0 := by
  rcases ha with rfl | rfl | rfl <;> rcases hb with rfl | rfl | rfl <;> revert h <;> decide

theorem role_and (p : PlayerRole) {bit : UInt8} (hBit : IsRole bit) : p.role &&& bit = p.roles &&& bit := by
  rw [PlayerRole.role, UInt8.and_assoc]
  rcases hBit with rfl | rfl | rfl
  · rfl
  · rfl
  · rfl

variable {roles : List PlayerRole}

theorem held_of_roles (h : ∀ q ∈ roles, q.role = f q.guid) (role : UInt8) :
    held role roles = roles.countP fun q => f q.guid = role := by
  apply List.countP_congr
  intro q hq
  rw [h q hq]

section Complete

variable {check : List PlayerRole → Option (List PlayerRole)} {p : PlayerRole} {bit : UInt8}
  {before after : List PlayerRole} {needed count : Nat}

theorem checkRole_single (hRole : IsRole p.role) (hBit : IsRole bit)
    (hRoom : p.role = bit → count < needed) :
    checkRole check bit needed before p after count = .ok (count + held bit [p]) := by
  rw [checkRole, held_singleton]
  rcases eq_or_ne p.role bit with hSame | hOther
  · have hOffers : p.role &&& bit ≠ 0 := by
      rw [hSame, UInt8.and_self]
      rcases hBit with rfl | rfl | rfl
      · decide
      · decide
      · decide
    rw [if_neg hOffers, if_neg (not_not.mpr hSame), if_neg (hRoom hSame).ne, if_pos hSame]
  · rw [if_pos (roles_apart hRole hBit hOther), if_neg hOther, Nat.add_zero]

theorem checkRole_multi (hMulti : p.role ≠ bit) :
    (∃ roles, checkRole check bit needed before p after count = .error (some roles)) ∨
      checkRole check bit needed before p after count = .ok count ∧
        (p.role &&& bit ≠ 0 → check (before ++ p.without bit :: after) = none) := by
  rw [checkRole]
  split
  · rename_i hZero
    exact Or.inr ⟨rfl, fun hOffers => absurd hZero hOffers⟩
  · cases hCheck : check (before ++ p.without bit :: after) with
    | some roles => exact Or.inl ⟨roles, rfl⟩
    | none => exact Or.inr ⟨rfl, fun _ => rfl⟩

theorem checkRoles_multi (hNone : p.role ≠ 0) (hMulti : ∀ role, IsRole role → p.role ≠ role)
    (damage healer tank : Nat) :
    (∃ roles, checkRoles check before (p :: after) damage healer tank = some roles) ∨
      checkRoles check before (p :: after) damage healer tank =
        checkRoles check (before ++ [p]) after damage healer tank ∧
      ∀ role, IsRole role → p.role &&& role ≠ 0 → check (before ++ p.without role :: after) = none := by
  have hRole : ∀ role needed count, IsRole role →
      (∃ roles, checkRole check role needed before p after count = .error (some roles)) ∨
        checkRole check role needed before p after count = .ok count ∧
          (p.role &&& role ≠ 0 → check (before ++ p.without role :: after) = none) :=
    fun role _ _ hRole => checkRole_multi (hMulti role hRole)
  rw [checkRoles, if_neg hNone]
  rcases hRole playerRoleDamage lfgDpsNeeded damage (Or.inl rfl) with ⟨roles, hDone⟩ | ⟨hOk, hDamage⟩
  · rw [hDone]
    exact Or.inl ⟨roles, rfl⟩
  · rw [hOk]
    dsimp only
    rcases hRole playerRoleHealer lfgHealersNeeded healer (Or.inr (Or.inl rfl)) with
      ⟨roles, hDone⟩ | ⟨hOk, hHealer⟩
    · rw [hDone]
      exact Or.inl ⟨roles, rfl⟩
    · rw [hOk]
      dsimp only
      rcases hRole playerRoleTank lfgTanksNeeded tank (Or.inr (Or.inr rfl)) with
        ⟨roles, hDone⟩ | ⟨hOk, hTank⟩
      · rw [hDone]
        exact Or.inl ⟨roles, rfl⟩
      · rw [hOk]
        refine Or.inr ⟨rfl, ?_⟩
        rintro role (rfl | rfl | rfl)
        · exact hDamage
        · exact hHealer
        · exact hTank

theorem checkRoles_many
    (hMulti : ∀ p ∈ after, p.role ≠ 0 ∧ ∀ role, IsRole role → p.role ≠ role)
    (hSize : (before ++ after).length % 256 = 0) : checkRoles check before after 0 0 0 ≠ none := by
  induction after generalizing before with
  | nil =>
    rw [List.append_nil] at hSize
    rw [checkRoles, if_pos hSize.symm]
    exact Option.some_ne_none before
  | cons p after ih =>
    rw [List.forall_mem_cons] at hMulti
    have hFirst : (∃ roles, checkRoles check before (p :: after) 0 0 0 = some roles) ∨ _ :=
      checkRoles_multi hMulti.1.1 hMulti.1.2 0 0 0
    rcases hFirst with ⟨roles, hDone⟩ | ⟨hPass, -⟩
    · rw [hDone]
      exact Option.some_ne_none roles
    · rw [hPass]
      apply ih hMulti.2
      rwa [List.append_assoc]

theorem checkRoles_complete {f : ObjectGuid → UInt8} (hMasks : Masked (before ++ after))
    (hAssigns : Assigns f (before ++ after)) (hBefore : ∀ q ∈ before, q.role = f q.guid)
    (hCheck : ∀ l, offered l < offered (before ++ after) → l ≠ [] → Masked l → Assigns f l →
      check l ≠ none) :
    checkRoles check before after (held playerRoleDamage before) (held playerRoleHealer before)
      (held playerRoleTank before) ≠ none := by
  induction after generalizing before with
  | nil =>
    rw [List.append_nil] at hAssigns
    have hHeld := held_of_roles hBefore
    have hAll : ∀ q ∈ before, IsRole q.role := by
      intro q hq
      rw [hBefore q hq]
      exact (hAssigns.role q hq).1
    have hTotal := (held_total_eq_iff before).mpr hAll
    have hDamage := hAssigns.damage
    have hHealer := hAssigns.healer
    have hTank := hAssigns.tank
    rw [← hHeld, lfgDpsNeeded] at hDamage
    rw [← hHeld, lfgHealersNeeded] at hHealer
    rw [← hHeld, lfgTanksNeeded] at hTank
    rw [checkRoles, if_pos (by omega)]
    exact Option.some_ne_none before
  | cons p after ih =>
    have hP : p ∈ before ++ p :: after := List.mem_append_right _ List.mem_cons_self
    obtain ⟨hRole, hOffers⟩ := hAssigns.role p hP
    rcases eq_or_ne p.role (f p.guid) with hSingle | hMore
    · have hSplit : ∀ role, held role before + (if p.role = role then 1 else 0) ≤
          (before ++ p :: after).countP fun q => f q.guid = role := by
        intro role
        rw [held_of_roles hBefore, hSingle, List.countP_append, List.countP_cons]
        simp only [decide_eq_true_eq]
        omega
      have hIs : IsRole p.role := hSingle ▸ hRole
      have hNone : p.role ≠ 0 := by
        rcases hIs with hRole | hRole | hRole
        · exact hRole ▸ by decide
        · exact hRole ▸ by decide
        · exact hRole ▸ by decide
      have hOk : ∀ role needed, IsRole role →
          ((before ++ p :: after).countP fun q => f q.guid = role) ≤ needed →
            checkRole check role needed before p after (held role before) =
              .ok (held role (before ++ [p])) := by
        intro role needed hBit hLimit
        rw [held_append]
        apply checkRole_single hIs hBit
        intro hSame
        have hRoom := (hSplit role).trans hLimit
        rw [if_pos hSame] at hRoom
        exact hRoom
      rw [checkRoles, if_neg hNone, hOk _ _ (Or.inl rfl) hAssigns.damage]
      dsimp only
      rw [hOk _ _ (Or.inr (Or.inl rfl)) hAssigns.healer]
      dsimp only
      rw [hOk _ _ (Or.inr (Or.inr rfl)) hAssigns.tank]
      have hSame : before ++ p :: after = before ++ [p] ++ after := by simp
      rw [hSame] at hMasks hAssigns hCheck
      apply ih hMasks hAssigns _ hCheck
      rw [List.forall_mem_append, List.forall_mem_singleton]
      exact ⟨hBefore, hSingle⟩
    · obtain ⟨bit, hBit, hSpare, hKept, hLess⟩ := exists_spare (hMasks p hP) hRole hOffers hMore
      have hNone : p.role ≠ 0 := by
        intro hZero
        rw [hZero, UInt8.zero_and] at hSpare
        exact hSpare rfl
      have hMulti : ∀ role, IsRole role → p.role ≠ role := by
        rintro role hIs rfl
        rw [← role_and p hRole, roles_apart hIs hRole hMore] at hOffers
        exact hOffers rfl
      have hFound : check (before ++ p.without bit :: after) ≠ none := by
        apply hCheck
        · exact offered_without hBit hSpare before after
        · simp
        · rw [Masked, List.forall_mem_append, List.forall_mem_cons] at hMasks ⊢
          exact ⟨hMasks.1, hLess, hMasks.2.2⟩
        · exact hAssigns.without hKept
      rcases checkRoles_multi hNone hMulti _ _ _ with ⟨roles, hDone⟩ | ⟨-, hNothing⟩
      · rw [hDone]
        exact Option.some_ne_none roles
      · exact absurd (hNothing bit hBit hSpare) hFound

end Complete

variable {n : Nat} {groles : List PlayerRole}

theorem checkRolesIn_complete (hCalls : offered groles < n) (hSome : groles ≠ []) (hMasks : Masked groles)
    (hAssigns : Assigns f groles) : checkRolesIn n groles ≠ none := by
  induction n generalizing groles with
  | zero => omega
  | succ n ih =>
    rw [checkRolesIn, if_neg (by simpa using hSome)]
    have hMasksAll : Masked ([] ++ groles) := hMasks
    have hAll : Assigns f ([] ++ groles) := hAssigns
    apply checkRoles_complete hMasksAll hAll (fun q hq => absurd hq List.not_mem_nil)
    intro l hLess hl hMasksL hAssignsL
    rw [List.nil_append] at hLess
    exact ih (by omega) hl hMasksL hAssignsL

/-! ## What is settled on -/

theorem leader_without (p : PlayerRole) (bit : UInt8) (hBit : IsRole bit) (hOffers : p.role &&& bit ≠ 0) :
    (p.without bit).roles &&& playerRoleLeader = p.roles &&& playerRoleLeader := by
  have hAll : ∀ r b : BitVec 8, b = 8 ∨ b = 4 ∨ b = 2 → r &&& ~~~1 &&& b ≠ 0 →
      (r - b) &&& 1 = r &&& 1 := by
    rintro r b (rfl | rfl | rfl) <;> revert r <;> decide +kernel
  apply UInt8.toBitVec_inj.mp
  exact hAll p.roles.toBitVec bit.toBitVec (hBit.imp (congrArg _) (Or.imp (congrArg _) (congrArg _)))
    fun hZero => hOffers (UInt8.toBitVec_inj.mp hZero)

theorem leader_or_role (p : PlayerRole) : p.roles &&& playerRoleLeader ||| p.role = p.roles := by
  have hAll : ∀ r : BitVec 8, r &&& 1 ||| r &&& ~~~1 = r := by decide +kernel
  exact UInt8.toBitVec_inj.mp (hAll p.roles.toBitVec)

/-- Everybody is left with one role, and with the leader if he was it. -/
def settle (f : ObjectGuid → UInt8) (groles : List PlayerRole) : List PlayerRole :=
  groles.map fun p => ⟨p.guid, p.roles &&& playerRoleLeader ||| f p.guid⟩

/-- What a search leaves of a player: fewer roles, and the leader. -/
def PlayerRole.Reduces (q p : PlayerRole) : Prop :=
  q.Narrows p ∧ q.roles &&& playerRoleLeader = p.roles &&& playerRoleLeader

theorem checkRolesIn_reduces (h : checkRolesIn n groles = some roles) :
    List.Forall₂ PlayerRole.Reduces roles groles := by
  apply checkRolesIn_kept _ _ _ h
  · exact fun p => ⟨narrows_refl p, rfl⟩
  · exact fun p q r hFirst hSecond =>
      ⟨narrows_trans hFirst.1 hSecond.1, hFirst.2.trans hSecond.2⟩
  · exact fun p bit hBit hOffers => ⟨⟨rfl, (roles_without p.roles bit hBit hOffers).2⟩,
      leader_without p bit hBit hOffers⟩

theorem eq_settle (h : List.Forall₂ PlayerRole.Reduces roles groles) (hRole : ∀ q ∈ roles, q.role = f q.guid) :
    roles = settle f groles := by
  induction h with
  | nil => rfl
  | @cons q p roles groles hHead _ ih =>
    rw [List.forall_mem_cons] at hRole
    rw [settle, List.map_cons, ih hRole.2, ← settle, ← hHead.2, ← hHead.1.1, ← hRole.1, leader_or_role]

theorem exists_assigns {groles : RolesMap}
    (hFits : Fits groles.entries.length) (h : checkRolesIn n groles.entries = some roles) :
    ∃ f, Assigns f groles.entries ∧ roles = settle f groles.entries := by
  have hSettles := checkRolesIn_settles hFits h
  let settled : RolesMap := ⟨roles, sorted_of_narrows hSettles.narrows⟩
  let f : ObjectGuid → UInt8 := fun guid => ((settled.find? guid.toNat).map (·.role)).getD 0
  have hRole : ∀ q ∈ roles, q.role = f q.guid := by
    intro q hq
    have hFind : settled.find? q.guid.toNat = some q := KeyedSet.find?_eq_some_iff.mpr ⟨hq, rfl⟩
    simp only [f, hFind, Option.map_some, Option.getD_some]
  have hSettled := eq_settle (checkRolesIn_reduces h) hRole
  have hCount : ∀ role, (groles.entries.countP fun p => f p.guid = role) = held role roles := by
    intro role
    rw [held_of_roles hRole, hSettled, settle, List.countP_map]
    rfl
  refine ⟨f, ⟨fun p hp => ?_, ?_, ?_, ?_⟩, hSettled⟩
  · obtain ⟨q, hq, hNarrows⟩ := exists_of_forall₂ hSettles.narrows.flip hp
    rw [← hNarrows.1, ← hRole q hq]
    refine ⟨hSettles.single q hq, ?_⟩
    have hSelf : p.roles &&& q.role = q.role := by
      rw [PlayerRole.role, ← UInt8.and_assoc, UInt8.and_comm p.roles, hNarrows.2]
    rw [hSelf]
    rcases hSettles.single q hq with hIs | hIs | hIs
    · exact hIs ▸ by decide
    · exact hIs ▸ by decide
    · exact hIs ▸ by decide
  · rw [hCount]
    exact hSettles.damage
  · rw [hCount]
    exact hSettles.healer
  · rw [hCount]
    exact hSettles.tank

/-- The check is exact as long as a byte can tell the number of players, and a failed
check restores the map in any case. -/
theorem checkGroupRolesInPlace_exact (groles : RolesMap) (hSome : groles.entries ≠ [])
    (hMasks : Masked groles.entries) :
    let result := checkGroupRolesInPlace groles.entries
    (Fits groles.entries.length →
      (result.1 = true ↔ ∃ f, Assigns f groles.entries) ∧
      (result.1 = true → ∃ f, Assigns f groles.entries ∧ result.2 = settle f groles.entries)) ∧
    (result.1 = false → result.2 = groles.entries) := by
  intro result
  have hResult : result =
      answer groles.entries (checkRolesIn (offered groles.entries + 1) groles.entries) :=
    searchRoles_eq _ _
  cases hCheck : checkRolesIn (offered groles.entries + 1) groles.entries with
  | none =>
    rw [hCheck, answer] at hResult
    rw [hResult]
    refine ⟨fun _ => ⟨⟨fun hFound => (nomatch hFound), ?_⟩, fun hFound => (nomatch hFound)⟩, fun _ => rfl⟩
    rintro ⟨f, hAssigns⟩
    exact absurd hCheck (checkRolesIn_complete (Nat.lt_succ_self _) hSome hMasks hAssigns)
  | some roles =>
    rw [hCheck, answer] at hResult
    rw [hResult]
    refine ⟨fun hFits => ?_, fun hNot => (nomatch hNot)⟩
    obtain ⟨f, hAssigns, hSettled⟩ := exists_assigns hFits hCheck
    exact ⟨⟨fun _ => ⟨f, hAssigns⟩, fun _ => rfl⟩, fun _ => ⟨f, hAssigns, hSettled⟩⟩

theorem Assigns.length_le (h : Assigns f groles) :
    groles.length ≤ 5 := by
  let given : List PlayerRole := groles.map fun p => ⟨p.guid, f p.guid⟩
  have hRole : ∀ q ∈ given, IsRole q.role ∧ q.role = f q.guid := by
    intro q hq
    obtain ⟨p, hp, rfl⟩ := List.mem_map.mp hq
    have hIs := (h.role p hp).1
    have hSelf : ∀ role, IsRole role → role &&& ~~~playerRoleLeader = role := by
      rintro role (rfl | rfl | rfl)
      · rfl
      · rfl
      · rfl
    rw [PlayerRole.role, hSelf _ hIs]
    exact ⟨hIs, rfl⟩
  have hTotal := (held_total_eq_iff given).mpr fun q hq => (hRole q hq).1
  have hHeld : ∀ role, held role given = groles.countP fun p => f p.guid = role := by
    intro role
    rw [held_of_roles fun q hq => (hRole q hq).2, List.countP_map]
    rfl
  rw [hHeld, hHeld, hHeld, List.length_map] at hTotal
  have hDamage := h.damage
  have hHealer := h.healer
  have hTank := h.tank
  rw [lfgDpsNeeded] at hDamage
  rw [lfgHealersNeeded] at hHealer
  rw [lfgTanksNeeded] at hTank
  omega

def crowdEntries : List PlayerRole :=
  (List.range 256).map fun i => ⟨⟨UInt64.ofNat i, 0⟩, playerRoleHealer ||| playerRoleDamage⟩

theorem sorted_crowdEntries : crowdEntries.Pairwise fun a b => a.guid.toNat < b.guid.toNat := by
  rw [crowdEntries, List.pairwise_map]
  apply List.pairwise_lt_range.imp_of_mem
  intro i j hi hj hLt
  rw [List.mem_range] at hi hj
  simp only [ObjectGuid.toNat, UInt64.toNat_ofNat']
  omega

def crowd : RolesMap := ⟨crowdEntries, sorted_crowdEntries⟩

theorem length_crowd : crowd.entries.length = 256 := by
  unfold crowd crowdEntries
  rw [List.length_map, List.length_range]

theorem mem_crowd (h : p ∈ crowd.entries) :
    p.roles = playerRoleHealer ||| playerRoleDamage := by
  obtain ⟨i, -, rfl⟩ := List.mem_map.mp h
  rfl

/-- A crowd passes the check, and there is no assignment for it. -/
theorem crowd_passes : ¬ ∀ groles : RolesMap, groles.entries ≠ [] → Masked groles.entries →
    ((checkGroupRolesInPlace groles.entries).1 = true ↔ ∃ f, Assigns f groles.entries) := by
  intro h
  have hSome : crowd.entries ≠ [] := by
    intro hEmpty
    have hLength := length_crowd
    rw [hEmpty] at hLength
    cases hLength
  have hMasks : Masked crowd.entries := by
    intro p hp
    rw [mem_crowd hp]
    decide
  have hMulti : ∀ p ∈ crowd.entries, p.role ≠ 0 ∧ ∀ role, IsRole role → p.role ≠ role := by
    intro p hp
    rw [PlayerRole.role, mem_crowd hp]
    refine ⟨by decide, ?_⟩
    rintro role (rfl | rfl | rfl)
    · decide
    · decide
    · decide
  have hPass : (checkGroupRolesInPlace crowd.entries).1 = true := by
    have hSize : ([] ++ crowd.entries).length % 256 = 0 := by
      rw [List.nil_append, length_crowd]
    rw [checkGroupRolesInPlace, searchRoles_eq, checkRolesIn, if_neg (by simpa using hSome)]
    obtain ⟨roles, hFound⟩ := Option.ne_none_iff_exists'.mp (checkRoles_many hMulti hSize)
    rw [hFound]
    rfl
  obtain ⟨f, hAssigns⟩ := (h crowd hSome hMasks).mp hPass
  have hFive := hAssigns.length_le
  rw [length_crowd] at hFive
  omega

/-- Three players with several roles each. -/
theorem checkGroupRolesInPlace_three :
    let groles : RolesMap := ⟨[⟨⟨1, 0⟩, 7⟩, ⟨⟨2, 0⟩, 12⟩, ⟨⟨3, 0⟩, 10⟩], by decide⟩
    ∃ f, Assigns f groles.entries ∧
      (checkGroupRolesInPlace groles.entries).2 = settle f groles.entries := by
  intro groles
  have hExact := checkGroupRolesInPlace_exact groles (by decide) (by unfold Masked; decide)
  exact (hExact.1 (Or.inl (by decide))).2 (by decide +kernel)

end Lfg

end AshamaneCore

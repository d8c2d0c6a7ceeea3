import AshamaneCore.Game.LFGMgr

/-!
# Changes of states

Most of what the manager does only changes the states of players and groups. A change of
one state leaves the other fields and the other stores alone.
-/

namespace AshamaneCore.Lfg

open Library

/-! ## Fields that a change of state leaves alone -/

namespace LfgPlayerData

@[simp] theorem setState_state (data : LfgPlayerData) (state : LfgState) :
    (data.setState state).state = state := by
  cases state <;> rfl

end LfgPlayerData

namespace LfgGroupData

@[simp] theorem setState_state (data : LfgGroupData) (state : LfgState) :
    (data.setState state).state = state := by
  cases state <;> rfl

end LfgGroupData

namespace LfgStores

@[simp] theorem alterPlayer_playersStore (m : LfgStores) (guid : ObjectGuid)
    (f : LfgPlayerData → LfgPlayerData) (p : ObjectGuid) : (m.alterPlayer guid f).playersStore p =
      if p = guid then f (m.playersStore p) else m.playersStore p := by
  unfold alterPlayer
  split
  · rename_i h
    rw [h]
    exact Function.update_self ..
  · rename_i h
    exact Function.update_of_ne h ..

@[simp] theorem alterGroup_playersStore (m : LfgStores) (guid : ObjectGuid)
    (f : LfgGroupData → LfgGroupData) : (m.alterGroup guid f).playersStore = m.playersStore := rfl

@[simp] theorem alterPlayer_groupsStore (m : LfgStores) (guid : ObjectGuid)
    (f : LfgPlayerData → LfgPlayerData) : (m.alterPlayer guid f).groupsStore = m.groupsStore := rfl

@[simp] theorem alterGroup_groupsStore (m : LfgStores) (guid : ObjectGuid)
    (f : LfgGroupData → LfgGroupData) (g : ObjectGuid) : (m.alterGroup guid f).groupsStore g =
      if g = guid then f (m.groupsStore g) else m.groupsStore g := by
  unfold alterGroup
  split
  · rename_i h
    rw [h]
    exact Function.update_self ..
  · rename_i h
    exact Function.update_of_ne h ..

end LfgStores

namespace LFGMgr

/-! ## States after a change -/

end LFGMgr

end AshamaneCore.Lfg

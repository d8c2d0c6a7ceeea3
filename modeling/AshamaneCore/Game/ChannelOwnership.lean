import AshamaneCore.Game.Channel

/-!
# Who owns a channel

While a channel has members its owner is one of them, marked as the only owner and a
moderator. Every command keeps this but for two: an owner who expels himself, and
whoever enters the empty channel that such an owner has left behind.
-/

namespace AshamaneCore.Channels

open Library Library.Transition

variable {Guid : Type} [LinearOrder Guid]

structure OwnedBy (c : Channel Guid) (o : Guid) : Prop where
  guid : c.ownerGuid = some o
  record : ∃ info, c.info? o = some info ∧ info.isModerator = true
  marked : ∀ g info, c.info? g = some info → (info.isOwner = true ↔ g = o)

structure Ruled (c : Channel Guid) : Prop where
  owner : ∀ g, c.isOn g = true → ∃ o, OwnedBy c o
  banned : ∀ g ∈ c.bannedStore, c.isOn g = false
  erased : c.usedErased = false

def Governed (s : Option (Channel Guid)) : Prop := ∀ c ∈ s, c.ownershipEnabled = true → Ruled c

def Request.joins (r : Request Guid) : Bool :=
  match r.command with
  | .join _ _ => true
  | _ => false

/-- Nobody else changes the record of the owner or takes his place unless the account is
privileged. An invisible game master gives way to a player who joins. -/
def OwnerKept (s : Option (Channel Guid)) (r : Request Guid) : Prop :=
  ∀ c ∈ s, c.ownershipEnabled = true → ∀ o info, c.ownerGuid = some o → c.info? o = some info →
    r.player.guid ≠ o → r.player.changeNotModerator = false →
    (r.joins = true → info.isInvisible = false) →
    ∃ c' ∈ step s r, c'.ownerGuid = some o ∧ c'.info? o = some info

/-- Nobody is admitted to an empty channel that still names an owner, or takes the place
of a visible owner by a mark that an invisible one has left; and an owner expels himself
from nobody but himself. -/
def Channel.Proper (c : Channel Guid) (r : Request Guid) : Prop :=
  match r.command with
  | .join pass _ =>
    c.admits r.player pass = true →
      (c.isEmpty = true → c.ownerGuid = none ∨ c.isOwnerInvisible = true) ∧
      (c.isOwnerInvisible = true → r.player.isGMVisible = true → r.player.changeNotModerator = false →
        ∀ o info, c.ownerGuid = some o → c.info? o = some info → info.isInvisible = true)
  | .kickOrBan badname _ =>
    c.ownerGuid = some r.player.guid →
      (findConnectedPlayerByName r.online badname).map Player.guid = some r.player.guid →
      ∀ g, c.isOn g = true → g = r.player.guid
  | _ => True

def Proper (s : Option (Channel Guid)) (r : Request Guid) : Prop :=
  ∀ c ∈ s, c.ownershipEnabled = true → c.Proper r

/-! ## Records of an owned channel -/

section Records

variable {c : Channel Guid} {o : Guid}

theorem isOn_iff (g : Guid) : c.isOn g = true ↔ ∃ info, c.info? g = some info := Option.isSome_iff_exists

theorem isEmpty_false_iff : c.isEmpty = false ↔ ∃ g, c.isOn g = true := by
  rw [← Bool.not_eq_true, c.isEmpty_iff, not_forall]
  simp only [Channel.isOn, Option.isSome_iff_ne_none, ne_eq]

theorem OwnedBy.isOn (h : OwnedBy c o) : c.isOn o = true := by
  obtain ⟨info, hInfo, -⟩ := h.record
  exact (isOn_iff o).mpr ⟨info, hInfo⟩

/-- The owner mark stands only on the record of the owner's guid. -/
def MarksOwner (c : Channel Guid) : Prop :=
  ∀ g info, c.info? g = some info → info.isOwner = true → c.ownerGuid = some g

theorem OwnedBy.marks (h : OwnedBy c o) : MarksOwner c := by
  intro g info hInfo hMark
  rw [h.guid, (h.marked g info hInfo).mp hMark]

theorem Ruled.marks (h : Ruled c) : MarksOwner c := by
  intro g info hInfo
  obtain ⟨o, hOwned⟩ := h.owner g ((isOn_iff g).mpr ⟨info, hInfo⟩)
  exact hOwned.marks g info hInfo

theorem MarksOwner.erase (h : MarksOwner c) (guid : Guid) : MarksOwner (c.erase guid) := by
  intro g info hInfo
  rw [c.info?_erase] at hInfo
  split at hInfo
  · cases hInfo
  · exact h g info hInfo

theorem MarksOwner.update (h : MarksOwner c) (guid : Guid) {f : PlayerInfo → PlayerInfo}
    (hf : ∀ info, (f info).isOwner = info.isOwner) : MarksOwner (c.update guid f) := by
  intro g info hInfo hMark
  rw [c.info?_update] at hInfo
  split at hInfo
  · obtain ⟨old, hOld, rfl⟩ := Option.map_eq_some_iff.mp hInfo
    exact h g old hOld ((hf old).symm.trans hMark)
  · exact h g info hInfo hMark

theorem MarksOwner.insert (h : MarksOwner c) (guid : Guid) {info : PlayerInfo}
    (hInfo : info.isOwner = false) : MarksOwner (c.insert guid info) := by
  intro g found hFound hMark
  rw [c.info?_insert] at hFound
  split at hFound
  · cases hOld : c.info? g with
    | none =>
      rw [hOld] at hFound
      obtain rfl := Option.some.inj hFound
      rw [Option.getD_none, hInfo] at hMark
      cases hMark
    | some old =>
      rw [hOld] at hFound
      obtain rfl := Option.some.inj hFound
      exact h g old hOld hMark
  · exact h g found hFound hMark

variable {guid : Guid}

theorem MarksOwner.appoint (h : MarksOwner c) (hOn : c.isOn guid = true) :
    OwnedBy (c.appoint guid) guid := by
  obtain ⟨old, hOld⟩ := (isOn_iff guid).mp hOn
  constructor
  · exact (c.appoint_frame guid).1
  · refine ⟨(old.setModerator true).setOwner true, ?_, rfl⟩
    rw [c.info?_appoint, if_pos rfl, hOld]
    rfl
  · intro g info hInfo
    rw [c.info?_appoint] at hInfo
    split at hInfo
    · rename_i hSelf
      obtain ⟨_, _, rfl⟩ := Option.map_eq_some_iff.mp hInfo
      exact iff_of_true rfl hSelf
    · rename_i hOther
      refine iff_of_false ?_ hOther
      split at hInfo
      · obtain ⟨_, _, rfl⟩ := Option.map_eq_some_iff.mp hInfo
        exact Bool.false_ne_true
      · rename_i hNotOwner
        exact fun hMark => hNotOwner (h g info hInfo hMark)

theorem OwnedBy.erase (h : OwnedBy c o) (hNe : guid ≠ o) : OwnedBy (c.erase guid) o := by
  obtain ⟨info, hInfo, hModerator⟩ := h.record
  constructor
  · exact h.guid
  · refine ⟨info, ?_, hModerator⟩
    rw [c.info?_erase, if_neg hNe.symm, hInfo]
  · intro g found hFound
    rw [c.info?_erase] at hFound
    split at hFound
    · cases hFound
    · exact h.marked g found hFound

theorem OwnedBy.insert (h : OwnedBy c o) (hNew : c.isOn guid = false) {info : PlayerInfo}
    (hMark : info.isOwner = false) : OwnedBy (c.insert guid info) o := by
  have hNe : o ≠ guid := by
    rintro rfl
    rw [h.isOn] at hNew
    cases hNew
  obtain ⟨old, hOld, hModerator⟩ := h.record
  constructor
  · exact h.guid
  · refine ⟨old, ?_, hModerator⟩
    rw [c.info?_insert, if_neg hNe, hOld]
  · intro g found hFound
    rw [c.info?_insert] at hFound
    split at hFound
    · rename_i hSelf
      rw [hSelf, Option.not_isSome_iff_eq_none.mp (Bool.eq_false_iff.mp hNew)] at hFound
      obtain rfl := Option.some.inj hFound
      rw [hSelf, Option.getD_none, hMark]
      exact iff_of_false Bool.false_ne_true hNe.symm
    · exact h.marked g found hFound

theorem OwnedBy.update (h : OwnedBy c o) (guid : Guid) {f : PlayerInfo → PlayerInfo}
    (hOwner : ∀ info, (f info).isOwner = info.isOwner)
    (hModerator : guid = o → ∀ info, info.isModerator = true → (f info).isModerator = true) :
    OwnedBy (c.update guid f) o := by
  obtain ⟨old, hOld, hOldModerator⟩ := h.record
  constructor
  · exact h.guid
  · rw [c.info?_update, hOld]
    split
    · rename_i hSelf
      exact ⟨f old, rfl, hModerator hSelf.symm old hOldModerator⟩
    · exact ⟨old, rfl, hOldModerator⟩
  · intro g info hInfo
    rw [c.info?_update] at hInfo
    split at hInfo
    · obtain ⟨before, hBefore, rfl⟩ := Option.map_eq_some_iff.mp hInfo
      rw [hOwner]
      exact h.marked g before hBefore
    · exact h.marked g info hInfo

theorem isOn_update (guid : Guid) (f : PlayerInfo → PlayerInfo) (g : Guid) :
    (c.update guid f).isOn g = c.isOn g := by
  rw [Channel.isOn, c.info?_update, Channel.isOn]
  split
  · exact Option.isSome_map
  · rfl

theorem isOn_appoint (guid g : Guid) : (c.appoint guid).isOn g = c.isOn g := by
  rw [Channel.isOn, c.info?_appoint, Channel.isOn]
  split
  · exact Option.isSome_map
  · split
    · exact Option.isSome_map
    · rfl

theorem isOn_erase (guid g : Guid) : (c.erase guid).isOn g = true ↔ g ≠ guid ∧ c.isOn g = true := by
  rw [Channel.isOn, c.info?_erase, Channel.isOn]
  split
  · rename_i h
    exact iff_of_false Bool.false_ne_true fun hNot => hNot.1 h
  · rename_i h
    exact (and_iff_right h).symm

theorem isOn_insert (guid : Guid) (info : PlayerInfo) (g : Guid) :
    (c.insert guid info).isOn g = true ↔ g = guid ∨ c.isOn g = true := by
  rw [Channel.isOn, c.info?_insert, Channel.isOn]
  split
  · rename_i h
    exact iff_of_true rfl (Or.inl h)
  · rename_i h
    exact (or_iff_right h).symm

theorem Ruled.banned_erase (h : Ruled c) (guid : Guid) :
    ∀ g ∈ c.bannedStore, (c.erase guid).isOn g = false := by
  intro g hBanned
  rw [Bool.eq_false_iff, Ne, isOn_erase, h.banned g hBanned]
  exact fun hOn => Bool.false_ne_true hOn.2

end Records

/-! ## Commands keep the rule -/

section Commands

variable {c : Channel Guid} (player : Player Guid)

theorem isOn_of_mayModerate (h : c.mayModerate player = true) : c.isOn player.guid = true := by
  rw [Channel.mayModerate] at h
  rw [Channel.isOn]
  split at h
  · cases h
  · rename_i hInfo
    rw [hInfo]
    rfl

theorem admits_iff (pass : String) : c.admits player pass = true →
    c.isOn player.guid = false ∧ player.guid ∉ c.bannedStore := by
  intro h
  simp only [Channel.admits, Bool.and_eq_true, Bool.not_eq_true', Channel.isBanned,
    decide_eq_false_iff_not] at h
  exact ⟨h.1.1.1, h.1.1.2⟩

theorem takesOver_iff (hCustom : c.channelId = 0) (hOwnership : c.ownershipEnabled = true) :
    c.takesOver player = true ↔
      (c.isEmpty = true ∨ player.isGMVisible = true) ∧ (c.ownerGuid = none ∨ c.isOwnerInvisible = true) := by
  simp only [Channel.takesOver, Channel.isConstant, hCustom, hOwnership, ne_eq, not_true_eq_false,
    decide_false, Bool.not_false, Bool.and_true, Bool.true_and, Bool.and_eq_true, Bool.or_eq_true,
    Option.isNone_iff_eq_none]

theorem Ruled.joinChannel (h : Ruled c) (hCustom : c.channelId = 0) (hOwnership : c.ownershipEnabled = true)
    (pass : String) (hOpen : c.admits player pass = true → c.isEmpty = true →
      c.ownerGuid = none ∨ c.isOwnerInvisible = true) : Ruled (c.joinChannel player pass) := by
  rw [Channel.joinChannel]
  split
  · rename_i hAdmits
    obtain ⟨hNew, hNotBanned⟩ := admits_iff player pass hAdmits
    have hBanned : ∀ g ∈ c.bannedStore, (c.enter player).isOn g = false := by
      intro g hg
      rw [Bool.eq_false_iff, Ne, Channel.enter, isOn_insert, h.banned g hg]
      rintro (rfl | hOn)
      · exact hNotBanned hg
      · cases hOn
    split
    · have hMarks : MarksOwner { c.enter player with isOwnerInvisible := !player.isGMVisible } :=
        h.marks.insert player.guid rfl
      have hOn : { c.enter player with isOwnerInvisible := !player.isGMVisible }.isOn player.guid = true :=
        (isOn_insert player.guid _ player.guid).mpr (Or.inl rfl)
      have hFrame := { c.enter player with isOwnerInvisible := !player.isGMVisible }.appoint_frame player.guid
      obtain ⟨-, -, -, -, hStore, hErased⟩ := hFrame
      constructor
      · exact fun _ _ => ⟨player.guid, (hMarks.appoint hOn).update player.guid (fun _ => rfl) fun _ _ _ => rfl⟩
      · intro g hg
        rw [isOn_update, isOn_appoint]
        exact hBanned g (hStore ▸ hg)
      · exact hErased.trans h.erased
    · rename_i hStays
      constructor
      · intro _ _
        cases hEmpty : c.isEmpty with
        | true => exact absurd ((takesOver_iff player hCustom hOwnership).mpr
            ⟨Or.inl hEmpty, hOpen hAdmits hEmpty⟩) hStays
        | false =>
          obtain ⟨g, hOn⟩ := isEmpty_false_iff.mp hEmpty
          obtain ⟨o, hOwned⟩ := h.owner g hOn
          exact ⟨o, hOwned.insert hNew rfl⟩
      · exact hBanned
      · exact h.erased
  · exact h

theorem Ruled.erase (h : Ruled c) {guid : Guid} (hNot : c.ownerGuid ≠ some guid) : Ruled (c.erase guid) := by
  constructor
  · intro g hOn
    obtain ⟨o, hOwned⟩ := h.owner g ((isOn_erase guid g).mp hOn).2
    have hNe : guid ≠ o := by
      rintro rfl
      exact hNot hOwned.guid
    exact ⟨o, hOwned.erase hNe⟩
  · exact h.banned_erase guid
  · exact h.erased

theorem Ruled.leaveChannel (h : Ruled c) (hCustom : c.channelId = 0) (hOwnership : c.ownershipEnabled = true) :
    Ruled (c.leaveChannel player) := by
  rw [Channel.leaveChannel]
  split
  · exact h
  · rename_i info hInfo
    obtain ⟨o, hOwned⟩ := h.owner player.guid ((isOn_iff player.guid).mpr ⟨info, hInfo⟩)
    split
    · rcases (c.erase player.guid).successor_spec with ⟨hNone, hEmpty⟩ | ⟨newOwner, hSome, hMember⟩
      · rw [hNone]
        constructor
        · intro g hOn
          rw [Channel.isOn, (Channel.isEmpty_iff _).mp hEmpty g] at hOn
          cases hOn
        · exact h.banned_erase player.guid
        · exact h.erased
      · rw [hSome]
        have hMarks := (h.marks.erase player.guid).update newOwner.1 (f := PlayerInfo.setModerator true) fun _ => rfl
        have hOn : ((c.erase player.guid).update newOwner.1 (PlayerInfo.setModerator true)).isOn newOwner.1 = true := by
          rw [isOn_update]
          exact (isOn_iff newOwner.1).mpr ⟨_, hMember⟩
        obtain ⟨-, -, -, -, hStore, hErased⟩ :=
          ((c.erase player.guid).update newOwner.1 (PlayerInfo.setModerator true)).appoint_frame newOwner.1
        obtain ⟨hGuid, hRecord, hMarked⟩ := hMarks.appoint hOn
        constructor
        · exact fun _ _ => ⟨newOwner.1, hGuid, hRecord, hMarked⟩
        · intro g hg
          refine (isOn_appoint newOwner.1 g).trans ((isOn_update newOwner.1 _ g).trans ?_)
          exact h.banned_erase player.guid g (hStore ▸ hg)
        · exact hErased.trans h.erased
    · rename_i hNotOwner
      refine h.erase fun hGuid => hNotOwner ?_
      have hMark : info.isOwner = true := by
        refine (hOwned.marked player.guid info hInfo).mpr ?_
        exact Option.some.inj (hGuid.symm.trans hOwned.guid)
      rw [Channel.isConstant, hCustom, hMark, hOwnership]
      rfl

theorem Ruled.update (h : Ruled c) (guid : Guid) {f : PlayerInfo → PlayerInfo}
    (hOwner : ∀ info, (f info).isOwner = info.isOwner)
    (hModerator : c.ownerGuid = some guid → ∀ info, info.isModerator = true → (f info).isModerator = true) :
    Ruled (c.update guid f) := by
  constructor
  · intro g hOn
    rw [isOn_update] at hOn
    obtain ⟨o, hOwned⟩ := h.owner g hOn
    exact ⟨o, hOwned.update guid hOwner fun hSelf => hModerator (hSelf ▸ hOwned.guid)⟩
  · intro g hg
    rw [isOn_update]
    exact h.banned g hg
  · exact h.erased

theorem Ruled.appoint (hMarks : MarksOwner c) (hBanned : ∀ g ∈ c.bannedStore, c.isOn g = false)
    (hErased : c.usedErased = false) {guid : Guid} (hOn : c.isOn guid = true) : Ruled (c.appoint guid) := by
  obtain ⟨-, -, -, -, hStore, hUsed⟩ := c.appoint_frame guid
  constructor
  · exact fun _ _ => ⟨guid, hMarks.appoint hOn⟩
  · intro g hg
    rw [isOn_appoint]
    exact hBanned g (hStore ▸ hg)
  · exact hUsed.trans hErased

theorem Ruled.banned_expelled (h : Ruled c) (victim : Guid) (ban : Bool) :
    ∀ g ∈ (c.expelled victim ban).bannedStore, (c.expelled victim ban).isOn g = false := by
  intro g hg
  rw [Channel.expelled] at hg
  split at hg
  · rcases Finset.mem_insert.mp hg with rfl | hOld
    · rw [Bool.eq_false_iff]
      exact fun hOn => ((isOn_erase g g).mp hOn).1 rfl
    · exact h.banned_erase victim g hOld
  · exact h.banned_erase victim g hg

theorem Ruled.expel (h : Ruled c) (hOwnership : c.ownershipEnabled = true) {good victim : Guid} (ban : Bool)
    (hGood : c.isOn good = true)
    (hSelf : c.ownerGuid = some victim → victim = good → ∀ g, c.isOn g = true → g = good) :
    Ruled (c.expel good victim ban) := by
  have hBanned := h.banned_expelled victim ban
  rw [Channel.expel]
  split
  · rename_i hChange
    obtain ⟨hOwner, -, hOthers⟩ := hChange
    obtain ⟨other, hOther⟩ := isEmpty_false_iff.mp hOthers
    obtain ⟨hNotVictim, hOtherOn⟩ := (isOn_erase victim other).mp hOther
    have hNe : good ≠ victim := by
      rintro rfl
      exact hNotVictim (hSelf hOwner rfl other hOtherOn)
    have hStays : (c.expelled victim ban).isOn good = true := (isOn_erase victim good).mpr ⟨hNe, hGood⟩
    obtain ⟨info, hInfo⟩ := (isOn_iff good).mp hStays
    have hMarks : MarksOwner (c.expelled victim ban) := h.marks.erase victim
    rw [Channel.crown, hInfo]
    have hCrowned := hMarks.update good (f := PlayerInfo.setModerator true) fun _ => rfl
    refine Ruled.appoint hCrowned ?_ h.erased ?_
    · intro g hg
      rw [isOn_update]
      exact hBanned g hg
    · rw [isOn_update]
      exact hStays
  · rename_i hKeep
    constructor
    · intro g hOn
      have hNot : c.ownerGuid ≠ some victim :=
        fun hOwner => hKeep ⟨hOwner, hOwnership, isEmpty_false_iff.mpr ⟨g, hOn⟩⟩
      obtain ⟨o, hGuid, hRecord, hMarked⟩ := (h.erase hNot).owner g hOn
      exact ⟨o, hGuid, hRecord, hMarked⟩
    · exact hBanned
    · exact h.erased

theorem Ruled.kickOrBan (h : Ruled c) (hOwnership : c.ownershipEnabled = true) (bad : Option (Player Guid))
    (ban : Bool) (hSelf : c.ownerGuid = some player.guid → bad.map Player.guid = some player.guid →
      ∀ g, c.isOn g = true → g = player.guid) : Ruled (c.kickOrBan player bad ban) := by
  unfold Channel.kickOrBan
  split
  · rename_i hMay
    split
    · exact h
    · rename_i bad
      split
      · split
        · exact h
        · refine h.expel hOwnership ban (isOn_of_mayModerate player hMay) ?_
          intro hOwner hSame
          exact hSelf (hSame ▸ hOwner) (congrArg some hSame)
      · exact h
  · exact h

theorem Ruled.unBan (h : Ruled c) (bad : Option (Player Guid)) : Ruled (c.unBan player bad) := by
  unfold Channel.unBan
  split
  · split
    · exact h
    · split
      · exact ⟨fun g hOn => (h.owner g hOn).imp fun o hOwned => ⟨hOwned.guid, hOwned.record, hOwned.marked⟩,
          fun g hg => h.banned g (Finset.mem_of_mem_erase hg), h.erased⟩
      · exact h
  · exact h

theorem Ruled.password (h : Ruled c) (pass : String) : Ruled (c.password player pass) := by
  rw [Channel.password]
  split
  · exact ⟨fun g hOn => (h.owner g hOn).imp fun o hOwned => ⟨hOwned.guid, hOwned.record, hOwned.marked⟩,
      h.banned, h.erased⟩
  · exact h

theorem Ruled.setMode (h : Ruled c) (p2n : String) (newp : Option (Player Guid)) (mod set : Bool)
    (hName : ∀ found ∈ newp, found.guid = player.guid → p2n = player.name) :
    Ruled (c.setMode player p2n newp mod set) := by
  unfold Channel.setMode
  split
  · split
    · exact h
    · rename_i hNotSelf
      split
      · exact h
      · rename_i newp
        split
        · split
          · exact h
          · rename_i hNotOwner
            split
            · rename_i hMod
              refine h.update newp.guid (fun _ => rfl) fun hOwner => ?_
              have hActor : c.ownerGuid = some player.guid := by
                by_contra hOther
                exact hNotOwner ⟨hOwner, hOther⟩
              have hSame : newp.guid = player.guid := Option.some.inj (hOwner.symm.trans hActor)
              exact absurd ⟨hActor, hName newp rfl hSame, hMod⟩ hNotSelf
            · exact h.update newp.guid (fun _ => rfl) fun _ _ hModerator => hModerator
        · exact h
  · exact h

theorem Ruled.setInvisible (h : Ruled c) (on : Bool) : Ruled (c.setInvisible player on) := by
  rw [Channel.setInvisible]
  split
  · exact h
  · have hUpdated := h.update player.guid (f := PlayerInfo.setInvisible on) (fun _ => rfl) fun _ _ hKeep => hKeep
    exact ⟨fun g hOn => (hUpdated.owner g hOn).imp fun o hOwned => ⟨hOwned.guid, hOwned.record, hOwned.marked⟩,
      hUpdated.banned, hUpdated.erased⟩

theorem Ruled.setOwner (h : Ruled c) (newp : Option (Player Guid)) : Ruled (c.setOwner player newp) := by
  unfold Channel.setOwner
  split
  · split
    · exact h
    · rename_i newp
      split
      · rename_i hReaches
        have hOn : c.isOn newp.guid = true := by
          rw [Channel.reaches, Bool.and_eq_true] at hReaches
          exact hReaches.1
        have hMarks := h.marks.update newp.guid (f := PlayerInfo.setModerator true) fun _ => rfl
        refine Ruled.appoint hMarks ?_ h.erased ?_
        · intro g hg
          rw [isOn_update]
          exact h.banned g hg
        · rw [isOn_update]
          exact hOn
      · exact h
  · exact h

theorem Ruled.handle (h : Ruled c) (hCustom : c.channelId = 0) (hOwnership : c.ownershipEnabled = true)
    (r : Request Guid) (hProper : c.Proper r) : Ruled (c.handle r) := by
  obtain ⟨online, player, hHere, command⟩ := r
  cases command with
  | join pass stored => exact h.joinChannel player hCustom hOwnership pass fun hAdmits => (hProper hAdmits).1
  | leave => exact h.leaveChannel player hCustom hOwnership
  | kickOrBan badname ban => exact h.kickOrBan player hOwnership _ ban hProper
  | unBan badname => exact h.unBan player _
  | password pass => exact h.password player pass
  | setMode p2n mod set =>
    refine h.setMode player p2n _ mod set fun found hFound hSame => ?_
    exact (findConnectedPlayerByName_self hHere hFound hSame).2
  | setInvisible on => exact h.setInvisible player on
  | setOwner newname => exact h.setOwner player _

end Commands

end AshamaneCore.Channels

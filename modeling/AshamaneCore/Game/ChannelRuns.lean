import AshamaneCore.Game.ChannelOwnership

/-!
# Runs of a channel

In every run the channel is ruled by its owner, and nobody else lays hands on him, as long
as every step is proper; every step that is not proper breaks one or the other.
-/

namespace AshamaneCore.Channels

open Library Library.Transition

variable {Guid : Type} [LinearOrder Guid]

/-! ## The owner is left alone -/

section Owner

variable {c : Channel Guid} {o : Guid} {info : PlayerInfo}

def OwnerRecord (c : Channel Guid) (o : Guid) (info : PlayerInfo) : Prop :=
  c.ownerGuid = some o ∧ c.info? o = some info

variable {guid : Guid}

theorem OwnerRecord.update (h : OwnerRecord c o info) (hNe : guid ≠ o)
    (f : PlayerInfo → PlayerInfo) : OwnerRecord (c.update guid f) o info := by
  refine ⟨h.1, ?_⟩
  rw [c.info?_update, if_neg hNe.symm]
  exact h.2

theorem OwnerRecord.erase (h : OwnerRecord c o info) (hNe : guid ≠ o) :
    OwnerRecord (c.erase guid) o info := by
  refine ⟨h.1, ?_⟩
  rw [c.info?_erase, if_neg hNe.symm]
  exact h.2

theorem OwnerRecord.insert (h : OwnerRecord c o info) (hNe : guid ≠ o) (new : PlayerInfo) :
    OwnerRecord (c.insert guid new) o info := by
  refine ⟨h.1, ?_⟩
  rw [c.info?_insert, if_neg hNe.symm]
  exact h.2

variable {player : Player Guid}

theorem OwnerRecord.kickOrBan (h : OwnerRecord c o info) (hNe : player.guid ≠ o)
    (hOrdinary : player.changeNotModerator = false) (bad : Option (Player Guid)) (ban : Bool) :
    OwnerRecord (c.kickOrBan player bad ban) o info := by
  have hOther : c.ownerGuid ≠ some player.guid := fun hSelf => hNe (Option.some.inj (hSelf.symm.trans h.1))
  unfold Channel.kickOrBan
  split
  · split
    · exact h
    · rename_i bad
      split
      · split
        · exact h
        · rename_i hNotRefused
          have hVictim : c.ownerGuid ≠ some bad.guid := fun hOwner => hNotRefused ⟨hOrdinary, hOwner, hOther⟩
          rw [Channel.expel, if_neg fun hChange => hVictim hChange.1]
          have hVictimNe : bad.guid ≠ o := by
            rintro rfl
            exact hVictim h.1
          exact h.erase hVictimNe
      · exact h
  · exact h

theorem OwnerRecord.setMode (h : OwnerRecord c o info) (hNe : player.guid ≠ o) (p2n : String)
    (newp : Option (Player Guid)) (mod set : Bool) : OwnerRecord (c.setMode player p2n newp mod set) o info := by
  have hOther : c.ownerGuid ≠ some player.guid := fun hSelf => hNe (Option.some.inj (hSelf.symm.trans h.1))
  unfold Channel.setMode
  split
  · split
    · exact h
    · split
      · exact h
      · rename_i newp
        split
        · split
          · exact h
          · rename_i hNotOwner
            have hVictim : newp.guid ≠ o := by
              rintro rfl
              exact hNotOwner ⟨h.1, hOther⟩
            split
            · exact h.update hVictim _
            · exact h.update hVictim _
        · exact h
  · exact h

theorem OwnerRecord.handle (h : OwnerRecord c o info) (hOwned : OwnedBy c o) {r : Request Guid}
    (hNe : r.player.guid ≠ o) (hOrdinary : r.player.changeNotModerator = false)
    (hJoin : ∀ pass stored, r.command = .join pass stored → c.admits r.player pass = true →
      c.takesOver r.player = false) : OwnerRecord (c.handle r) o info := by
  obtain ⟨online, player, hHere, command⟩ := r
  have hOther : c.ownerGuid ≠ some player.guid := fun hSelf => hNe (Option.some.inj (hSelf.symm.trans h.1))
  cases command with
  | join pass stored =>
    simp only [Channel.handle, Channel.joinChannel]
    split
    · rename_i hAdmits
      rw [if_neg (Bool.eq_false_iff.mp (hJoin pass stored rfl hAdmits))]
      exact h.insert hNe _
    · exact h
  | leave =>
    simp only [Channel.handle]
    rw [Channel.leaveChannel]
    split
    · exact h
    · rename_i left hLeft
      have hMark : left.isOwner = false :=
        Bool.eq_false_iff.mpr fun hMark => hNe ((hOwned.marked player.guid left hLeft).mp hMark)
      rw [hMark, Bool.and_false, Bool.false_and, if_neg Bool.false_ne_true]
      exact h.erase hNe
  | kickOrBan badname ban => exact h.kickOrBan hNe hOrdinary _ ban
  | unBan badname =>
    simp only [Channel.handle]
    unfold Channel.unBan
    split
    · split
      · exact h
      · split
        · exact h
        · exact h
    · exact h
  | password pass =>
    simp only [Channel.handle, Channel.password]
    split
    · exact h
    · exact h
  | setMode p2n mod set => exact h.setMode hNe p2n _ mod set
  | setInvisible on =>
    simp only [Channel.handle, Channel.setInvisible]
    split
    · exact h
    · exact h.update hNe _
  | setOwner newname =>
    have hMayNot : ¬ (c.isOn player.guid = true ∧
        (player.changeNotModerator = true ∨ c.ownerGuid = some player.guid)) := by
      rintro ⟨-, hPrivileged | hSelf⟩
      · rw [hOrdinary] at hPrivileged
        cases hPrivileged
      · exact hOther hSelf
    simp only [Channel.handle, Channel.setOwner, if_neg hMayNot]
    exact h

theorem OwnerRecord.isOn (h : OwnerRecord c o info) : c.isOn o = true := (isOn_iff o).mpr ⟨info, h.2⟩

theorem OwnerRecord.step {r : Request Guid} (h : OwnerRecord (c.handle r) o info) :
    step (some c) r = some (c.handle r) := by
  have hOpen : leftChannel (c.handle r) = some (c.handle r) := by
    rw [leftChannel, isEmpty_false_iff.mpr ⟨o, h.isOn⟩, if_neg Bool.false_ne_true]
  rw [Channels.step]
  split
  · rfl
  · exact hOpen
  · rfl

end Owner

/-! ## What breaks the rule -/

section Breaches

variable {c : Channel Guid} {player : Player Guid}

theorem joinChannel_of_admits {pass : String} (hAdmits : c.admits player pass = true)
    (hStays : c.takesOver player = false) : c.joinChannel player pass = c.enter player := by
  rw [Channel.joinChannel, if_pos hAdmits, hStays, if_neg Bool.false_ne_true]

theorem not_ruled_enter (hEmpty : c.isEmpty = true) : ¬ Ruled (c.enter player) := by
  intro h
  have hAbsent := c.isEmpty_iff.mp hEmpty
  have hOn : (c.enter player).isOn player.guid = true := (isOn_insert player.guid _ player.guid).mpr (Or.inl rfl)
  obtain ⟨o, hOwned⟩ := h.owner player.guid hOn
  obtain ⟨info, hInfo, -⟩ := hOwned.record
  have hMark := (hOwned.marked o info hInfo).mpr rfl
  rw [Channel.enter, c.info?_insert] at hInfo
  split at hInfo
  · rw [hAbsent o, Option.getD_none] at hInfo
    obtain rfl := Option.some.inj hInfo
    cases hMark
  · rw [hAbsent o] at hInfo
    cases hInfo

theorem joinChannel_ownerGuid {pass : String} (hAdmits : c.admits player pass = true)
    (hTakes : c.takesOver player = true) : (c.joinChannel player pass).ownerGuid = some player.guid := by
  rw [Channel.joinChannel, if_pos hAdmits, if_pos hTakes]
  exact (Channel.appoint_frame _ player.guid).1

theorem not_ruled_kickOrBan (h : Ruled c) (hOwnership : c.ownershipEnabled = true) {bad : Player Guid}
    (ban : Bool) (hOwner : c.ownerGuid = some player.guid) (hSelf : bad.guid = player.guid) {g : Guid}
    (hOn : c.isOn g = true) (hNe : g ≠ player.guid) : ¬ Ruled (c.kickOrBan player (some bad) ban) := by
  obtain ⟨o, hOwned⟩ := h.owner g hOn
  obtain rfl : o = player.guid := Option.some.inj (hOwned.guid.symm.trans hOwner)
  obtain ⟨info, hInfo, hModerator⟩ := hOwned.record
  have hMay : c.mayModerate player = true := by
    simp only [Channel.mayModerate, hInfo, hModerator, Bool.true_or]
  have hOthers : (c.expelled player.guid ban).isEmpty = false :=
    isEmpty_false_iff.mpr ⟨g, (isOn_erase player.guid g).mpr ⟨hNe, hOn⟩⟩
  have hGone : (c.expelled player.guid ban).info? player.guid = none := by
    refine (c.info?_erase player.guid player.guid).trans ?_
    rw [if_pos rfl]
  have hUsed : (c.kickOrBan player (some bad) ban).usedErased = true := by
    unfold Channel.kickOrBan
    rw [if_pos hMay]
    dsimp only
    rw [hSelf, if_pos hOwned.isOn, if_neg fun hRefused => hRefused.2.2 hOwner, Channel.expel,
      if_pos ⟨hOwner, hOwnership, hOthers⟩, Channel.crown, hGone]
    exact (Channel.appoint_frame _ player.guid).2.2.2.2.2
  intro hRuled
  rw [hRuled.erased] at hUsed
  cases hUsed

end Breaches

/-! ## Runs -/

/-- The channel is custom, and the rule holds of it if ownership is enabled. -/
def Kept (s : Option (Channel Guid)) : Prop :=
  ∀ c ∈ s, c.channelId = 0 ∧ (c.ownershipEnabled = true → Ruled c)

theorem ruled_newChannel (row : Row Guid) : Ruled (newChannel row) := by
  constructor
  · intro g hOn
    cases hOn
  · exact fun _ _ => rfl
  · rfl

theorem joinChannel_frame (c : Channel Guid) (player : Player Guid) (pass : String) :
    (c.joinChannel player pass).channelId = c.channelId ∧
      (c.joinChannel player pass).ownershipEnabled = c.ownershipEnabled := by
  rw [Channel.joinChannel]
  split
  · split
    · obtain ⟨-, hId, hOwnership, -⟩ :=
        { c.enter player with isOwnerInvisible := !player.isGMVisible }.appoint_frame player.guid
      exact ⟨hId, hOwnership⟩
    · exact ⟨rfl, rfl⟩
  · exact ⟨rfl, rfl⟩

theorem leaveChannel_frame (c : Channel Guid) (player : Player Guid) :
    (c.leaveChannel player).channelId = c.channelId ∧
      (c.leaveChannel player).ownershipEnabled = c.ownershipEnabled := by
  rw [Channel.leaveChannel]
  split
  · exact ⟨rfl, rfl⟩
  · split
    · split
      · exact ⟨rfl, rfl⟩
      · rename_i newOwner _
        obtain ⟨-, hId, hOwnership, -⟩ :=
          ((c.erase player.guid).update newOwner.1 (PlayerInfo.setModerator true)).appoint_frame newOwner.1
        exact ⟨hId, hOwnership⟩
    · exact ⟨rfl, rfl⟩

theorem expel_frame (c : Channel Guid) (good victim : Guid) (ban : Bool) :
    (c.expel good victim ban).channelId = c.channelId ∧
      (c.expel good victim ban).ownershipEnabled = c.ownershipEnabled := by
  rw [Channel.expel]
  split
  · rw [Channel.crown]
    split
    · obtain ⟨-, hId, hOwnership, -⟩ := { c.expelled victim ban with usedErased := true }.appoint_frame good
      exact ⟨hId, hOwnership⟩
    · obtain ⟨-, hId, hOwnership, -⟩ :=
        ((c.expelled victim ban).update good (PlayerInfo.setModerator true)).appoint_frame good
      exact ⟨hId, hOwnership⟩
  · exact ⟨rfl, rfl⟩

theorem handle_frame (c : Channel Guid) (r : Request Guid) :
    (c.handle r).channelId = c.channelId ∧ (c.handle r).ownershipEnabled = c.ownershipEnabled := by
  obtain ⟨online, player, hHere, command⟩ := r
  cases command with
  | join pass stored => exact joinChannel_frame c player pass
  | leave => exact leaveChannel_frame c player
  | kickOrBan badname ban =>
    simp only [Channel.handle]
    unfold Channel.kickOrBan
    split
    · split
      · exact ⟨rfl, rfl⟩
      · split
        · split
          · exact ⟨rfl, rfl⟩
          · exact expel_frame c player.guid _ ban
        · exact ⟨rfl, rfl⟩
    · exact ⟨rfl, rfl⟩
  | unBan badname =>
    simp only [Channel.handle]
    unfold Channel.unBan
    split
    · split
      · exact ⟨rfl, rfl⟩
      · split <;> exact ⟨rfl, rfl⟩
    · exact ⟨rfl, rfl⟩
  | password pass =>
    simp only [Channel.handle, Channel.password]
    split <;> exact ⟨rfl, rfl⟩
  | setMode p2n mod set =>
    simp only [Channel.handle]
    unfold Channel.setMode
    split
    · split
      · exact ⟨rfl, rfl⟩
      · split
        · exact ⟨rfl, rfl⟩
        · split
          · split
            · exact ⟨rfl, rfl⟩
            · split <;> exact ⟨rfl, rfl⟩
          · exact ⟨rfl, rfl⟩
    · exact ⟨rfl, rfl⟩
  | setInvisible on =>
    simp only [Channel.handle, Channel.setInvisible]
    split <;> exact ⟨rfl, rfl⟩
  | setOwner newname =>
    simp only [Channel.handle]
    unfold Channel.setOwner
    split
    · split
      · exact ⟨rfl, rfl⟩
      · rename_i newp _
        split
        · obtain ⟨-, hId, hOwnership, -⟩ :=
            (c.update newp.guid (PlayerInfo.setModerator true)).appoint_frame newp.guid
          exact ⟨hId, hOwnership⟩
        · exact ⟨rfl, rfl⟩
    · exact ⟨rfl, rfl⟩

variable {s : Option (Channel Guid)} {r : Request Guid}

theorem step_cases {c' : Channel Guid} (h : c' ∈ step s r) :
    ∃ c, c' = c.handle r ∧ (c ∈ s ∨ ∃ row, c = newChannel row ∧ r.joins = true) := by
  obtain ⟨online, player, hHere, command⟩ := r
  cases command with
  | join pass stored =>
    obtain rfl := Option.some.inj h
    cases s with
    | none => exact ⟨newChannel stored, rfl, Or.inr ⟨stored, rfl, rfl⟩⟩
    | some c => exact ⟨c, rfl, Or.inl rfl⟩
  | leave =>
    obtain ⟨c, hc, hLeft⟩ := Option.bind_eq_some_iff.mp h
    rw [leftChannel] at hLeft
    split at hLeft
    · cases hLeft
    · exact ⟨c, (Option.some.inj hLeft).symm, Or.inl hc⟩
  | kickOrBan badname ban =>
    obtain ⟨c, hc, rfl⟩ := Option.map_eq_some_iff.mp h
    exact ⟨c, rfl, Or.inl hc⟩
  | unBan badname =>
    obtain ⟨c, hc, rfl⟩ := Option.map_eq_some_iff.mp h
    exact ⟨c, rfl, Or.inl hc⟩
  | password pass =>
    obtain ⟨c, hc, rfl⟩ := Option.map_eq_some_iff.mp h
    exact ⟨c, rfl, Or.inl hc⟩
  | setMode p2n mod set =>
    obtain ⟨c, hc, rfl⟩ := Option.map_eq_some_iff.mp h
    exact ⟨c, rfl, Or.inl hc⟩
  | setInvisible on =>
    obtain ⟨c, hc, rfl⟩ := Option.map_eq_some_iff.mp h
    exact ⟨c, rfl, Or.inl hc⟩
  | setOwner newname =>
    obtain ⟨c, hc, rfl⟩ := Option.map_eq_some_iff.mp h
    exact ⟨c, rfl, Or.inl hc⟩

theorem Channel.proper_newChannel (row : Row Guid) (hJoin : r.joins = true) :
    (newChannel row).Proper r := by
  obtain ⟨online, player, hHere, command⟩ := r
  cases command with
  | join pass stored =>
    intro _
    refine ⟨fun _ => Or.inl rfl, fun hMark => ?_⟩
    cases hMark
  | _ => cases hJoin

theorem Kept.step {s : Option (Channel Guid)} (h : Kept s) {r : Request Guid} (hProper : Proper s r) :
    Kept (step s r) := by
  intro c' hc'
  obtain ⟨c, rfl, hBefore⟩ := step_cases hc'
  obtain ⟨hId, hOwnership⟩ := handle_frame c r
  rw [hId, hOwnership]
  rcases hBefore with hc | ⟨row, rfl, hJoin⟩
  · obtain ⟨hCustom, hRuled⟩ := h c hc
    exact ⟨hCustom, fun hOn => (hRuled hOn).handle hCustom hOn r (hProper c hc hOn)⟩
  · exact ⟨rfl, fun hOn => (ruled_newChannel row).handle rfl hOn r (Channel.proper_newChannel row hJoin)⟩

theorem ownerKept_of_proper (h : Kept s) (hProper : Proper s r) :
    OwnerKept s r := by
  intro c hc hOwnership o info hGuid hInfo hNe hOrdinary hVisible
  obtain rfl := Option.mem_def.mp hc
  obtain ⟨hCustom, hRuled⟩ := h c hc
  obtain ⟨o', hOwned⟩ := (hRuled hOwnership).owner o ((isOn_iff o).mpr ⟨info, hInfo⟩)
  obtain rfl : o' = o := Option.some.inj (hOwned.guid.symm.trans hGuid)
  have hStays : ∀ pass stored, r.command = .join pass stored → c.admits r.player pass = true →
      c.takesOver r.player = false := by
    intro pass stored hJoin hAdmits
    have hGivesWay := hProper c hc hOwnership
    rw [Channel.Proper, hJoin] at hGivesWay
    obtain ⟨-, hMark⟩ := hGivesWay hAdmits
    have hJoins : r.joins = true := by rw [Request.joins, hJoin]
    rw [Bool.eq_false_iff, Ne, takesOver_iff r.player hCustom hOwnership]
    rintro ⟨hEmpty | hSeen, hNone | hInvisible⟩
    · rw [isEmpty_false_iff.mpr ⟨_, hOwned.isOn⟩] at hEmpty
      cases hEmpty
    · rw [isEmpty_false_iff.mpr ⟨_, hOwned.isOn⟩] at hEmpty
      cases hEmpty
    · exact absurd (hGuid.symm.trans hNone) (Option.some_ne_none _)
    · have hHidden := hMark hInvisible hSeen hOrdinary _ info hGuid hInfo
      rw [hVisible hJoins] at hHidden
      cases hHidden
  have hKept := OwnerRecord.handle ⟨hGuid, hInfo⟩ hOwned hNe hOrdinary hStays
  exact ⟨c.handle r, hKept.step, hKept.1, hKept.2⟩

theorem proper_of_governed (h : Kept s)
    (hGoverned : Governed (step s r)) (hKept : OwnerKept s r) : Proper s r := by
  intro c hc hOwnership
  obtain rfl := Option.mem_def.mp hc
  obtain ⟨hCustom, hRuled⟩ := h c hc
  have hAfter := (handle_frame c r).2.trans hOwnership
  obtain ⟨online, player, hHere, command⟩ := r
  cases command with
  | join pass stored =>
    intro hAdmits
    have hRule : Ruled (c.joinChannel player pass) := hGoverned _ rfl hAfter
    constructor
    · intro hEmpty
      by_contra hStale
      have hStays : c.takesOver player = false := by
        rw [Bool.eq_false_iff, Ne, takesOver_iff player hCustom hOwnership]
        exact fun hTakes => hStale hTakes.2
      rw [joinChannel_of_admits hAdmits hStays] at hRule
      exact not_ruled_enter hEmpty hRule
    · intro hMark hSeen hOrdinary o info hGuid hInfo
      by_contra hVisible
      obtain ⟨hNew, -⟩ := admits_iff player pass hAdmits
      have hNe : player.guid ≠ o := by
        rintro rfl
        rw [Channel.isOn, hInfo] at hNew
        cases hNew
      obtain ⟨c', hStep, hOwner, -⟩ :=
        hKept c rfl hOwnership o info hGuid hInfo hNe hOrdinary fun _ => Bool.eq_false_iff.mpr hVisible
      obtain rfl := Option.some.inj hStep
      have hTaken := joinChannel_ownerGuid hAdmits
        ((takesOver_iff player hCustom hOwnership).mpr ⟨Or.inr hSeen, Or.inr hMark⟩)
      exact hNe (Option.some.inj (hTaken.symm.trans hOwner))
  | kickOrBan badname ban =>
    intro hOwner hSelf g hOn
    by_contra hNe
    obtain ⟨bad, hBad, hGuid⟩ := Option.map_eq_some_iff.mp hSelf
    have hRule : Ruled (c.kickOrBan player (findConnectedPlayerByName online badname) ban) :=
      hGoverned _ rfl hAfter
    rw [hBad] at hRule
    exact not_ruled_kickOrBan (hRuled hOwnership) hOwnership ban hOwner hGuid hOn hNe hRule
  | _ => trivial

theorem proper_iff (h : Kept s) (r : Request Guid) :
    Governed (step s r) ∧ OwnerKept s r ↔ Proper s r := by
  constructor
  · exact fun hGood => proper_of_governed h hGood.1 hGood.2
  · intro hProper
    refine ⟨fun c hc hOwnership => ?_, ownerKept_of_proper h hProper⟩
    exact (h.step hProper c hc).2 hOwnership

/-- From the opening of a channel on it is governed and its owner is left alone exactly as
long as every step is proper. -/
theorem channel_governed_iff (requests : List (Request Guid)) :
    ((∀ first, first <+: requests → Governed (run step none first)) ∧ Along step OwnerKept none requests) ↔
      Along step Proper none requests := by
  have hNone : Kept (none : Option (Channel Guid)) := fun c hc => absurd hc (Option.not_mem_none c)
  have hGoverned : Governed (none : Option (Channel Guid)) := fun c hc => absurd hc (Option.not_mem_none c)
  rw [reached_iff_steps, and_iff_right hGoverned, ← along_and]
  exact along_congr (I := Kept) (fun s r hs => proper_iff hs r) (fun s r hs hProper => hs.step hProper) hNone
    requests

/-! ## An owner who kicks himself -/

def guest (guid : Nat) (name : String) : Player Nat := ⟨guid, name, 0, true, false, false, false⟩

def guests : Online Nat := ⟨[guest 1 "Anna", guest 2 "Boris"], by decide⟩

def opened : Row Nat := ⟨true, "", ∅⟩

def selfKick : List (Request Nat) :=
  [⟨guests, guest 1 "Anna", List.mem_cons_self, .join "" opened⟩,
    ⟨guests, guest 2 "Boris", List.mem_cons_of_mem _ List.mem_cons_self, .join "" opened⟩,
    ⟨guests, guest 1 "Anna", List.mem_cons_self, .kickOrBan "Anna" false⟩]

/-- The first member kicks himself: the erased record is written to, and the channel is
left to a guid that is not on it. -/
theorem self_kick_leaves_no_owner :
    (∃ c, run step none selfKick = some c ∧ c.ownershipEnabled = true ∧ c.isOn 2 = true ∧
      c.ownerGuid = some 1 ∧ c.isOn 1 = false ∧ c.usedErased = true) ∧
    ¬ ((∀ first, first <+: selfKick → Governed (run step none first)) ∧
      Along step OwnerKept none selfKick) := by
  have hRun : ∃ c, run step none selfKick = some c ∧ c.ownershipEnabled = true ∧ c.isOn 2 = true ∧
      c.ownerGuid = some 1 ∧ c.isOn 1 = false ∧ c.usedErased = true := ⟨_, rfl, rfl, rfl, rfl, rfl, rfl⟩
  refine ⟨hRun, fun hGood => ?_⟩
  obtain ⟨c, hc, hOwnership, -, -, -, hUsed⟩ := hRun
  have hRuled := hGood.1 selfKick (List.prefix_refl selfKick) c hc hOwnership
  rw [hRuled.erased] at hUsed
  cases hUsed

end AshamaneCore.Channels

import AshamaneCore.Game.CalendarMgr

/-!
# The ids of events and invites

Live events have the ids that their pool has in use, and stored invites have
different ids among those in use, as long as no guild announcement is added.
-/

namespace AshamaneCore.Calendar

open Library Library.Transition

/-- The ids of live objects are unique, and the pools account for every number. -/
structure IdsUnique (s : State) : Prop where
  events : (s.events.map CalendarEvent.eventId).Nodup
  invites : (s.invites.map CalendarInvite.inviteId).Nodup
  eventIds : s.eventIds.Sound
  inviteIds : s.inviteIds.Sound

structure EventsKept (s : State) : Prop where
  live : (s.events.map CalendarEvent.eventId).Perm s.eventIds.used
  sound : s.eventIds.Sound
  bound : s.eventIds.max < idSize

/-- An invite that was never stored keeps its id in use. -/
structure InvitesKept (s : State) : Prop where
  nodup : (s.invites.map CalendarInvite.inviteId).Nodup
  stored : ∀ invite ∈ s.invites, invite.inviteId ∈ s.inviteIds.used
  sound : s.inviteIds.Sound
  bound : s.inviteIds.max < idSize

variable {s : State}

theorem EventsKept.nodup (h : EventsKept s) : (s.events.map CalendarEvent.eventId).Nodup :=
  h.live.nodup_iff.mpr h.sound.nodup_used

theorem idsUnique_of_kept (h : EventsKept s ∧ InvitesKept s) : IdsUnique s :=
  ⟨h.1.nodup, h.2.nodup, h.1.sound, h.2.sound⟩

/-! ## What a request asks of the pools -/

def eventDemand (s : State) : Request → Nat
  | .addEvent inPast _ _ _ _ => if inPast then 0 else 1
  | .copyEvent inPast eventId => if inPast then 0 else if (getEvent s eventId).isSome then 1 else 0
  | _ => 0

def inviteDemand (s : State) : Request → Nat
  | .addEvent inPast _ _ _ invitees => if inPast then 0 else invitees.length
  | .copyEvent inPast eventId =>
    if inPast then 0 else if (getEvent s eventId).isSome then (getEventInvites s eventId).length else 0
  | .eventInvite _ eventId _ inviteeGuildId =>
    match getEvent s eventId with
    | none => 0
    | some event => if event.isGuildEvent = true ∧ event.guildId = inviteeGuildId then 0 else 1
  | .preInvite refused => if refused then 0 else 1
  | .signup _ guildId eventId =>
    match getEvent s eventId with
    | none => 0
    | some event => if event.isGuildEvent = true ∧ event.guildId ≠ guildId then 0 else 1
  | _ => 0

def announces : Request → Bool
  | .addEvent inPast _ _ flags _ => !inPast && hasFlag flags calendarFlagWithoutInvites
  | _ => false

def Orderly (s : State) (r : Request) : Prop :=
  announces r = false ∧ s.eventIds.Room idSize (eventDemand s r) ∧ s.inviteIds.Room idSize (inviteDemand s r)

/-! ## Invites -/

theorem newInvite_inviteIds (s : State) (event : CalendarEvent) (invitee sender : Nat) :
    (newInvite s event invitee sender).inviteIds = s.inviteIds.take idSize := by
  rw [newInvite, addInvite]
  split <;> rfl

theorem newInvite_events (s : State) (event : CalendarEvent) (invitee sender : Nat) :
    (newInvite s event invitee sender).events = s.events := by
  rw [newInvite, addInvite]
  split <;> rfl

theorem newInvite_eventIds (s : State) (event : CalendarEvent) (invitee sender : Nat) :
    (newInvite s event invitee sender).eventIds = s.eventIds := by
  rw [newInvite, addInvite]
  split <;> rfl

/-- Invites are created one after another; what each is made from does not matter to the ids. -/
def newInvites {α : Type} (event : CalendarEvent) (invitee sender : α → Nat) (s : State) (l : List α) : State :=
  l.foldl (fun s a => newInvite s event (invitee a) (sender a)) s

variable {α : Type} (event : CalendarEvent) (invitee sender : α → Nat)

theorem newInvites_frame (s : State) (l : List α) :
    (newInvites event invitee sender s l).events = s.events ∧
    (newInvites event invitee sender s l).eventIds = s.eventIds ∧
    (newInvites event invitee sender s l).inviteIds = s.inviteIds.takeMany idSize l.length := by
  induction l generalizing s with
  | nil => exact ⟨rfl, rfl, rfl⟩
  | cons a l ih =>
    obtain ⟨hEvents, hEventIds, hInviteIds⟩ := ih (newInvite s event (invitee a) (sender a))
    rw [newInvite_events] at hEvents
    rw [newInvite_eventIds] at hEventIds
    rw [newInvite_inviteIds] at hInviteIds
    exact ⟨hEvents, hEventIds, hInviteIds⟩

theorem InvitesKept.newInvite (h : InvitesKept s) {k : Nat}
    (hRoom : s.inviteIds.Room idSize (k + 1)) (event : CalendarEvent) (invitee sender : Nat) :
    InvitesKept (newInvite s event invitee sender) ∧
      (Calendar.newInvite s event invitee sender).inviteIds.Room idSize k := by
  obtain ⟨hSound, hBound, hLater, hNew⟩ := h.sound.take h.bound hRoom
  have hUsed : ∀ id ∈ s.inviteIds.used, id ∈ (s.inviteIds.take idSize).used :=
    fun id hId => List.mem_cons_of_mem _ hId
  have hRest := newInvite_inviteIds s event invitee sender
  refine ⟨?_, hRest ▸ hLater⟩
  constructor
  · rw [Calendar.newInvite, addInvite]
    split
    · exact h.nodup
    · rw [List.map_append, List.map_singleton]
      refine List.nodup_append'.mpr ⟨h.nodup, List.nodup_singleton _, ?_⟩
      refine List.disjoint_singleton.mpr fun hOld => ?_
      obtain ⟨invite, hInvite, hId⟩ := List.mem_map.mp hOld
      have hStored := h.stored invite hInvite
      rw [hId] at hStored
      exact hNew hStored
  · rw [hRest, Calendar.newInvite, addInvite]
    split
    · exact fun invite hInvite => hUsed _ (h.stored invite hInvite)
    · intro invite hInvite
      rcases List.mem_append.mp hInvite with hOld | hAdded
      · exact hUsed _ (h.stored invite hOld)
      · rw [List.mem_singleton.mp hAdded]
        exact List.mem_cons_self
  · exact hRest ▸ hSound
  · exact hRest ▸ hBound

theorem InvitesKept.newInvites (h : InvitesKept s) {l : List α}
    (hRoom : s.inviteIds.Room idSize l.length) :
    InvitesKept (Calendar.newInvites event invitee sender s l) := by
  induction l generalizing s with
  | nil => exact h
  | cons a l ih =>
    obtain ⟨hNext, hRest⟩ := h.newInvite hRoom event (invitee a) (sender a)
    exact ih hNext hRest

theorem InvitesKept.deleteInvite (h : InvitesKept s) {invite : CalendarInvite}
    (hStored : invite ∈ s.invites) : InvitesKept (deleteInvite s invite) := by
  have hSublist : (s.invites.erase invite).Sublist s.invites := List.erase_sublist
  constructor
  · exact h.nodup.sublist (hSublist.map _)
  · intro other hOther
    have hOld := hSublist.subset hOther
    have hList := h.nodup.of_map
    have hNe : other.inviteId ≠ invite.inviteId := by
      intro hSame
      have hEq := List.inj_on_of_nodup_map h.nodup hOld hStored hSame
      exact (hList.not_mem_erase) (hEq ▸ hOther)
    exact (List.mem_erase_of_ne hNe).mpr (h.stored other hOld)
  · exact h.sound.release (h.stored invite hStored)
  · exact IdPool.release_max_lt h.bound

theorem InvitesKept.foldl_deleteInvite (h : InvitesKept s) {l : List CalendarInvite}
    (hNodup : l.Nodup) (hStored : ∀ invite ∈ l, invite ∈ s.invites) :
    InvitesKept (l.foldl Calendar.deleteInvite s) ∧ (l.foldl Calendar.deleteInvite s).events = s.events ∧
      (l.foldl Calendar.deleteInvite s).eventIds = s.eventIds := by
  induction l generalizing s with
  | nil => exact ⟨h, rfl, rfl⟩
  | cons invite l ih =>
    obtain ⟨hFirst, hRest⟩ := List.nodup_cons.mp hNodup
    have hHere := hStored invite List.mem_cons_self
    have hLater : ∀ other ∈ l, other ∈ (Calendar.deleteInvite s invite).invites := by
      intro other hOther
      have hNe : other ≠ invite := fun hSame => hFirst (hSame ▸ hOther)
      exact (List.mem_erase_of_ne hNe).mpr (hStored other (List.mem_cons_of_mem _ hOther))
    exact ih (h.deleteInvite hHere) hRest hLater

/-! ## Events -/

theorem EventsKept.addEvent (h : EventsKept s) (hRoom : s.eventIds.Room idSize 1) {s' : State}
    {event : CalendarEvent} (hId : event.eventId = s.eventIds.next idSize) (hEvents : s'.events = s.events)
    (hEventIds : s'.eventIds = s.eventIds.take idSize) : EventsKept (addEvent s' event) := by
  obtain ⟨hSound, hBound, -, -⟩ := h.sound.take (k := 0) h.bound hRoom
  constructor
  · rw [Calendar.addEvent, hEvents, hEventIds, List.map_append, List.map_singleton, hId]
    exact (List.perm_append_singleton _ _).trans (h.live.cons _)
  · exact hEventIds ▸ hSound
  · exact hEventIds ▸ hBound

theorem EventsKept.eraseEvent (h : EventsKept s) {event : CalendarEvent} (hLive : event ∈ s.events)
    {s' : State} (hEvents : s'.events = s.events.erase event)
    (hEventIds : s'.eventIds = s.eventIds.release idSize event.eventId) : EventsKept s' := by
  have hUsed : event.eventId ∈ s.eventIds.used := h.live.mem_iff.mp (List.mem_map_of_mem hLive)
  constructor
  · rw [hEvents, hEventIds]
    have hSplit := ((List.perm_cons_erase hLive).map CalendarEvent.eventId).symm.trans h.live
    rw [List.map_cons] at hSplit
    have hErased := hSplit.erase event.eventId
    rwa [List.erase_cons_head] at hErased
  · exact hEventIds ▸ h.sound.release hUsed
  · exact hEventIds ▸ IdPool.release_max_lt h.bound

variable {eventId : Nat}

theorem getEvent_spec {event : CalendarEvent} (h : getEvent s eventId = some event) :
    event ∈ s.events ∧ event.eventId = eventId := by
  have hFound := List.find?_some h
  exact ⟨List.mem_of_find?_eq_some h, of_decide_eq_true hFound⟩

/-! ## Requests -/

theorem room_zero (p : IdPool) : p.Room idSize 0 := Nat.zero_le _

theorem events_newInvite (h : EventsKept s) (event : CalendarEvent) (invitee sender : Nat) :
    EventsKept (newInvite s event invitee sender) := by
  constructor
  · rw [newInvite_events, newInvite_eventIds]
    exact h.live
  · exact newInvite_eventIds s event invitee sender ▸ h.sound
  · exact newInvite_eventIds s event invitee sender ▸ h.bound

theorem kept_newInvite (h : EventsKept s ∧ InvitesKept s) (hRoom : s.inviteIds.Room idSize 1)
    (event : CalendarEvent) (invitee sender : Nat) :
    EventsKept (newInvite s event invitee sender) ∧ InvitesKept (newInvite s event invitee sender) :=
  ⟨events_newInvite h.1 event invitee sender, (h.2.newInvite hRoom event invitee sender).1⟩

theorem handleAddEvent_spec (s : State) (guid guildId flags : Nat) (invitees : List Nat) :
    ∃ event : CalendarEvent, event.eventId = s.eventIds.next idSize ∧
      event.isGuildAnnouncement = hasFlag flags calendarFlagWithoutInvites ∧
      handleAddEvent s false guid guildId flags invitees =
        if event.isGuildAnnouncement then addEvent (freeInviteId (getFreeEventId s) 0) event
        else addEvent (newInvites event id (fun _ => guid) (getFreeEventId s) invitees) event := by
  rw [handleAddEvent, if_neg Bool.false_ne_true]
  exact ⟨_, rfl, rfl, rfl⟩

variable {guid : Nat}

theorem kept_addEvent (h : EventsKept s ∧ InvitesKept s) {inPast : Bool} {guildId flags : Nat}
    {invitees : List Nat} (hOrderly : Orderly s (.addEvent inPast guid guildId flags invitees)) :
    EventsKept (handleAddEvent s inPast guid guildId flags invitees) ∧
      InvitesKept (handleAddEvent s inPast guid guildId flags invitees) := by
  obtain ⟨hAnnounces, hEventRoom, hInviteRoom⟩ := hOrderly
  cases inPast with
  | true => exact h
  | false =>
    obtain ⟨event, hId, hFlag, hStep⟩ := handleAddEvent_spec s guid guildId flags invitees
    have hPlain : hasFlag flags calendarFlagWithoutInvites = false := hAnnounces
    rw [hPlain] at hFlag
    rw [hStep, hFlag, if_neg Bool.false_ne_true]
    obtain ⟨hEvents, hEventIds, -⟩ := newInvites_frame event id (fun _ => guid) (getFreeEventId s) invitees
    have hCreated : InvitesKept (getFreeEventId s) := ⟨h.2.nodup, h.2.stored, h.2.sound, h.2.bound⟩
    have hAll := hCreated.newInvites event id (fun _ => guid) hInviteRoom
    exact ⟨h.1.addEvent hEventRoom hId hEvents hEventIds, ⟨hAll.nodup, hAll.stored, hAll.sound, hAll.bound⟩⟩

theorem handleCopyEvent_ids {old : CalendarEvent} (hOld : getEvent s eventId = some old) :
    (handleCopyEvent s false eventId).eventIds = s.eventIds.takeMany idSize (eventDemand s (.copyEvent false eventId)) ∧
    (handleCopyEvent s false eventId).inviteIds =
      s.inviteIds.takeMany idSize (inviteDemand s (.copyEvent false eventId)) := by
  rw [handleCopyEvent, eventDemand, inviteDemand]
  simp only [hOld, Bool.false_eq_true, if_false, Option.isSome_some, if_true]
  obtain ⟨-, hEventIds, hInviteIds⟩ := newInvites_frame { old with eventId := s.eventIds.next idSize }
    CalendarInvite.invitee CalendarInvite.senderGUID
    (addEvent (getFreeEventId s) { old with eventId := s.eventIds.next idSize })
    (getEventInvites (addEvent (getFreeEventId s) { old with eventId := s.eventIds.next idSize }) eventId)
  exact ⟨hEventIds, hInviteIds⟩

theorem kept_copyEvent (h : EventsKept s ∧ InvitesKept s) {inPast : Bool}
    (hOrderly : Orderly s (.copyEvent inPast eventId)) :
    EventsKept (handleCopyEvent s inPast eventId) ∧ InvitesKept (handleCopyEvent s inPast eventId) := by
  obtain ⟨-, hEventRoom, hInviteRoom⟩ := hOrderly
  rw [eventDemand] at hEventRoom
  rw [inviteDemand] at hInviteRoom
  rw [handleCopyEvent]
  cases inPast with
  | true => exact h
  | false =>
    cases hOld : getEvent s eventId with
    | none => exact h
    | some old =>
      simp only [hOld, Bool.false_eq_true, if_false, Option.isSome_some, if_true] at hEventRoom hInviteRoom ⊢
      generalize hEvent : { old with eventId := s.eventIds.next idSize } = event
      have hAdded : EventsKept (addEvent (getFreeEventId s) event) :=
        h.1.addEvent hEventRoom (hEvent ▸ rfl) rfl rfl
      have hInvites : InvitesKept (addEvent (getFreeEventId s) event) :=
        ⟨h.2.nodup, h.2.stored, h.2.sound, h.2.bound⟩
      obtain ⟨hEvents, hEventIds, -⟩ := newInvites_frame event CalendarInvite.invitee
        CalendarInvite.senderGUID (addEvent (getFreeEventId s) event)
        (getEventInvites (addEvent (getFreeEventId s) event) eventId)
      constructor
      · constructor
        · exact hEvents ▸ hEventIds ▸ hAdded.live
        · exact hEventIds ▸ hAdded.sound
        · exact hEventIds ▸ hAdded.bound
      · exact hInvites.newInvites event CalendarInvite.invitee CalendarInvite.senderGUID hInviteRoom

theorem kept_updateEvent (h : EventsKept s ∧ InvitesKept s) (inPast : Bool) (eventId flags : Nat) :
    EventsKept (handleUpdateEvent s inPast eventId flags) ∧
      InvitesKept (handleUpdateEvent s inPast eventId flags) := by
  rw [handleUpdateEvent]
  cases inPast with
  | true => exact h
  | false =>
    refine ⟨⟨?_, h.1.sound, h.1.bound⟩, ⟨h.2.nodup, h.2.stored, h.2.sound, h.2.bound⟩⟩
    have hIds : (CalendarEvent.eventId ∘ fun event : CalendarEvent =>
        if event.eventId = eventId then { event with flags } else event) = CalendarEvent.eventId := by
      funext event
      rw [Function.comp_apply]
      split <;> rfl
    simp only [Bool.false_eq_true, if_false, List.map_map, hIds]
    exact h.1.live

theorem kept_eventInvite (h : EventsKept s ∧ InvitesKept s) {invitee inviteeGuildId : Nat}
    (hOrderly : Orderly s (.eventInvite guid eventId invitee inviteeGuildId)) :
    EventsKept (handleEventInvite s guid eventId invitee inviteeGuildId) ∧
      InvitesKept (handleEventInvite s guid eventId invitee inviteeGuildId) := by
  obtain ⟨-, -, hRoom⟩ := hOrderly
  rw [inviteDemand] at hRoom
  rw [handleEventInvite]
  cases hEvent : getEvent s eventId with
  | none => exact h
  | some event =>
    simp only [hEvent] at hRoom ⊢
    split
    · exact h
    · rename_i hAllowed
      rw [if_neg hAllowed] at hRoom
      exact kept_newInvite h hRoom event invitee guid

theorem kept_signup (h : EventsKept s ∧ InvitesKept s) {guildId : Nat}
    (hOrderly : Orderly s (.signup guid guildId eventId)) :
    EventsKept (handleSignup s guid guildId eventId) ∧ InvitesKept (handleSignup s guid guildId eventId) := by
  obtain ⟨-, -, hRoom⟩ := hOrderly
  rw [inviteDemand] at hRoom
  rw [handleSignup]
  cases hEvent : getEvent s eventId with
  | none => exact h
  | some event =>
    simp only [hEvent] at hRoom ⊢
    split
    · exact h
    · rename_i hAllowed
      rw [if_neg hAllowed] at hRoom
      exact kept_newInvite h hRoom event guid guid

theorem kept_preInvite (h : EventsKept s ∧ InvitesKept s) {refused : Bool}
    (hOrderly : Orderly s (.preInvite refused)) :
    EventsKept (handlePreInvite s refused) ∧ InvitesKept (handlePreInvite s refused) := by
  obtain ⟨-, -, hRoom⟩ := hOrderly
  rw [handlePreInvite]
  cases refused with
  | true => exact h
  | false =>
    refine ⟨⟨h.1.live, h.1.sound, h.1.bound⟩, ?_⟩
    obtain ⟨hSound, hBound, -, -⟩ := h.2.sound.take (k := 0) h.2.bound hRoom
    have hUsed : s.inviteIds.next idSize ∈ (s.inviteIds.take idSize).used := List.mem_cons_self
    constructor
    · exact h.2.nodup
    · intro invite hInvite
      have hBack : ((s.inviteIds.take idSize).release idSize (s.inviteIds.next idSize)).used = s.inviteIds.used :=
        List.erase_cons_head ..
      exact hBack ▸ h.2.stored invite hInvite
    · exact hSound.release hUsed
    · exact IdPool.release_max_lt hBound

theorem kept_removeEvent (h : EventsKept s ∧ InvitesKept s) (eventId : Nat) :
    EventsKept (removeEvent s eventId) ∧ InvitesKept (removeEvent s eventId) := by
  rw [removeEvent]
  cases hEvent : getEvent s eventId with
  | none => exact h
  | some event =>
    obtain ⟨hLive, -⟩ := getEvent_spec hEvent
    have hNodup : (getEventInvites s eventId).Nodup := h.2.nodup.of_map.filter _
    obtain ⟨hInvites, hEvents, hEventIds⟩ := h.2.foldl_deleteInvite hNodup
      fun invite hInvite => (List.mem_filter.mp hInvite).1
    constructor
    · apply h.1.eraseEvent hLive
      · exact congrArg (List.erase · event) hEvents
      · exact congrArg (IdPool.release idSize · event.eventId) hEventIds
    · exact ⟨hInvites.nodup, hInvites.stored, hInvites.sound, hInvites.bound⟩

theorem kept_removeInvite (h : EventsKept s ∧ InvitesKept s) (inviteId eventId guid : Nat) :
    EventsKept (handleRemoveInvite s inviteId eventId guid) ∧
      InvitesKept (handleRemoveInvite s inviteId eventId guid) := by
  rw [handleRemoveInvite]
  split
  · exact h
  · split
    · exact h
    · rw [removeInvite]
      split
      · exact h
      · rename_i invite hFound
        have hStored := (List.mem_filter.mp (List.mem_of_find?_eq_some hFound)).1
        exact ⟨⟨h.1.live, h.1.sound, h.1.bound⟩, h.2.deleteInvite hStored⟩

variable {r : Request}

theorem kept_step (h : EventsKept s ∧ InvitesKept s) (hOrderly : Orderly s r) :
    EventsKept (step s r) ∧ InvitesKept (step s r) := by
  cases r with
  | addEvent inPast guid guildId flags invitees => exact kept_addEvent h hOrderly
  | updateEvent inPast eventId flags => exact kept_updateEvent h inPast eventId flags
  | copyEvent inPast eventId => exact kept_copyEvent h hOrderly
  | eventInvite guid eventId invitee inviteeGuildId => exact kept_eventInvite h hOrderly
  | preInvite refused => exact kept_preInvite h hOrderly
  | signup guid guildId eventId => exact kept_signup h hOrderly
  | removeEvent eventId => exact kept_removeEvent h eventId
  | removeInvite inviteId eventId guid => exact kept_removeInvite h inviteId eventId guid

/-! ## Disorderly requests -/

theorem not_sound_of_zero {p : IdPool} (h : 0 ∈ p.handed) : ¬ p.Sound := fun hSound => hSound.positive h

theorem not_sound_of_announces (h : InvitesKept s) (hAnnounces : announces r = true) :
    ¬ (step s r).inviteIds.Sound := by
  cases r with
  | addEvent inPast guid guildId flags invitees =>
    cases inPast with
    | true => cases hAnnounces
    | false =>
      obtain ⟨event, -, hFlag, hStep⟩ := handleAddEvent_spec s guid guildId flags invitees
      have hAnnounced : hasFlag flags calendarFlagWithoutInvites = true := hAnnounces
      rw [step, hStep, hFlag, hAnnounced, if_pos rfl]
      exact h.sound.release_zero (by decide)
  | _ => cases hAnnounces

theorem zero_event_of_full (h : EventsKept s)
    (hFull : ¬ s.eventIds.Room idSize (eventDemand s r)) : 0 ∈ (step s r).eventIds.handed := by
  have hTake : ¬ s.eventIds.Room idSize 1 → 0 ∈ (s.eventIds.take idSize).handed :=
    IdPool.zero_handed_of_full h.sound h.bound
  cases r with
  | addEvent inPast guid guildId flags invitees =>
    cases inPast with
    | true => exact absurd (room_zero _) hFull
    | false =>
      obtain ⟨event, -, -, hStep⟩ := handleAddEvent_spec s guid guildId flags invitees
      rw [step, hStep]
      split
      · exact hTake hFull
      · obtain ⟨-, hEventIds, -⟩ := newInvites_frame event id (fun _ => guid) (getFreeEventId s) invitees
        exact hEventIds ▸ hTake hFull
  | copyEvent inPast eventId =>
    cases inPast with
    | true => exact absurd (room_zero _) hFull
    | false =>
      cases hOld : getEvent s eventId with
      | none =>
        rw [eventDemand, hOld] at hFull
        exact absurd (room_zero _) hFull
      | some old =>
        rw [step, (handleCopyEvent_ids hOld).1]
        exact IdPool.zero_handed_of_full h.sound h.bound hFull
  | _ => exact absurd (room_zero _) hFull

theorem zero_invite_of_full (h : InvitesKept s) (hPlain : announces r = false)
    (hFull : ¬ s.inviteIds.Room idSize (inviteDemand s r)) : 0 ∈ (step s r).inviteIds.handed := by
  have hTake : ¬ s.inviteIds.Room idSize 1 → 0 ∈ (s.inviteIds.take idSize).handed :=
    IdPool.zero_handed_of_full h.sound h.bound
  cases r with
  | addEvent inPast guid guildId flags invitees =>
    cases inPast with
    | true => exact absurd (room_zero _) hFull
    | false =>
      obtain ⟨event, -, hFlag, hStep⟩ := handleAddEvent_spec s guid guildId flags invitees
      have hUnflagged : hasFlag flags calendarFlagWithoutInvites = false := hPlain
      rw [step, hStep, hFlag, hUnflagged, if_neg Bool.false_ne_true]
      obtain ⟨-, -, hInviteIds⟩ := newInvites_frame event id (fun _ => guid) (getFreeEventId s) invitees
      exact hInviteIds ▸ IdPool.zero_handed_of_full h.sound h.bound hFull
  | copyEvent inPast eventId =>
    cases inPast with
    | true => exact absurd (room_zero _) hFull
    | false =>
      cases hOld : getEvent s eventId with
      | none =>
        rw [inviteDemand, hOld] at hFull
        exact absurd (room_zero _) hFull
      | some old =>
        rw [step, (handleCopyEvent_ids hOld).2]
        exact IdPool.zero_handed_of_full h.sound h.bound hFull
  | eventInvite guid eventId invitee inviteeGuildId =>
    rw [inviteDemand] at hFull
    rw [step, handleEventInvite]
    cases hEvent : getEvent s eventId with
    | none =>
      rw [hEvent] at hFull
      exact absurd (room_zero _) hFull
    | some event =>
      simp only [hEvent] at hFull ⊢
      split at hFull
      · exact absurd (room_zero _) hFull
      · rename_i hAllowed
        rw [if_neg hAllowed, newInvite_inviteIds]
        exact hTake hFull
  | preInvite refused =>
    cases refused with
    | true => exact absurd (room_zero _) hFull
    | false => exact hTake hFull
  | signup guid guildId eventId =>
    rw [inviteDemand] at hFull
    rw [step, handleSignup]
    cases hEvent : getEvent s eventId with
    | none =>
      rw [hEvent] at hFull
      exact absurd (room_zero _) hFull
    | some event =>
      simp only [hEvent] at hFull ⊢
      split at hFull
      · exact absurd (room_zero _) hFull
      · rename_i hAllowed
        rw [if_neg hAllowed, newInvite_inviteIds]
        exact hTake hFull
  | _ => exact absurd (room_zero _) hFull

theorem orderly_of_unique (h : EventsKept s ∧ InvitesKept s)
    (hUnique : IdsUnique (step s r)) : Orderly s r := by
  have hPlain : announces r = false := by
    apply eq_false_of_ne_true
    exact fun hAnnounces => not_sound_of_announces h.2 hAnnounces hUnique.inviteIds
  refine ⟨hPlain, ?_, ?_⟩
  · exact Classical.not_not.mp fun hFull => not_sound_of_zero (zero_event_of_full h.1 hFull) hUnique.eventIds
  · exact Classical.not_not.mp fun hFull =>
      not_sound_of_zero (zero_invite_of_full h.2 hPlain hFull) hUnique.inviteIds

/-! ## Runs -/

/-- Rows with different ids, none of them zero and all in 64 bits. -/
structure ValidRows (ids : List Nat) : Prop where
  nodup : ids.Nodup
  range : ∀ id ∈ ids, 1 ≤ id ∧ id < idSize

theorem le_foldr_max {ids : List Nat} {id : Nat} (h : id ∈ ids) : id ≤ ids.foldr max 0 := by
  induction ids with
  | nil => exact absurd h List.not_mem_nil
  | cons first ids ih =>
    rw [List.foldr_cons]
    rcases List.mem_cons.mp h with rfl | hRest
    · exact le_max_left ..
    · exact (ih hRest).trans (le_max_right ..)

theorem foldr_max_cases (ids : List Nat) : ids.foldr max 0 = 0 ∨ ids.foldr max 0 ∈ ids := by
  induction ids with
  | nil => exact Or.inl rfl
  | cons first ids ih =>
    rw [List.foldr_cons]
    rcases Nat.le_total (ids.foldr max 0) first with hLe | hGe
    · rw [max_eq_left hLe]
      exact Or.inr List.mem_cons_self
    · rw [max_eq_right hGe]
      exact ih.imp id (List.mem_cons_of_mem first)

theorem loadedPool_sound {ids : List Nat} (h : ValidRows ids) :
    (loadedPool ids).Sound ∧ (loadedPool ids).max < idSize := by
  constructor
  · refine ⟨?_, List.not_mem_nil⟩
    simp only [loadedPool]
    refine (List.perm_ext_iff_of_nodup ?_ List.nodup_range').mpr fun id => ?_
    · refine List.nodup_append'.mpr ⟨h.nodup, List.Nodup.filter _ List.nodup_range', fun id hRow hFree => ?_⟩
      exact of_decide_eq_true (List.mem_filter.mp hFree).2 hRow
    · rw [List.mem_append, List.mem_filter, List.mem_range'_1, List.mem_range'_1, decide_eq_true_iff]
      constructor
      · rintro (hRow | ⟨hBelow, -⟩)
        · have hLe := le_foldr_max hRow
          have hPos := (h.range id hRow).1
          omega
        · omega
      · intro hRange
        rcases Classical.em (id ∈ ids) with hRow | hFree
        · exact Or.inl hRow
        · refine Or.inr ⟨?_, hFree⟩
          rcases foldr_max_cases ids with hZero | hMem
          · omega
          · have hNe : id ≠ ids.foldr max 0 := fun hEq => hFree (hEq ▸ hMem)
            omega
  · rcases foldr_max_cases ids with hZero | hMem
    · have hMax : (loadedPool ids).max = ids.foldr max 0 := rfl
      rw [hMax, hZero]
      decide
    · exact (h.range _ hMem).2

theorem kept_loadFromDB {events : List CalendarEvent} {invites : List CalendarInvite}
    (hEvents : ValidRows (events.map CalendarEvent.eventId))
    (hInvites : ValidRows (invites.map CalendarInvite.inviteId)) :
    EventsKept (loadFromDB events invites) ∧ InvitesKept (loadFromDB events invites) := by
  obtain ⟨hEventPool, hEventMax⟩ := loadedPool_sound hEvents
  obtain ⟨hInvitePool, hInviteMax⟩ := loadedPool_sound hInvites
  constructor
  · exact ⟨List.Perm.refl _, hEventPool, hEventMax⟩
  · exact ⟨hInvites.nodup, fun invite hInvite => List.mem_map_of_mem hInvite, hInvitePool, hInviteMax⟩

/-- Whatever was loaded, the ids stay unique exactly while every request is orderly. -/
theorem calendar_ids_unique_iff {events : List CalendarEvent} {invites : List CalendarInvite}
    (hEvents : ValidRows (events.map CalendarEvent.eventId))
    (hInvites : ValidRows (invites.map CalendarInvite.inviteId)) (requests : List Request) :
    (∀ first, first <+: requests → IdsUnique (run step (loadFromDB events invites) first)) ↔
      Along step Orderly (loadFromDB events invites) requests :=
  reached_iff_along (I := fun s => EventsKept s ∧ InvitesKept s)
    (fun _ _ hKept hOrderly => kept_step hKept hOrderly) (fun _ hKept => idsUnique_of_kept hKept)
    (fun _ _ hKept hUnique => orderly_of_unique hKept hUnique) (kept_loadFromDB hEvents hInvites) requests

section

def raid : CalendarEvent := ⟨1, 7, 0, 0⟩

def raidInvite : CalendarInvite := ⟨1, 1, 7, 7⟩

/-- After an announcement, the next invite gets the id zero. -/
theorem announcement_hands_out_zero :
    0 ∈ (run step (loadFromDB [raid] [raidInvite]) [.addEvent false 7 3 0x40 [], .signup 8 3 1]).inviteIds.handed ∧
    ¬ ∀ first, first <+: [.addEvent false 7 3 0x40 [], .signup 8 3 1] →
      IdsUnique (run step (loadFromDB [raid] [raidInvite]) first) := by
  have hZero : 0 ∈ (run step (loadFromDB [raid] [raidInvite])
      [.addEvent false 7 3 0x40 [], .signup 8 3 1]).inviteIds.handed := by decide
  exact ⟨hZero, fun h => not_sound_of_zero hZero (h _ (List.prefix_refl _)).inviteIds⟩

/-- An event with two invites is copied and removed. -/
theorem copied_event_unique :
    IdsUnique (run step (loadFromDB [raid] [raidInvite])
      [.addEvent false 7 3 0 [8, 9], .copyEvent false 2, .removeEvent 2]) := by
  have hEvents : ValidRows ([raid].map CalendarEvent.eventId) := ⟨by decide, by decide⟩
  have hInvites : ValidRows ([raidInvite].map CalendarInvite.inviteId) := ⟨by decide, by decide⟩
  refine (calendar_ids_unique_iff hEvents hInvites _).mpr ?_ _ (List.prefix_refl _)
  refine ⟨⟨rfl, ?_, ?_⟩, ⟨rfl, ?_, ?_⟩, ⟨rfl, ?_, ?_⟩, trivial⟩
  all_goals decide

end

end AshamaneCore.Calendar

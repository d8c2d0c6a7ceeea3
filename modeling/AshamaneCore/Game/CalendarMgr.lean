import AshamaneCore.Library.IdPool
import AshamaneCore.Library.Transition
import Mathlib.Algebra.Order.Ring.Int

/-!
# The calendar

Events and the invites stored under them, with the ids that their destructors
give back. An invite to a guild announcement is never stored.
-/

namespace AshamaneCore.Calendar

open Library

/-- Ids are unsigned 64-bit numbers. -/
def idSize : Nat := 2 ^ 64

structure CalendarEvent where
  eventId : Nat
  ownerGUID : Nat
  guildId : Nat
  flags : Nat
deriving DecidableEq

structure CalendarInvite where
  inviteId : Nat
  eventId : Nat
  invitee : Nat
  senderGUID : Nat
deriving DecidableEq

def calendarFlagWithoutInvites : Nat := 0x040

def calendarFlagGuildEvent : Nat := 0x400

def hasFlag (flags flag : Nat) : Bool := flags &&& flag ≠ 0

namespace CalendarEvent

def isGuildEvent (event : CalendarEvent) : Bool := hasFlag event.flags calendarFlagGuildEvent

def isGuildAnnouncement (event : CalendarEvent) : Bool := hasFlag event.flags calendarFlagWithoutInvites

end CalendarEvent

/-- The stored invites stand in one list; those of an event keep their order in it. -/
structure State where
  events : List CalendarEvent
  invites : List CalendarInvite
  eventIds : IdPool
  inviteIds : IdPool

def getEvent (s : State) (eventId : Nat) : Option CalendarEvent :=
  s.events.find? fun event => event.eventId = eventId

def getEventInvites (s : State) (eventId : Nat) : List CalendarInvite :=
  s.invites.filter fun invite => invite.eventId = eventId

/-- The id of a new object: `GetFreeEventId` and `GetFreeInviteId` behave alike. -/
def getFreeEventId (s : State) : State := { s with eventIds := s.eventIds.take idSize }

def getFreeInviteId (s : State) : State := { s with inviteIds := s.inviteIds.take idSize }

def freeEventId (s : State) (id : Nat) : State := { s with eventIds := s.eventIds.release idSize id }

def freeInviteId (s : State) (id : Nat) : State := { s with inviteIds := s.inviteIds.release idSize id }

def addEvent (s : State) (event : CalendarEvent) : State := { s with events := s.events ++ [event] }

def addInvite (s : State) (event : CalendarEvent) (invite : CalendarInvite) : State :=
  if event.isGuildAnnouncement then s else { s with invites := s.invites ++ [invite] }

def newInvite (s : State) (event : CalendarEvent) (invitee sender : Nat) : State :=
  addInvite (getFreeInviteId s) event ⟨s.inviteIds.next idSize, event.eventId, invitee, sender⟩

def deleteInvite (s : State) (invite : CalendarInvite) : State :=
  freeInviteId { s with invites := s.invites.erase invite } invite.inviteId

def removeEvent (s : State) (eventId : Nat) : State :=
  match getEvent s eventId with
  | none => s
  | some event =>
    let cleared := (getEventInvites s eventId).foldl deleteInvite s
    freeEventId { cleared with events := cleared.events.erase event } event.eventId

def removeInvite (s : State) (inviteId eventId : Nat) : State :=
  match (getEventInvites s eventId).find? fun invite => invite.inviteId = inviteId with
  | none => s
  | some invite => deleteInvite s invite

/-! ## Handlers -/

/-- A local invite with id zero stands for the announcement while it is sent, and its
destructor frees that id. -/
def handleAddEvent (s : State) (inPast : Bool) (guid guildId flags : Nat) (invitees : List Nat) : State :=
  if inPast then s
  else
    let event : CalendarEvent := ⟨s.eventIds.next idSize, guid,
      if hasFlag flags calendarFlagGuildEvent || hasFlag flags calendarFlagWithoutInvites then guildId else 0, flags⟩
    let created := getFreeEventId s
    if event.isGuildAnnouncement then addEvent (freeInviteId created 0) event
    else addEvent (invitees.foldl (fun s invitee => newInvite s event invitee guid) created) event

def handleUpdateEvent (s : State) (inPast : Bool) (eventId flags : Nat) : State :=
  if inPast then s
  else
    { s with
      events := s.events.map fun event => if event.eventId = eventId then { event with flags } else event }

def handleCopyEvent (s : State) (inPast : Bool) (eventId : Nat) : State :=
  if inPast then s
  else match getEvent s eventId with
  | none => s
  | some old =>
    let event : CalendarEvent := { old with eventId := s.eventIds.next idSize }
    let added := addEvent (getFreeEventId s) event
    (getEventInvites added eventId).foldl
      (fun s invite => newInvite s event invite.invitee invite.senderGUID) added

/-- The invitee that the checks of the handler have found, with his guild. -/
def handleEventInvite (s : State) (guid eventId invitee inviteeGuildId : Nat) : State :=
  match getEvent s eventId with
  | none => s
  | some event =>
    if event.isGuildEvent = true ∧ event.guildId = inviteeGuildId then s
    else newInvite s event invitee guid

def handlePreInvite (s : State) (refused : Bool) : State :=
  if refused then s else freeInviteId (getFreeInviteId s) (s.inviteIds.next idSize)

def handleSignup (s : State) (guid guildId eventId : Nat) : State :=
  match getEvent s eventId with
  | none => s
  | some event =>
    if event.isGuildEvent = true ∧ event.guildId ≠ guildId then s
    else newInvite s event guid guid

def handleRemoveInvite (s : State) (inviteId eventId guid : Nat) : State :=
  match getEvent s eventId with
  | none => s
  | some event => if event.ownerGUID = guid then s else removeInvite s inviteId eventId

inductive Request
  | addEvent (inPast : Bool) (guid guildId flags : Nat) (invitees : List Nat)
  | updateEvent (inPast : Bool) (eventId flags : Nat)
  | copyEvent (inPast : Bool) (eventId : Nat)
  | eventInvite (guid eventId invitee inviteeGuildId : Nat)
  | preInvite (refused : Bool)
  | signup (guid guildId eventId : Nat)
  | removeEvent (eventId : Nat)
  | removeInvite (inviteId eventId guid : Nat)

def step (s : State) : Request → State
  | .addEvent inPast guid guildId flags invitees => handleAddEvent s inPast guid guildId flags invitees
  | .updateEvent inPast eventId flags => handleUpdateEvent s inPast eventId flags
  | .copyEvent inPast eventId => handleCopyEvent s inPast eventId
  | .eventInvite guid eventId invitee inviteeGuildId => handleEventInvite s guid eventId invitee inviteeGuildId
  | .preInvite refused => handlePreInvite s refused
  | .signup guid guildId eventId => handleSignup s guid guildId eventId
  | .removeEvent eventId => removeEvent s eventId
  | .removeInvite inviteId eventId guid => handleRemoveInvite s inviteId eventId guid

/-! ## Loading -/

/-- The maximum of the loaded ids, and those below it that no object has. -/
def loadedPool (ids : List Nat) : IdPool where
  free := (List.range' 1 (ids.foldr max 0 - 1)).filter fun i => i ∉ ids
  max := ids.foldr max 0
  used := ids
  handed := []

def loadFromDB (events : List CalendarEvent) (invites : List CalendarInvite) : State where
  events := events
  invites := invites
  eventIds := loadedPool (events.map CalendarEvent.eventId)
  inviteIds := loadedPool (invites.map CalendarInvite.inviteId)

end AshamaneCore.Calendar

import AshamaneCore.Game.CalendarMgr
import AshamaneCore.Library.FirstOfKey
import AshamaneCore.Library.KeyedSet

/-!
# A player leaves the calendar

The events stand in a set ordered by their addresses, which is walked while
events are erased from it. The invites of the player are copied before they are
removed one by one. The result `none` is a walk advanced from an erased node, or
the reading of a deleted invite.
-/

namespace AshamaneCore.Calendar

open Library

structure EventNode where
  address : Nat
  event : CalendarEvent
deriving DecidableEq

structure InviteNode where
  address : Nat
  invite : CalendarInvite
deriving DecidableEq

/-- The invites of all events one after another, in the order of the map. -/
@[ext] structure Store where
  events : KeyedSet EventNode.address
  invites : List InviteNode
  distinct : (invites.map InviteNode.address).Nodup

namespace Store

def getEvent (s : Store) (eventId : Nat) : Option EventNode :=
  s.events.entries.find? fun node => node.event.eventId = eventId

def withInvites (s : Store) (invites : List InviteNode) (h : invites.Sublist s.invites) : Store :=
  ⟨s.events, invites, s.distinct.sublist (h.map _)⟩

def removeEvent (s : Store) (eventId : Nat) : Store :=
  match s.getEvent eventId with
  | none => s
  | some calendarEvent =>
    let cleared := s.withInvites (s.invites.filter fun node => node.invite.eventId ≠ eventId) List.filter_sublist
    { cleared with events := s.events.erase calendarEvent.address }

def removeInvite (s : Store) (inviteId eventId : Nat) : Store :=
  match s.getEvent eventId with
  | none => s
  | some _ =>
    s.withInvites (s.invites.eraseP fun node => node.invite.eventId = eventId ∧ node.invite.inviteId = inviteId)
      List.eraseP_sublist

def getPlayerInvites (s : Store) (guid : Nat) : List InviteNode :=
  s.invites.filter fun node => node.invite.invitee = guid

/-- The loop over the events. What is erased stands at or before the iterator, so the
events behind it are those that stood there at the start. -/
def walkEvents (owned : CalendarEvent → Bool) : List EventNode → Store → Option Store
  | [], s => some s
  | itr :: behind, s =>
    if owned itr.event = true then
      let left := s.removeEvent itr.event.eventId
      if itr ∈ left.events.entries then walkEvents owned behind left else none
    else walkEvents owned behind s

/-- The loop over the copied invites; `check` asks the event of an invite before it is removed. -/
def walkInvites (check : Option EventNode → Bool) : List InviteNode → Store → Option Store
  | [], s => some s
  | itr :: behind, s =>
    if itr ∈ s.invites then
      walkInvites check behind
        (if check (s.getEvent itr.invite.eventId) = true then
          s.removeInvite itr.invite.inviteId itr.invite.eventId
        else s)
    else none

def ownedEvent (guid : Nat) (event : CalendarEvent) : Bool := event.ownerGUID = guid

def removeAllPlayerEventsAndInvites (s : Store) (guid : Nat) : Option Store := do
  let left ← walkEvents (ownedEvent guid) s.events.entries s
  walkInvites (fun _ => true) (left.getPlayerInvites guid) left

def ownedGuildEvent (guid : Nat) (event : CalendarEvent) : Bool :=
  event.ownerGUID = guid && (event.isGuildEvent || event.isGuildAnnouncement)

def guildEvent (guildId : Nat) (calendarEvent : Option EventNode) : Bool :=
  calendarEvent.any fun node => node.event.isGuildEvent && node.event.guildId == guildId

def removePlayerGuildEventsAndSignups (s : Store) (guid guildId : Nat) : Option Store := do
  let left ← walkEvents (ownedGuildEvent guid) s.events.entries s
  walkInvites (guildEvent guildId) (left.getPlayerInvites guid) left

/-! ## What a removal has to do -/

/-- The events and invites that are meant are gone, and nothing of other players is
that does not hang on a removed event. -/
structure Cleared (owned : CalendarEvent → Bool) (check : Option EventNode → Bool) (guid : Nat) (s t : Store) :
    Prop where
  noEvent : ∀ node ∈ t.events.entries, owned node.event = false
  noInvite : ∀ node ∈ t.invites, node.invite.invitee = guid → check (t.getEvent node.invite.eventId) = false
  otherEvents : ∀ node ∈ s.events.entries, node.event.ownerGUID ≠ guid → node ∈ t.events.entries
  otherInvites : ∀ node ∈ s.invites, node.invite.invitee ≠ guid →
    (∀ gone ∈ s.events.entries, gone ∉ t.events.entries → gone.event.eventId ≠ node.invite.eventId) →
    node ∈ t.invites

/-- No invite of another player stands before one of this player with the same number
in the same event. -/
def FirstOfNumber (s : Store) (guid : Nat) (affected : Option EventNode → Bool) : Prop :=
  ∀ a b, [a, b].Sublist s.invites → a.invite.eventId = b.invite.eventId → a.invite.inviteId = b.invite.inviteId →
    affected (s.getEvent b.invite.eventId) = true → b.invite.invitee = guid → a.invite.invitee = guid

/-! ## The loop over the events -/

variable {owned : CalendarEvent → Bool}

theorem walkEvents_of_none {nodes : List EventNode} (s : Store)
    (h : ∀ node ∈ nodes, owned node.event = false) : walkEvents owned nodes s = some s := by
  induction nodes with
  | nil => rfl
  | cons itr behind ih =>
    rw [walkEvents, if_neg (by simp [h itr List.mem_cons_self])]
    exact ih fun node hNode => h node (List.mem_cons_of_mem _ hNode)

variable {s t : Store}

theorem owned_of_walkEvents {nodes : List EventNode}
    (h : walkEvents owned nodes s = some t) (hOwned : ∃ node ∈ nodes, owned node.event = true) :
    ∃ node ∈ t.events.entries, owned node.event = true := by
  induction nodes generalizing s with
  | nil =>
    obtain ⟨node, hNode, -⟩ := hOwned
    exact absurd hNode List.not_mem_nil
  | cons itr behind ih =>
    by_cases hBehind : ∃ node ∈ behind, owned node.event = true
    · rw [walkEvents] at h
      split at h
      · dsimp only at h
        split at h
        · exact ih h hBehind
        · cases h
      · exact ih h hBehind
    · have hNone : ∀ node ∈ behind, owned node.event = false := by
        intro node hNode
        exact Bool.eq_false_iff.mpr fun hTrue => hBehind ⟨node, hNode, hTrue⟩
      obtain ⟨node, hNode, hTrue⟩ := hOwned
      have hItr : owned itr.event = true := by
        rcases List.mem_cons.mp hNode with rfl | hIn
        · exact hTrue
        · exact absurd ⟨node, hIn, hTrue⟩ hBehind
      rw [walkEvents, if_pos hItr] at h
      dsimp only at h
      split at h
      · rename_i hLeft
        rw [walkEvents_of_none _ hNone] at h
        obtain rfl := Option.some.inj h
        exact ⟨itr, hLeft, hItr⟩
      · cases h

/-! ## The loop over the invites -/

def number (node : InviteNode) : Nat × Nat := (node.invite.eventId, node.invite.inviteId)

theorem removeInvite_events (s : Store) (inviteId eventId : Nat) :
    (s.removeInvite inviteId eventId).events = s.events := by
  rw [removeInvite]
  split <;> rfl

def live (check : Option EventNode → Bool) (s : Store) (k : Nat × Nat) : Bool :=
  check (s.getEvent k.1) && (s.getEvent k.1).isSome

theorem removeInvite_invites (check : Option EventNode → Bool) (s : Store) (itr : InviteNode) :
    (if check (s.getEvent itr.invite.eventId) = true then
        s.removeInvite itr.invite.inviteId itr.invite.eventId
      else s).invites = FirstOfKey.remove number (live check s) s.invites (number itr) := by
  have hSame : (fun node : InviteNode => decide (node.invite.eventId = itr.invite.eventId ∧
      node.invite.inviteId = itr.invite.inviteId)) = fun node => decide (number node = number itr) := by
    funext node
    exact decide_eq_decide.mpr (by rw [number, number, Prod.mk.injEq])
  rw [FirstOfKey.remove, live, removeInvite]
  cases hEvent : s.getEvent itr.invite.eventId with
  | none => simp [number, hEvent]
  | some calendarEvent =>
    simp only [number, hEvent, Option.isSome_some, Bool.and_true]
    split
    · exact congrArg (List.eraseP · s.invites) hSame
    · rfl

variable {check : Option EventNode → Bool}

theorem walkInvites_iff {nodes : List InviteNode} :
    walkInvites check nodes s = some t ↔
      t.events = s.events ∧ FirstOfKey.walk number (live check s) nodes s.invites = some t.invites := by
  induction nodes generalizing s with
  | nil =>
    rw [walkInvites, FirstOfKey.walk, Option.some_inj, Option.some_inj, Store.ext_iff]
    exact and_congr_left' eq_comm
  | cons itr behind ih =>
    have hInvites := removeInvite_invites check s itr
    have hEvents : (if check (s.getEvent itr.invite.eventId) = true then
        s.removeInvite itr.invite.inviteId itr.invite.eventId else s).events = s.events := by
      split
      · exact removeInvite_events s _ _
      · rfl
    rw [walkInvites, FirstOfKey.walk]
    split
    · rw [ih, hInvites, hEvents]
      have hLive : live check (if check (s.getEvent itr.invite.eventId) = true then
          s.removeInvite itr.invite.inviteId itr.invite.eventId else s) = live check s := by
        funext k
        rw [live, live, getEvent, hEvents, getEvent]
      rw [hLive]
    · simp

/-! ## Both loops -/

theorem nodup_invites (s : Store) : s.invites.Nodup := List.Nodup.of_map _ s.distinct

variable {guid : Nat}

theorem cleared_iff_of_kept (hEvents : t.events = s.events)
    (hNone : ∀ node ∈ s.events.entries, owned node.event = false) :
    Cleared owned check guid s t ↔
      (∀ node ∈ t.invites, decide (node.invite.invitee = guid) = true →
        check (s.getEvent node.invite.eventId) = false) ∧
      ∀ node ∈ s.invites, decide (node.invite.invitee = guid) = false → node ∈ t.invites := by
  have hGet : t.getEvent = s.getEvent := by
    funext eventId
    rw [getEvent, getEvent, hEvents]
  constructor
  · intro h
    refine ⟨fun node hNode hMine => ?_, fun node hNode hOther => ?_⟩
    · rw [← hGet]
      exact h.noInvite node hNode (of_decide_eq_true hMine)
    · refine h.otherInvites node hNode (of_decide_eq_false hOther) fun gone hGone hLeft => ?_
      rw [hEvents] at hLeft
      exact absurd hGone hLeft
  · rintro ⟨hGone, hStay⟩
    constructor
    · rw [hEvents]
      exact hNone
    · intro node hNode hMine
      rw [hGet]
      exact hGone node hNode (decide_eq_true hMine)
    · intro node hNode _
      rw [hEvents]
      exact hNode
    · intro node hNode hOther _
      exact hStay node hNode (decide_eq_false hOther)

theorem firstOfNumber_iff :
    FirstOfNumber s guid (fun event => check event && event.isSome) ↔
      ∀ a b, [a, b].Sublist s.invites → number a = number b → live check s (number b) = true →
        decide (b.invite.invitee = guid) = true → decide (a.invite.invitee = guid) = true := by
  constructor
  · intro h a b hOrder hNumber hLive hMine
    obtain ⟨hEvent, hInvite⟩ := Prod.mk.inj hNumber
    exact decide_eq_true (h a b hOrder hEvent hInvite hLive (of_decide_eq_true hMine))
  · intro h a b hOrder hEvent hInvite hLive hMine
    exact of_decide_eq_true (h a b hOrder (Prod.ext hEvent hInvite) hLive (decide_eq_true hMine))

theorem cleared_iff :
    (∃ t, (do let left ← walkEvents owned s.events.entries s
              walkInvites check (left.getPlayerInvites guid) left) = some t ∧ Cleared owned check guid s t) ↔
    (∀ node ∈ s.events.entries, owned node.event = false) ∧
    (∀ node ∈ s.invites, node.invite.invitee = guid → check (s.getEvent node.invite.eventId) = true →
      (s.getEvent node.invite.eventId).isSome = true) ∧
    FirstOfNumber s guid (fun event => check event && event.isSome) := by
  have hWalk := FirstOfKey.walk_iff number (live check s) (fun node => decide (node.invite.invitee = guid))
    (fun node => check (s.getEvent node.invite.eventId)) s.nodup_invites fun node _ hLive => (Bool.and_eq_true_iff.mp hLive).1
  rw [firstOfNumber_iff]
  constructor
  · rintro ⟨t, hRun, hCleared⟩
    obtain ⟨left, hEvents, hInvites⟩ := Option.bind_eq_some_iff.mp hRun
    have hNone : ∀ node ∈ s.events.entries, owned node.event = false := by
      intro node hNode
      by_contra hOwned
      obtain ⟨last, hLast, hTrue⟩ := owned_of_walkEvents hEvents ⟨node, hNode, Bool.not_eq_false _ ▸ hOwned⟩
      rw [← (walkInvites_iff.mp hInvites).1] at hLast
      rw [hCleared.noEvent last hLast] at hTrue
      exact Bool.false_ne_true hTrue
    rw [walkEvents_of_none s hNone] at hEvents
    obtain rfl := Option.some.inj hEvents
    obtain ⟨hSame, hKeys⟩ := walkInvites_iff.mp hInvites
    obtain ⟨hAlive, hFirst⟩ := hWalk.mp ⟨t.invites, hKeys, (cleared_iff_of_kept hSame hNone).mp hCleared⟩
    refine ⟨hNone, fun node hNode hMine hCheck => ?_, hFirst⟩
    exact (Bool.and_eq_true_iff.mp (hAlive node hNode (decide_eq_true hMine) hCheck)).2
  · rintro ⟨hNone, hAlive, hFirst⟩
    obtain ⟨l, hKeys, hKept⟩ := hWalk.mpr ⟨fun node hNode hMine hCheck => Bool.and_eq_true_iff.mpr
      ⟨hCheck, hAlive node hNode (of_decide_eq_true hMine) hCheck⟩, hFirst⟩
    let t := s.withInvites l (FirstOfKey.walk_sublist hKeys)
    have hRun : walkInvites check (s.getPlayerInvites guid) s = some t := walkInvites_iff.mpr ⟨rfl, hKeys⟩
    have hEvents : t.events = s.events := rfl
    refine ⟨t, ?_, (cleared_iff_of_kept hEvents hNone).mpr hKept⟩
    rw [walkEvents_of_none s hNone]
    exact hRun

/-- Both removals, with the content on which each of them does what it has to. -/
theorem removals_iff (s : Store) (guid guildId : Nat) :
    ((∃ t, s.removeAllPlayerEventsAndInvites guid = some t ∧
        Cleared (ownedEvent guid) (fun _ => true) guid s t) ↔
      (∀ node ∈ s.events.entries, node.event.ownerGUID ≠ guid) ∧
      (∀ node ∈ s.invites, node.invite.invitee = guid → (s.getEvent node.invite.eventId).isSome = true) ∧
      FirstOfNumber s guid fun event => event.isSome) ∧
    ((∃ t, s.removePlayerGuildEventsAndSignups guid guildId = some t ∧
        Cleared (ownedGuildEvent guid) (guildEvent guildId) guid s t) ↔
      (∀ node ∈ s.events.entries, node.event.ownerGUID = guid →
        node.event.isGuildEvent = false ∧ node.event.isGuildAnnouncement = false) ∧
      FirstOfNumber s guid (guildEvent guildId)) := by
  constructor
  · refine cleared_iff.trans ?_
    simp only [ownedEvent, decide_eq_false_iff_not, Bool.true_and, ne_eq, forall_const]
  · have hSome : ∀ event : Option EventNode, guildEvent guildId event = true → event.isSome = true := by
      intro event h
      cases event with
      | none => exact absurd h Bool.false_ne_true
      | some node => rfl
    have hSame : (fun event => guildEvent guildId event && event.isSome) = guildEvent guildId := by
      funext event
      cases event with
      | none => rfl
      | some node => exact Bool.and_true _
    refine cleared_iff.trans ?_
    rw [hSame]
    constructor
    · rintro ⟨hNone, -, hFirst⟩
      refine ⟨fun node hNode hOwner => ?_, hFirst⟩
      have hNot := hNone node hNode
      rwa [ownedGuildEvent, decide_eq_true hOwner, Bool.true_and, Bool.or_eq_false_iff] at hNot
    · rintro ⟨hNone, hFirst⟩
      refine ⟨fun node hNode => ?_, fun node _ _ => hSome _, hFirst⟩
      rw [ownedGuildEvent]
      rcases eq_or_ne node.event.ownerGUID guid with hOwner | hOther
      · obtain ⟨hGuild, hAnnouncement⟩ := hNone node hNode hOwner
        rw [hGuild, hAnnouncement, Bool.or_false, Bool.and_false]
      · rw [decide_eq_false hOther, Bool.false_and]

def ownedGuildEvents : Store where
  events := KeyedSet.empty.emplace ⟨1, ⟨1, 7, 3, calendarFlagGuildEvent⟩⟩
  invites := [⟨2, ⟨1, 1, 7, 7⟩⟩]
  distinct := List.nodup_singleton _

/-- The walk is advanced from the erased event. -/
theorem advanced_from_erased :
    (¬ ∃ t, ownedGuildEvents.removeAllPlayerEventsAndInvites 7 = some t ∧
      Cleared (ownedEvent 7) (fun _ => true) 7 ownedGuildEvents t) ∧
    ¬ ∃ t, ownedGuildEvents.removePlayerGuildEventsAndSignups 7 3 = some t ∧
      Cleared (ownedGuildEvent 7) (guildEvent 3) 7 ownedGuildEvents t := by
  have hAll : ownedGuildEvents.removeAllPlayerEventsAndInvites 7 = none := by decide
  have hGuild : ownedGuildEvents.removePlayerGuildEventsAndSignups 7 3 = none := by decide
  constructor
  · rintro ⟨t, h, -⟩
    rw [hAll] at h
    cases h
  · rintro ⟨t, h, -⟩
    rw [hGuild] at h
    cases h

end Store

end AshamaneCore.Calendar

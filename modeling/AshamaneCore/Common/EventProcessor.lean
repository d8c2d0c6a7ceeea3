import AshamaneCore.Library.OrderedQueue
import Mathlib.Logic.Function.Basic

/-!
# The event processor

Events are known by numbers, and the processor holds them in a multimap ordered
by their execution time. Time is 64 bits wide and wraps. A failed ASSERT is
none. What happens to the events is recorded in order, and the body of an Abort
calls no processor.
-/

namespace AshamaneCore

open Library.OrderedQueue

inductive AbortState
  | running
  | abortScheduled
  | aborted
  deriving DecidableEq

structure BasicEvent where
  abortState : AbortState
  addTime : UInt64
  execTime : UInt64
  deriving DecidableEq

def BasicEvent.new : BasicEvent := ⟨.running, 0, 0⟩

structure QueuedEvent where
  time : UInt64
  event : Nat
  deriving DecidableEq

def QueuedEvent.key (entry : QueuedEvent) : Nat := entry.time.toNat

@[ext] structure EventQueue where
  entries : List QueuedEvent
  ordered : Ordered QueuedEvent.key entries

namespace EventQueue

def empty : EventQueue := ⟨[], List.Pairwise.nil⟩

def insert (q : EventQueue) (entry : QueuedEvent) : EventQueue :=
  ⟨insertUpper QueuedEvent.key entry q.entries, insertUpper_ordered q.ordered⟩

def eraseFirst (q : EventQueue) : EventQueue := ⟨q.entries.tail, q.ordered.tail⟩

def retain (q : EventQueue) (keep : Nat → Bool) : EventQueue :=
  ⟨q.entries.filter fun entry => keep entry.event, q.ordered.filter _⟩

end EventQueue

/-- What happens to an event. An execution shows the time it is called with and the
time it was planned for. -/
inductive Happening
  | added (event : Nat)
  | abortScheduled (event : Nat)
  | executed (event : Nat) (eTime execTime : UInt64)
  | aborted (event : Nat)
  | handedBack (event : Nat)
  | destroyed (event : Nat)
  deriving DecidableEq

/-- Where the processor is: in no call, in its event loop, or in the Execute of an event,
which may have added itself again. -/
inductive ProcessorControl
  | idle
  | updating
  | executing (event : Nat) (readded : Bool)
  deriving DecidableEq

structure EventProcessor where
  time : UInt64
  events : EventQueue
  event : Nat → BasicEvent
  control : ProcessorControl
  log : List Happening

namespace EventProcessor

def fresh : EventProcessor := ⟨0, .empty, fun _ => .new, .idle, []⟩

def record (s : EventProcessor) (happening : Happening) : EventProcessor :=
  { s with log := s.log ++ [happening] }

def modifyEvent (s : EventProcessor) (e : Nat) (f : BasicEvent → BasicEvent) : EventProcessor :=
  { s with event := Function.update s.event e (f (s.event e)) }

def abortState (s : EventProcessor) (e : Nat) : AbortState := (s.event e).abortState

@[simp] theorem record_log (s : EventProcessor) (happening : Happening) :
    (s.record happening).log = s.log ++ [happening] := rfl

@[simp] theorem record_control (s : EventProcessor) (happening : Happening) :
    (s.record happening).control = s.control := rfl

@[simp] theorem record_event (s : EventProcessor) (happening : Happening) :
    (s.record happening).event = s.event := rfl

@[simp] theorem record_abortState (s : EventProcessor) (happening : Happening) (e : Nat) :
    (s.record happening).abortState e = s.abortState e := rfl

@[simp] theorem modifyEvent_log (s : EventProcessor) (e : Nat) (f : BasicEvent → BasicEvent) :
    (s.modifyEvent e f).log = s.log := rfl

@[simp] theorem modifyEvent_same (s : EventProcessor) (e : Nat) (f : BasicEvent → BasicEvent) :
    (s.modifyEvent e f).event e = f (s.event e) := Function.update_self _ _ _

theorem modifyEvent_of_ne {e e' : Nat} (h : e' ≠ e) (s : EventProcessor)
    (f : BasicEvent → BasicEvent) : (s.modifyEvent e f).event e' = s.event e' :=
  Function.update_of_ne h _ _

def scheduleAbort (s : EventProcessor) (e : Nat) : Option EventProcessor :=
  if s.abortState e = .running then
    some ((s.modifyEvent e fun event => { event with abortState := .abortScheduled }).record
      (.abortScheduled e))
  else none

def setAborted (s : EventProcessor) (e : Nat) : Option EventProcessor :=
  if s.abortState e ≠ .aborted then
    some (s.modifyEvent e fun event => { event with abortState := .aborted })
  else none

def abort (s : EventProcessor) (e : Nat) : EventProcessor := s.record (.aborted e)

def destroy (s : EventProcessor) (e : Nat) : EventProcessor := s.record (.destroyed e)

def calculateTime (s : EventProcessor) (tOffset : UInt64) : UInt64 := s.time + tOffset

def addEvent (s : EventProcessor) (e : Nat) (eTime : UInt64) (setAddtime : Bool) : EventProcessor :=
  let s := s.modifyEvent e fun event =>
    { event with
      addTime := if setAddtime then s.time else event.addTime
      execTime := eTime }
  { s with events := s.events.insert ⟨eTime, e⟩ }

def update (s : EventProcessor) (pTime : UInt32) : EventProcessor :=
  { s with time := s.time + pTime.toUInt64, control := .updating }

def dispose (s : EventProcessor) (e : Nat) (deletable : Bool) : EventProcessor :=
  if deletable then s.destroy e else s.addEvent e (s.calculateTime 1) false

/-- One test of the loop condition of Update, and the iteration up to the call of Execute
or to its end. -/
def updateRound (s : EventProcessor) (deletable : Bool) : Option EventProcessor :=
  match s.events.entries with
  | [] => some { s with control := .idle }
  | entry :: _ =>
    if entry.time ≤ s.time then
      let s := { s with events := s.events.eraseFirst }
      match s.abortState entry.event with
      | .running =>
        some ({ s with control := .executing entry.event false }.record
          (.executed entry.event s.time (s.event entry.event).execTime))
      | .abortScheduled => do
        let s ← (s.abort entry.event).setAborted entry.event
        some (s.dispose entry.event deletable)
      | .aborted => some (s.dispose entry.event deletable)
    else some { s with control := .idle }

/-- The iteration once Execute has answered. An event that is not done and has not added
itself again is the business of its owner. -/
def executed (s : EventProcessor) (e : Nat) (readded done : Bool) : EventProcessor :=
  let s := { s with control := .updating }
  if done then s.destroy e else if readded then s else s.record (.handedBack e)

def killEvent (kill : Nat → Bool) (s : EventProcessor) (e : Nat) : Option EventProcessor :=
  let dropped (s : EventProcessor) := if kill e then s.destroy e else s
  if s.abortState e ≠ .aborted then (s.setAborted e).map fun s => dropped (s.abort e)
  else some (dropped s)

/-- Each event of the queue is asked once whether it is deletable. -/
def killAllEvents (s : EventProcessor) (force : Bool) (deletable : Nat → Bool) :
    Option EventProcessor := do
  let kill e := force || deletable e
  let s ← (s.events.entries.map QueuedEvent.event).foldlM (killEvent kill) s
  some { s with events := s.events.retain fun e => !kill e }

end EventProcessor

end AshamaneCore

import Elemta.Foundation.Machine
import Elemta.Webmail.Booking

/-!
# Bookings of a resource

Calendar messages that are delivered to an automatically answered resource. A delivery
holds the resource's lock while it reads the stored bookings, decides, appends the new
booking and removes the old one. Each of these is a call of its own, so deliveries are
interleaved call by call, and a call may take effect and report an error.

The calendar of the resource holds its bookings only. Answers to the organizer and the
published busy times are left out.
-/

namespace Elemta.Mailbox.Bookings

open Bytes Webmail.Ical Webmail.Booking

/-- How a call of the store ends. -/
inductive Answer where
  | ok
  /-- The call has taken effect and reports an error. -/
  | lost
  | failed
  deriving DecidableEq

def Answer.took : Answer → Bool
  | ok => true
  | lost => true
  | failed => false

inductive Method where
  | request
  | cancel
  deriving DecidableEq

structure Message where
  sender : Bytes
  method : Method
  data : Bytes
  deriving DecidableEq

structure Entry where
  number : Nat
  obj : Object
  origin : Message
  deriving DecidableEq

inductive Task where
  | idle
  | locking (m : Message) (r : Request)
  | reading (m : Message) (r : Request)
  /-- The old messages come out when the new one is in. -/
  | appending (m : Message) (obj : Object) (old : List Nat)
  | removing (m : Message) (old : List Nat)
  | unlocking
  deriving DecidableEq

structure Event where
  booking : Entry
  by' : Message
  deriving DecidableEq

structure State where
  calendar : List Entry
  next : Nat
  lock : Option Nat
  tasks : Nat → Task
  log : List Event

namespace State

def init : State :=
  { calendar := [], next := 1, lock := none, tasks := fun _ => .idle, log := [] }

variable (s : State)

def setTask (i : Nat) (t : Task) : State :=
  { s with tasks := Function.update s.tasks i t }

def setLock (holder : Option Nat) : State :=
  { s with lock := holder }

def acts (old : List Nat) (m : Message) : List Event :=
  (s.calendar.filter fun e => e.number ∈ old).map fun e => { booking := e, by' := m }

def append (m : Message) (obj : Object) (old : List Nat) : State :=
  { s with
    calendar := s.calendar ++ [{ number := s.next, obj, origin := m }]
    next := s.next + 1
    log := s.acts old m ++ s.log }

def remove (m : Message) (old : List Nat) : State :=
  { s with
    calendar := s.calendar.filter fun e => e.number ∉ old
    log := s.acts old m ++ s.log }

end State

variable (lib : Library)

def admitted (account : Bytes) (m : Message) : Option Request :=
  match parseBooking lib m.data with
  | none => none
  | some r =>
    if r.uid = [] ∨ r.organizer = [] ∨ r.occurrence then none
    else if sameDomain account r.organizer && sameDomain account m.sender then some r
    else none

def withID (calendar : List Entry) (id : Bytes) : List Nat :=
  (calendar.filter fun e => e.obj.id = id).map Entry.number

def decideOn (calendar : List Entry) (m : Message) (r : Request) (now : Int) : Task :=
  let stored := calendar.map Entry.obj
  let old := withID calendar (objectID r.uid)
  match m.method with
  | .cancel => if bookingOwnedBy lib stored r.uid r.organizer then .removing m old else .unlocking
  | .request =>
    match decideBooking lib m.data stored with
    | some .accept =>
      match bookingObject lib m.data now with
      | some obj => .appending m obj old
      | none => .unlocking
    | _ => .unlocking

inductive Input where
  | deliver (i : Nat) (m : Message)
  | advance (i : Nat) (now : Int) (a : Answer)
  deriving DecidableEq

def advance (s : State) (i : Nat) (now : Int) (a : Answer) : State :=
  match s.tasks i with
  | .idle => s
  | .locking m r => if s.lock = none then (s.setLock (some i)).setTask i (.reading m r) else s
  | .reading m r =>
    s.setTask i (if a = .ok then decideOn lib s.calendar m r now else .unlocking)
  | .appending m obj old =>
    (if a.took then s.append m obj old else s).setTask i
      (if a = .ok then .removing m old else .unlocking)
  | .removing m old => (if a.took then s.remove m old else s).setTask i .unlocking
  | .unlocking => (s.setLock none).setTask i .idle

/-- A delivery that is not dealt with here is left for a person. -/
def step (account : Bytes) (s : State) : Input → State
  | .deliver i m =>
    match s.tasks i, admitted lib account m with
    | .idle, some r => s.setTask i (.locking m r)
    | _, _ => s
  | .advance i now a => advance lib s i now a

/-! ## Plain messages -/

namespace Plain

open Webmail.Ical.Plain

def room : Bytes := lit "room@corp.org"

/-- Half an hour from a day of January and an hour, with more lines. -/
def event (organizer uid start more : Bytes) : Bytes :=
  block (lit "VEVENT") (line (lit "UID") uid ++ line (lit "DTSTAMP") (lit "19700101T000000Z") ++
    line (lit "ORGANIZER") (lit "mailto:" ++ organizer) ++
    line (lit "DTSTART") (lit "197001" ++ start ++ lit "0000Z") ++
    line (lit "DTEND") (lit "197001" ++ start ++ lit "3000Z") ++ more)

def calendar (method events : Bytes) : Bytes :=
  block (lit "VCALENDAR") (line (lit "VERSION") (lit "2.0") ++
    line (lit "PRODID") (lit "-//corp.org//EN") ++ line (lit "METHOD") method ++ events)

def request (sender events : Bytes) : Message :=
  { sender, method := .request, data := calendar (lit "REQUEST") events }

def cancel (sender events : Bytes) : Message :=
  { sender, method := .cancel, data := calendar (lit "CANCEL") events }

def delivered (m : Message) : List Input :=
  .deliver 0 m :: List.replicate 5 (.advance 0 0 .ok)

end Plain

end Elemta.Mailbox.Bookings

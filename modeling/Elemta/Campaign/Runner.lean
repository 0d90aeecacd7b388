import Elemta.Foundation.Bytes
import Elemta.Foundation.Machine
import Elemta.Foundation.Tasks

/-!
# Bulk sending

A campaign is sent by a goroutine that hands one recipient after the other to the queue.
How far it has come is the sum of three counters, which it reads before each recipient and
moves on after it. Requests start, pause and cancel the campaign at any time; a paused
goroutine may still be inside a send, and ends when it looks again.

Every critical section of the campaign's lock or of the runner's lock is one operation, and
so are the look at the suppression list, the wait for the next tick and the send.
-/

namespace Elemta.Campaign

open Bytes

inductive State where
  | draft
  | running
  | paused
  | completed
  | cancelled
  | failed
  deriving DecidableEq

structure Recipient where
  email : Bytes
  vars : List (Bytes × Bytes)
  deriving DecidableEq

structure Content where
  name : Bytes
  fromAddress : Bytes
  replyTo : Bytes
  subject : Bytes
  htmlBody : Bytes
  textBody : Bytes
  recipients : List Recipient
  ratePerMinute : Int
  deriving DecidableEq

/-- Why a campaign cannot be sent; `parses` is the parser of addresses. -/
def Content.validate (parses : Bytes → Bool) (c : Content) : Option Bytes :=
  let problems :=
    (if trimSpace c.name = [] then [lit "name is required"] else []) ++
    (if parses c.fromAddress then []
      else [lit "from " ++ quoted c.fromAddress ++ lit " is not a valid address"]) ++
    (if c.replyTo = [] ∨ parses c.replyTo then []
      else [lit "reply_to " ++ quoted c.replyTo ++ lit " is not a valid address"]) ++
    (if trimSpace c.subject = [] then [lit "subject is required"] else []) ++
    (if 13 ∈ c.subject ∨ 10 ∈ c.subject then [lit "subject must not contain line breaks"]
      else []) ++
    (if trimSpace c.htmlBody = [] ∧ trimSpace c.textBody = [] then
        [lit "a message body is required"]
      else []) ++
    (if c.recipients = [] then [lit "at least one recipient is required"] else []) ++
    (if c.ratePerMinute < 0 then [lit "rate_per_minute must not be negative"] else [])
  if problems = [] then none else some (join (lit "; ") problems)

inductive Outcome where
  | sent
  | failed (error : Bytes)
  | skipped
  deriving DecidableEq

structure Runner where
  content : Content
  state : State
  sent : Nat
  failed : Nat
  skipped : Nat
  lastError : Bytes
  /-- The token of the registered run. -/
  run : Option Nat
  nextToken : Nat
  /-- The runs whose context is cancelled. -/
  halted : List Nat
  /-- The positions that were handed to the queue, oldest first, for the history. -/
  enqueued : List Nat
  /-- The positions that were counted and what for, oldest first, for the history. -/
  outcomes : List (Nat × Outcome)
  deriving DecidableEq

inductive Op where
  | start
  | register
  | next (token : Nat)
  | check (token index : Nat)
  | wait (token index : Nat)
  | send (token index : Nat)
  | tally (token index : Nat) (outcome : Outcome)
  | finish (token : Nat)
  | pause
  | cancel
  | stop
  | halt (token : Nat)
  deriving DecidableEq

/-- What an operation is answered from outside: that the address is suppressed, that the tick has
come, or that the queue has taken the message, which may not have been built. -/
structure Answer where
  yes : Bool
  built : Bool
  error : Bytes
  deriving DecidableEq

namespace Runner

def index (r : Runner) : Nat :=
  r.sent + r.failed + r.skipped

def count (r : Runner) (i : Nat) (outcome : Outcome) : Runner :=
  let r := { r with outcomes := r.outcomes ++ [(i, outcome)] }
  match outcome with
  | .sent => { r with sent := r.sent + 1 }
  | .failed error => { r with failed := r.failed + 1, lastError := error }
  | .skipped => { r with skipped := r.skipped + 1 }

/-- One operation. A request that starts the campaign goes on as its goroutine. -/
def exec (parses : Bytes → Bool) (r : Runner) : Op → Answer → Runner × List Op
  | .start, _ =>
    if (r.state = .draft ∨ r.state = .paused) ∧ r.content.validate parses = none then
      ({ r with state := .running }, [.register])
    else (r, [])
  | .register, _ =>
    match r.run with
    | some _ => (r, [])
    | none =>
      let token := r.nextToken + 1
      ({ r with nextToken := token, run := some token }, [.next token])
  | .next token, _ =>
    if r.state ≠ .running ∨ r.content.recipients.length ≤ r.index then
      (if r.content.recipients.length ≤ r.index ∧ r.state = .running then
          { r with state := .completed }
        else r, [.finish token])
    else (r, [.check token r.index])
  | .check token i, a => (r, [if a.yes then .tally token i .skipped else .wait token i])
  | .wait token i, a =>
    -- Both may be ready, and then either is chosen.
    if a.yes then (r, [.send token i])
    else if token ∈ r.halted then (r, [.finish token])
    else (r, [.wait token i])
  | .send token i, a =>
    if a.built then
      ({ r with enqueued := r.enqueued ++ [i] },
        [.tally token i (if a.yes then .sent else .failed a.error)])
    else (r, [.tally token i (.failed a.error)])
  | .tally token i outcome, _ => (r.count i outcome, [.next token])
  | .finish token, _ => (if r.run = some token then { r with run := none } else r, [])
  | .pause, _ => if r.state = .running then ({ r with state := .paused }, [.stop]) else (r, [])
  | .cancel, _ =>
    if r.state = .completed ∨ r.state = .cancelled then (r, [])
    else ({ r with state := .cancelled }, [.stop])
  | .stop, _ => ({ r with run := none }, r.run.toList.map .halt)
  | .halt token, _ => ({ r with halted := token :: r.halted }, [])

end Runner

/-! ## Runs -/

inductive Request where
  | start
  | pause
  | cancel
  | stopAll
  deriving DecidableEq

def Request.op : Request → Op
  | .start => .start
  | .pause => .pause
  | .cancel => .cancel
  | .stopAll => .stop

inductive Event (τ : Type) where
  | request (g : τ) (q : Request)
  | go (g : τ) (a : Answer)
  deriving DecidableEq

/-- The campaign with the requests and goroutines that are under way. -/
abbrev Sending (τ : Type) := Tasks Runner τ Op

namespace Sending

variable {τ : Type} [DecidableEq τ]

def init (content : Content) : Sending τ :=
  { shared :=
      { content
        state := .draft
        sent := 0
        failed := 0
        skipped := 0
        lastError := []
        run := none
        nextToken := 0
        halted := []
        enqueued := []
        outcomes := [] }
    todo := fun _ => [] }

def step (parses : Bytes → Bool) (s : Sending τ) : Event τ → Sending τ
  | .request g q => s.spawn g [q.op]
  | .go g a => s.advance (Runner.exec parses) g a

end Sending
end Elemta.Campaign

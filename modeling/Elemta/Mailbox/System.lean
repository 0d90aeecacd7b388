import Elemta.Foundation.Machine
import Elemta.Mailbox.Accounts

/-!
# The mailbox engine at work

Appends, other transactions, removals and passes of the garbage collector on one database
and one body store, in any order. A transaction on an account holds the account's lock
from its first statement on, so it is one step. An append is not one transaction: it
reserves quota, stages a body row, puts the body, publishes it and cleans up after itself
in steps of their own, and its process can die between any two. A collector's pass is one
transaction of several statements, which see what others have committed in between, and
keeps the rows that it has changed or selected locked to its end.

Every call to the database or the body store can fail, and it can also take effect and
then be reported as failed.
-/

namespace Elemta.Mailbox

open Bytes

/-! ## Body rows -/

inductive BodyState where
  | staging
  | ready
  | retiring
  deriving DecidableEq

/-- `mailbox_bodies`; size and checksum are those of the upload. -/
structure BodyRow where
  state : BodyState
  expires : Time
  orphanedAt : Option Time
  deriving DecidableEq

def uploadLease : Time :=
  600 * second

def dayTime : Time :=
  86400 * second

/-- How a call ends for the one who made it: `lost` took effect although an error came back. -/
inductive Outcome where
  | done
  | failed
  | lost
  deriving DecidableEq

def Outcome.effective (o : Outcome) : Bool :=
  o != .failed

/-! ## Calls in progress -/

inductive AppendPhase where
  | reserve
  | stage
  | put
  | summarize
  | publish
  | deleteBody
  | deleteRow
  | release
  | finished
  deriving DecidableEq

structure Append where
  account : Bytes
  folder : Bytes
  upload : Upload
  phase : AppendPhase
  deriving DecidableEq

def AppendPhase.holdsQuota : AppendPhase → Bool
  | .reserve => false
  | .finished => false
  | _ => true

inductive RemovalKind where
  | expunge (name : Bytes) (uids : List Nat) (requireDeleted : Bool)
  | deleteFolder (name : Bytes)
  deriving DecidableEq

structure Removal where
  account : Bytes
  kind : RemovalKind
  held : Bool
  finished : Bool
  deriving DecidableEq

inductive PassPhase where
  | mark
  | unmark
  | select
  | recheck (todo : List Key)
  | list
  | delete (keys : List Key)
  | postpone (key : Key) (rest : List Key)
  | finished
  deriving DecidableEq

structure Pass where
  begun : Time
  markedAt : Time
  marked : List Key
  unmarked : List Key
  selected : List Key
  retired : List Key
  phase : PassPhase
  deriving DecidableEq

def Pass.isOpen (p : Pass) : Bool :=
  match p.phase with
  | .mark => true
  | .unmark => true
  | .select => true
  | .recheck _ => true
  | _ => false

def Pass.locks (p : Pass) (key : Key) : Bool :=
  p.isOpen && (decide (key ∈ p.marked) || decide (key ∈ p.unmarked) || decide (key ∈ p.selected))

/-- The pass has locked the row against everybody else, not only against other writers. -/
def Pass.claims (p : Pass) (key : Key) : Bool :=
  p.isOpen && decide (key ∈ p.selected)

/-! ## The state -/

structure Retirement where
  key : Key
  /-- When the last reference to it went. -/
  freed : Option Time
  /-- The beginning of the pass that marked it, and when it did. -/
  marking : Time
  seen : Option Time
  /-- The beginning of the pass that retired it, and when it did. -/
  begun : Time
  done : Time
  deriving DecidableEq

structure Refusal where
  size : Nat
  quota : Int
  used : Int
  /-- What the other appends in progress have reserved. -/
  uploading : Int
  deriving DecidableEq

structure System where
  clock : Time
  accounts : List Account
  bodies : Key → Option BodyRow
  stored : Key → Bool
  nextKey : Nat
  nextFolder : Nat
  nextValidity : Nat
  /-- The addresses that their class of service puts on legal hold. -/
  policy : Bytes → Bool
  appends : List Append
  removals : List Removal
  passes : List Pass
  freed : Key → Option Time
  seen : Key → Option Time
  retirements : List Retirement
  collected : List Key
  refusals : List Refusal
  /-- Messages that were removed from a held account without a held copy. -/
  unheld : List Message
  /-- The accounts whose quota was lowered. -/
  lowered : Bytes → Bool

def System.init : System :=
  { clock := 0
    accounts := []
    bodies := fun _ => none
    stored := fun _ => false
    nextKey := 0
    nextFolder := 0
    nextValidity := 1
    policy := fun _ => false
    appends := []
    removals := []
    passes := []
    freed := fun _ => none
    seen := fun _ => none
    retirements := []
    collected := []
    refusals := []
    unheld := []
    lowered := fun _ => false }

def reservation (id : Bytes) (p : Append) : Int :=
  if p.account = id ∧ p.phase.holdsQuota = true then p.upload.size else 0

namespace System

variable (s : System)

def account (id : Bytes) : Option Account :=
  s.accounts.find? fun a => a.id == id

def referenced (key : Key) : Bool :=
  s.accounts.any fun a => decide (key ∈ a.refs)

def locked (key : Key) : Bool :=
  s.passes.any fun p => p.locks key

def claimed (key : Key) : Bool :=
  s.passes.any fun p => p.claims key

def bodyState (key : Key) : Option BodyState :=
  (s.bodies key).map BodyRow.state

def onHold (id : Bytes) : Bool :=
  match s.account id with
  | none => false
  | some a => s.policy a.address

def commit (a a' : Account) : System :=
  { s with
    accounts := s.accounts.map fun b => if b.id = a'.id then a' else b
    freed := fun key => if key ∈ a.refs ∧ key ∉ a'.refs then some s.clock else s.freed key }

def setAppend (i : Nat) (p : Append) (phase : AppendPhase) : System :=
  { s with appends := s.appends.set i { p with phase := phase } }

def setBody (key : Key) (row : Option BodyRow) : System :=
  { s with bodies := Function.update s.bodies key row }

def setStored (key : Key) (present : Bool) : System :=
  { s with stored := Function.update s.stored key present }

def uploading (id : Bytes) : Int :=
  (s.appends.map (reservation id)).sum

def refuse (a : Account) (p : Append) : System :=
  { s with
    refusals := s.refusals ++
      [{ size := p.upload.size
         quota := a.quota
         used := a.used
         uploading := s.uploading a.id - reservation a.id p }] }

/-! ## Appending -/

/-- `Bodies.Put` and `Bodies.Delete` leave the body there or not. -/
def putBody (key : Key) (outcome : Outcome) : System :=
  if outcome.effective then s.setStored key true else s

def deleteBody (key : Key) (outcome : Outcome) : System :=
  if outcome.effective then s.setStored key false else s

def leased (key : Key) (begun : Time) : Bool :=
  match s.bodies key with
  | none => false
  | some row => row.state == .staging && decide (begun < row.expires)

def setReady (key : Key) : System :=
  s.setBody key ((s.bodies key).map fun row => { row with state := .ready })

def reserveStep (i : Nat) (p : Append) (outcome : Outcome) : System :=
  match s.account p.account with
  | none => s.setAppend i p .finished
  | some a =>
    match a.reserve p.folder p.upload with
    | .error e => (if e = .quota then s.refuse a p else s).setAppend i p .finished
    | .ok (_, some _) => s.setAppend i p .finished
    | .ok (a', none) =>
      match outcome with
      | .done => (s.commit a a').setAppend i p .stage
      | .failed => s.setAppend i p .finished
      -- the reservation is there, and nobody will give it back
      | .lost => (s.commit a a').setAppend i p .finished

def publishStep (i : Nat) (p : Append) (outcome : Outcome) (begun : Time) : System :=
  if s.locked p.upload.key then s
  else
    match s.account p.account with
    | none => s.setAppend i p .deleteBody
    | some a =>
      match a.publish p.folder p.upload (s.leased p.upload.key begun) begun with
      | .error e => (if e = .quota then s.refuse a p else s).setAppend i p .deleteBody
      | .ok (_, _, true) => s.setAppend i p .deleteBody
      | .ok (a', _, false) =>
        match outcome with
        | .done => ((s.commit a a').setReady p.upload.key).setAppend i p .finished
        | .failed => s.setAppend i p .deleteBody
        -- `published` stays false although the message is there
        | .lost => ((s.commit a a').setReady p.upload.key).setAppend i p .deleteBody

def releaseStep (i : Nat) (p : Append) (outcome : Outcome) : System :=
  match s.account p.account with
  | none => s.setAppend i p .finished
  | some a =>
    if outcome.effective then
      (s.commit a { a with reserved := a.reserved - p.upload.size }).setAppend i p .finished
    else s.setAppend i p .finished

def appendStep (i : Nat) (p : Append) (outcome : Outcome) (begun : Time) : System :=
  match p.phase with
  | .reserve => s.reserveStep i p outcome
  | .stage =>
    let row : BodyRow := { state := .staging, expires := s.clock + uploadLease, orphanedAt := none }
    match outcome with
    | .done => (s.setBody p.upload.key (some row)).setAppend i p .put
    | .failed => s.setAppend i p .release
    | .lost => (s.setBody p.upload.key (some row)).setAppend i p .release
  | .put =>
    (s.putBody p.upload.key outcome).setAppend i p
      (if outcome = .done then .summarize else .deleteBody)
  | .summarize => s.setAppend i p (if outcome = .done then .publish else .deleteBody)
  | .publish => s.publishStep i p outcome (min begun s.clock)
  | .deleteBody =>
    (s.deleteBody p.upload.key outcome).setAppend i p
      (if outcome = .done then .deleteRow else .release)
  | .deleteRow =>
    if s.locked p.upload.key then s
    else
      (if outcome.effective ∧ s.bodyState p.upload.key = some .staging then s.setBody p.upload.key none
        else s).setAppend i p .release
  | .release => s.releaseStep i p outcome
  | .finished => s

end System

/-! ## Other transactions -/

inductive Tx where
  | mutateFlags (name : Bytes) (uids : List Nat) (flags : List Bytes) (op : FlagOp)
      (unchangedSince : Nat)
  | copyMove (src dst : Bytes) (uids : List Nat) (move : Bool)
  | create (name : Bytes)
  | rename (old new : Bytes)
  deriving DecidableEq

def Tx.bodies (a : Account) : Tx → List Key
  | .copyMove src _ uids _ =>
    match a.folder src with
    | .error _ => []
    | .ok f => (f.messages.filter fun m => decide (m.uid ∈ uids)).map Message.body
  | _ => []

def Tx.run (s : System) (a : Account) : Tx → Except MailboxError Account
  | .mutateFlags name uids flags op since =>
    (a.mutateFlagsIf name uids flags op since s.clock).map Prod.fst
  | .copyMove src dst uids move =>
    (a.copyMove src dst uids move (fun key => s.bodyState key == some .ready) s.clock).map Prod.fst
  | .create name => a.create name s.nextFolder s.nextValidity
  | .rename old new => a.rename old new

/-- The sequences move on whether the transaction commits or not. -/
def System.drawIds (s : System) : System :=
  { s with nextFolder := s.nextFolder + 1, nextValidity := s.nextValidity + 1 }

def System.transact (s : System) (id : Bytes) (tx : Tx) (outcome : Outcome) : System :=
  match s.account id with
  | none => s
  | some a =>
    if (tx.bodies a).any s.locked then s
    else
      match tx.run s a with
      | .error _ => s.drawIds
      | .ok a' => if outcome.effective then (s.commit a a').drawIds else s.drawIds

def emptyAccount (id address : Bytes) (quota : Int) : Account :=
  { id := id
    address := address
    quota := quota
    used := 0
    reserved := 0
    writable := true
    folders := []
    deliveries := []
    held := [] }

/-- A quota of zero is none. -/
def lowers (old new : Int) : Bool :=
  decide (0 < new) && (decide (old ≤ 0) || decide (new < old))

/-- `EnsureAccount`: the account is as the directory has it, and has an INBOX. -/
def System.ensureAccount (s : System) (id address : Bytes) (quota : Int) : System :=
  if id = [] ∨ address = [] ∨ quota < 0 then s
  else
    let s := s.drawIds
    match s.account id with
    | none =>
      let a := emptyAccount id (toLower address) quota
      match a.ensureInbox (s.nextFolder - 1) (s.nextValidity - 1) with
      | .error _ => { s with accounts := s.accounts ++ [a] }
      | .ok a' => { s with accounts := s.accounts ++ [a'] }
    | some a =>
      let b := { a with address := toLower address, quota := quota }
      let s := { s with
        lowered := Function.update s.lowered id (s.lowered id || lowers a.quota quota) }
      match b.ensureInbox (s.nextFolder - 1) (s.nextValidity - 1) with
      | .error _ => s.commit a b
      | .ok b' => s.commit a b'

/-! ## Removing -/

def Removal.run (r : Removal) (a : Account) (now : Time) :
    Except MailboxError (Account × List Message) :=
  match r.kind with
  | .expunge name uids requireDeleted => a.expunge name uids requireDeleted r.held now
  | .deleteFolder name => a.deleteFolder name r.held

def hasCopy (a : Account) (m : Message) : Bool :=
  a.held.any fun h => h.body == m.body && h.flags == m.flags && h.date == m.date

/-- A deleted folder's body rows are written, and a held copy refers to one. -/
def Removal.waits (r : Removal) (s : System) (removed : List Message) : Bool :=
  match r.kind with
  | .expunge _ _ _ => r.held && (removed.map Message.body).any s.claimed
  | .deleteFolder _ => (removed.map Message.body).any s.locked

def System.remove (s : System) (i : Nat) (outcome : Outcome) : System :=
  match s.removals[i]? with
  | none => s
  | some r =>
    if r.finished then s
    else
      let finished := { s with removals := s.removals.set i { r with finished := true } }
      match s.account r.account with
      | none => finished
      | some a =>
        match r.run a s.clock with
        | .error _ => finished
        | .ok (a', removed) =>
          if r.waits s removed then s
          else if outcome.effective then
            { finished.commit a a' with
              unheld := s.unheld ++
                if s.policy a.address then removed.filter fun m => !hasCopy a' m else [] }
          else finished

/-! ## Collecting -/

/-- Seven days, unless configured otherwise. -/
structure GcConfig where
  bodyGrace : Time
  deriving DecidableEq

def GcConfig.grace (cfg : GcConfig) : Time :=
  if cfg.bodyGrace = 0 then 7 * dayTime else cfg.bodyGrace / second * second

def System.markable (s : System) (key : Key) : Bool :=
  match s.bodies key with
  | none => false
  | some row => row.state == .ready && row.orphanedAt == none && !s.referenced key && !s.locked key

def System.unmarkable (s : System) (key : Key) : Bool :=
  match s.bodies key with
  | none => false
  | some row => row.state == .ready && row.orphanedAt != none && s.referenced key && !s.locked key

/-- A row that the pass may retire, if nobody else has it locked. -/
def System.candidate (cfg : GcConfig) (s : System) (begun : Time) (key : Key) : Bool :=
  match s.bodies key with
  | none => false
  | some row =>
    !s.locked key &&
      match row.state with
      | .staging => decide (row.expires < begun)
      | .ready =>
        (match row.orphanedAt with
          | none => false
          | some t => decide (t + cfg.grace < begun)) && !s.referenced key
      | .retiring => false

def System.setPass (s : System) (i : Nat) (p : Pass) : System :=
  { s with passes := s.passes.set i p }

def Pass.write (p : Pass) (key : Key) (row : BodyRow) : BodyRow :=
  if key ∈ p.retired then { row with state := .retiring, expires := p.begun }
  else if key ∈ p.marked then { row with orphanedAt := some p.begun }
  else if key ∈ p.unmarked then { row with orphanedAt := none }
  else row

def System.retirementsOf (s : System) (p : Pass) : List Retirement :=
  p.retired.filterMap fun key =>
    match s.bodies key with
    | some { state := .ready, orphanedAt := some t, .. } =>
      some
        { key := key
          freed := s.freed key
          marking := t
          seen := s.seen key
          begun := p.begun
          done := s.clock }
    | _ => none

def System.commitPass (s : System) (p : Pass) : System :=
  { s with
    bodies := fun key => (s.bodies key).map (p.write key)
    seen := fun key => if key ∈ p.marked then some p.markedAt else s.seen key
    retirements := s.retirements ++ s.retirementsOf p }

/-- One statement of a pass, or one deletion behind its transaction. `choice` is what the limits
leave of the rows that a statement would take. -/
def System.passStep (cfg : GcConfig) (s : System) (i : Nat) (p : Pass) (choice : List Key)
    (outcome : Outcome) : System :=
  match p.phase with
  | .mark =>
    if outcome = .done then
      s.setPass i { p with
        marked := choice.filter s.markable, markedAt := s.clock, phase := .unmark }
    else s.setPass i { p with phase := .finished }
  | .unmark =>
    if outcome = .done then
      s.setPass i { p with unmarked := choice.filter s.unmarkable, phase := .select }
    else s.setPass i { p with phase := .finished }
  | .select =>
    if outcome = .done then
      let selected := choice.filter (s.candidate cfg p.begun)
      s.setPass i { p with selected := selected, phase := .recheck selected }
    else s.setPass i { p with phase := .finished }
  | .recheck (key :: rest) =>
    if outcome = .done then
      if s.referenced key then s.setPass i { p with phase := .recheck rest }
      else s.setPass i { p with retired := p.retired ++ [key], phase := .recheck rest }
    else s.setPass i { p with phase := .finished }
  | .recheck [] =>
    match outcome with
    | .done => (s.commitPass p).setPass i { p with phase := .list }
    | .failed => s.setPass i { p with phase := .finished }
    | .lost => (s.commitPass p).setPass i { p with phase := .finished }
  | .list =>
    if outcome = .done then
      s.setPass i { p with
        phase := .delete (choice.filter fun key =>
          match s.bodies key with
          | none => false
          | some row => row.state == .retiring && decide (row.expires ≤ s.clock)) }
    else s.setPass i { p with phase := .finished }
  | .delete [] => s.setPass i { p with phase := .finished }
  | .delete (key :: rest) =>
    let s' := s.deleteBody key outcome
    let s' := if outcome.effective then { s' with collected := s'.collected ++ [key] } else s'
    if outcome = .done then s'.setPass i { p with phase := .postpone key rest }
    else s'.setPass i { p with phase := .finished }
  | .postpone key rest =>
    let s' :=
      if outcome.effective ∧ s.bodyState key = some .retiring then
        s.setBody key ((s.bodies key).map fun row => { row with expires := s.clock + dayTime })
      else s
    if outcome = .done then s'.setPass i { p with phase := .delete rest }
    else s'.setPass i { p with phase := .finished }
  | .finished => s

/-! ## The machine -/

inductive Input where
  | wait (elapsed : Time)
  | ensureAccount (id address : Bytes) (quota : Int)
  | setPolicy (address : Bytes) (hold : Bool)
  | beginAppend (account folder : Bytes) (size : Nat) (checksum : Bytes)
      (flags : List Bytes) (date : Time) (token : Bytes)
  | append (i : Nat) (outcome : Outcome) (begun : Time)
  | crash (i : Nat)
  | transact (account : Bytes) (tx : Tx) (outcome : Outcome)
  | beginRemoval (account : Bytes) (kind : RemovalKind)
  | remove (i : Nat) (outcome : Outcome)
  | beginPass
  | pass (i : Nat) (choice : List Key) (outcome : Outcome)
  deriving DecidableEq

def step (cfg : GcConfig) (s : System) : Input → System
  | .wait elapsed => { s with clock := s.clock + elapsed }
  | .ensureAccount id address quota => s.ensureAccount id address quota
  | .setPolicy address hold => { s with policy := Function.update s.policy address hold }
  | .beginAppend account folder size checksum flags date token =>
    let u : Upload :=
      { key := s.nextKey
        size := size
        checksum := checksum
        flags := flags
        date := date
        token := token }
    { s with
      nextKey := s.nextKey + 1
      appends := s.appends ++ [{ account := account, folder := folder, upload := u, phase := .reserve }] }
  | .append i outcome begun =>
    match s.appends[i]? with
    | none => s
    | some p => s.appendStep i p outcome begun
  | .crash i =>
    match s.appends[i]? with
    | none => s
    | some p => s.setAppend i p .finished
  | .transact account tx outcome => s.transact account tx outcome
  | .beginRemoval account kind =>
    { s with
      removals := s.removals ++
        [{ account := account, kind := kind, held := s.onHold account, finished := false }] }
  | .remove i outcome => s.remove i outcome
  | .beginPass =>
    { s with
      passes := s.passes ++
        [{ begun := s.clock
           markedAt := s.clock
           marked := []
           unmarked := []
           selected := []
           retired := []
           phase := .mark }] }
  | .pass i choice outcome =>
    match s.passes[i]? with
    | none => s
    | some p => s.passStep cfg i p choice outcome

end Elemta.Mailbox

import Elemta.Foundation.Machine
import Elemta.Mailbox.Folders
import Mathlib.Data.List.Dedup

/-!
# The journal of changes

`Changes` answers from a folder's journal which rows have changed since a MODSEQ, and
`CompactChanges` drops old entries and raises the folder's floor, below which there is no
answer. A compaction is one transaction of two statements, each of which sees what others
have committed: entries could be dropped by the second that the first has not seen. But an
entry is as old as its transaction, a transaction has 45 seconds, and entries are kept for
an hour at least.
-/

namespace Elemta.Mailbox

open Bytes ChangeLog

/-! ## Answers -/

structure FolderChanges where
  changed : List Message
  gone : List Nat
  complete : Bool
  deriving DecidableEq

def Folder.touchedSince (f : Folder) (since : Nat) : List Nat :=
  (touched f.log since).dedup

def Folder.changesSince (f : Folder) (since : Nat) : FolderChanges :=
  if since < f.floor then { changed := [], gone := [], complete := false }
  else if f.modseq ≤ since then { changed := [], gone := [], complete := true }
  else
    let uids := f.touchedSince since
    let msgs := f.messages.filter fun m => decide (m.uid ∈ uids)
    { changed := msgs
      gone := uids.filter fun u => decide (u ∉ msgs.map Message.uid)
      complete := true }

def Account.changes (a : Account) (folder since : Nat) : Except MailboxError FolderChanges :=
  match a.folders.find? fun f => f.id == folder with
  | none => .error .notFound
  | some f => .ok (f.changesSince since)

def FolderChanges.apply (c : FolderChanges) (rows : Content Nat Message) : Content Nat Message :=
  fun uid =>
    if uid ∈ c.gone then none
    else
      match c.changed.find? fun m => m.uid == uid with
      | some m => some m
      | none => rows uid

/-! ## Compactions -/

inductive CompactionPhase where
  | raise
  | delete
  | commit
  | finished
  deriving DecidableEq

/-- `CompactChanges`, with the floors it has written and the entries it has deleted: folder and
MODSEQ. -/
structure Compaction where
  cutoff : Time
  raised : List (Nat × Nat)
  deleted : List (Nat × Nat)
  phase : CompactionPhase
  deriving DecidableEq

def Compaction.isOpen (c : Compaction) : Bool :=
  c.phase == .delete || c.phase == .commit

def Compaction.locks (c : Compaction) (folder : Nat) : Bool :=
  c.isOpen && c.raised.any fun r => r.1 == folder

/-- The MODSEQ of the newest entry that is too old, if it is above the floor. -/
def Folder.raiseTo (f : Folder) (cutoff : Time) : Option Nat :=
  match ((f.changes.filter fun c => decide (c.created < cutoff)).map Change.modseq).max? with
  | none => none
  | some top => if f.floor < top then some top else none

def Account.raises (a : Account) (cutoff : Time) : List (Nat × Nat) :=
  a.folders.filterMap fun f => (f.raiseTo cutoff).map fun top => (f.id, top)

def Account.oldEntries (a : Account) (cutoff : Time) : List (Nat × Nat) :=
  a.folders.flatMap fun f =>
    (f.changes.filter fun c => decide (c.created < cutoff)).map fun c => (f.id, c.modseq)

def Compaction.floorOf (c : Compaction) (f : Folder) : Nat :=
  match c.raised.find? fun r => r.1 == f.id with
  | none => f.floor
  | some r => r.2

def Compaction.compact (c : Compaction) (f : Folder) : Folder :=
  { f with
    floor := c.floorOf f
    changes := f.changes.filter fun change => decide ((f.id, change.modseq) ∉ c.deleted) }

/-! ## The machine -/

inductive Write where
  | append (name : Bytes) (upload : Upload) (leased : Bool)
  | mutateFlags (name : Bytes) (uids : List Nat) (flags : List Bytes) (op : FlagOp)
      (unchangedSince : Nat)
  | expunge (name : Bytes) (uids : List Nat) (requireDeleted held : Bool)
  | deleteFolder (name : Bytes) (held : Bool)
  | copyMove (src dst : Bytes) (uids : List Nat) (move : Bool) (ready : List Key)
  | create (name : Bytes)
  | rename (old new : Bytes)
  deriving DecidableEq

namespace Journal

structure State where
  clock : Time
  account : Account
  nextFolder : Nat
  nextValidity : Nat
  compactions : List Compaction
  deriving DecidableEq

/-- An account as `EnsureAccount` leaves it. -/
def State.init (id address : Bytes) (quota : Int) : State :=
  { clock := 0
    account :=
      { id := id
        address := address
        quota := quota
        used := 0
        reserved := 0
        writable := true
        folders := [newFolder 0 1 inbox]
        deliveries := []
        held := [] }
    nextFolder := 1
    nextValidity := 2
    compactions := [] }

def Write.run (s : State) (now : Time) : Write → Except MailboxError Account
  | .append name u leased => (s.account.publish name u leased now).map Prod.fst
  | .mutateFlags name uids flags op since =>
    (s.account.mutateFlagsIf name uids flags op since now).map Prod.fst
  | .expunge name uids requireDeleted held =>
    (s.account.expunge name uids requireDeleted held now).map Prod.fst
  | .deleteFolder name held => (s.account.deleteFolder name held).map Prod.fst
  | .copyMove src dst uids move ready =>
    (s.account.copyMove src dst uids move (fun key => decide (key ∈ ready)) now).map Prod.fst
  | .create name => s.account.create name s.nextFolder s.nextValidity
  | .rename old new => s.account.rename old new

def callTimeout : Time :=
  45 * second

def hourTime : Time :=
  3600 * second

inductive Input where
  | wait (elapsed : Time)
  /-- A transaction that began at the given time commits. -/
  | write (w : Write) (begun : Time)
  | beginCompaction (hours : Nat)
  | compact (i : Nat) (effective : Bool)
  deriving DecidableEq

def State.setCompaction (s : State) (i : Nat) (c : Compaction) : State :=
  { s with compactions := s.compactions.set i c }

/-- A transaction that has run out of time does not commit. -/
def State.write (s : State) (w : Write) (begun : Time) : State :=
  if begun ≤ s.clock ∧ s.clock < begun + callTimeout then
    let s' := { s with nextFolder := s.nextFolder + 1, nextValidity := s.nextValidity + 1 }
    match Write.run s begun w with
    | .error _ => s'
    | .ok a => { s' with account := a }
  else s

def State.compactStep (s : State) (i : Nat) (c : Compaction) (effective : Bool) : State :=
  match c.phase with
  | .raise =>
    if effective then
      let raised := s.account.raises c.cutoff
      -- the update waits for rows that another compaction has written
      if raised.any fun r => s.compactions.any fun other => other.locks r.1 then s
      else s.setCompaction i { c with raised := raised, phase := .delete }
    else s.setCompaction i { c with phase := .finished }
  | .delete =>
    if effective then
      s.setCompaction i { c with deleted := s.account.oldEntries c.cutoff, phase := .commit }
    else s.setCompaction i { c with phase := .finished }
  | .commit =>
    if effective then
      { s.setCompaction i { c with phase := .finished } with
        account := { s.account with folders := s.account.folders.map c.compact } }
    else s.setCompaction i { c with phase := .finished }
  | .finished => s

/-- Journals are compacted only when they are to be kept for some hours. -/
def step (s : State) : Input → State
  | .wait elapsed => { s with clock := s.clock + elapsed }
  | .write w begun => s.write w begun
  | .beginCompaction hours =>
    if 0 < hours then
      { s with
        compactions := s.compactions ++
          [{ cutoff := s.clock - hours * hourTime, raised := [], deleted := [], phase := .raise }] }
    else s
  | .compact i effective =>
    match s.compactions[i]? with
    | none => s
    | some c => s.compactStep i c effective

end Journal
end Elemta.Mailbox

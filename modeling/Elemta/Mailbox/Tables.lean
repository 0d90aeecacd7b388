import Elemta.Foundation.Bytes
import Mathlib.Data.List.Sort

/-!
# The tables of the mailbox

One account with its folders, their messages and their journals, its delivery tokens and
the mail that is held for it. Everything here belongs to one account, and every
transaction on it starts by locking the account's row, so a transaction is a function on
this value. A folder keeps its rows in the order of their UIDs, and a message carries the
size and the checksum of its body, which never change.
-/

namespace Elemta.Mailbox

open Bytes

/-- Microseconds. -/
abbrev Time := Nat

def second : Time :=
  1000000

/-- Each upload has a body key of its own. -/
abbrev Key := Nat

inductive MailboxError where
  | notFound
  | exists
  | tooLarge
  | quota
  | readOnly
  | conflict
  | invalidName
  | cannotDelete
  | invalidRename
  | sameFolder
  | bodyRetiring
  | uidsExhausted
  | leaseExpired
  deriving DecidableEq

/-! ## Rows -/

structure Message where
  uid : Nat
  body : Key
  flags : List Bytes
  date : Time
  modseq : Nat
  size : Nat
  checksum : Bytes
  deriving DecidableEq

inductive ChangeKind where
  | append
  | flags
  | expunge
  deriving DecidableEq

structure Change where
  modseq : Nat
  kind : ChangeKind
  uid : Nat
  created : Time
  deriving DecidableEq

structure Folder where
  id : Nat
  name : Bytes
  validity : Nat
  next : Nat
  modseq : Nat
  /-- `journal_floor` -/
  floor : Nat
  messages : List Message
  changes : List Change
  deriving DecidableEq

structure Delivery where
  token : Bytes
  checksum : Bytes
  validity : Nat
  uid : Nat
  deriving DecidableEq

structure Held where
  folder : Bytes
  body : Key
  flags : List Bytes
  date : Time
  reason : Bytes
  deriving DecidableEq

structure Account where
  id : Bytes
  address : Bytes
  quota : Int
  used : Int
  reserved : Int
  writable : Bool
  folders : List Folder
  deliveries : List Delivery
  held : List Held
  deriving DecidableEq

/-! ## Names and flags -/

def inbox : Bytes :=
  lit "INBOX"

def canonicalMailbox (name : Bytes) : Bytes :=
  if equalFold name inbox then inbox
  else if name.getLast? = some 47 then name.dropLast
  else name

def validMailbox (name : Bytes) : Bool :=
  name != [] && decide (name.length ≤ 512) && !name.any (fun b => b == 0 || b == 13 || b == 10) &&
    !hasPrefix name (lit "/")

def normalizeFlagsAux : List Bytes → List Bytes → List Bytes
  | _, [] => []
  | seen, flag :: rest =>
    let f := toLower flag
    if f = lit "\\recent" ∨ f = [] ∨ f ∈ seen then normalizeFlagsAux seen rest
    else f :: normalizeFlagsAux (f :: seen) rest

/-- Lower case, each once, sorted; `\Recent` is never stored. -/
def normalizeFlags (flags : List Bytes) : List Bytes :=
  (normalizeFlagsAux [] flags).insertionSort (· ≤ ·)

def hasFlag (flags : List Bytes) (flag : Bytes) : Bool :=
  flags.any fun f => equalFold f flag

inductive FlagOp where
  | set
  | add
  | remove
  deriving DecidableEq

def nextFlags (op : FlagOp) (old want : List Bytes) : List Bytes :=
  match op with
  | .set => want
  | .add => normalizeFlags (old ++ want)
  | .remove => normalizeFlags (old.filter fun v => !hasFlag want v)

/-! ## One folder -/

def maxUID : Nat :=
  4294967295

def Folder.insert (f : Folder) (now : Time) (m : Message) : Folder :=
  { f with
    next := f.next + 1
    modseq := f.modseq + 1
    messages := f.messages ++ [{ m with uid := f.next, modseq := f.modseq + 1 }]
    changes := f.changes ++
      [{ modseq := f.modseq + 1, kind := .append, uid := f.next, created := now }] }

def journal (kind : ChangeKind) (now : Time) : Nat → List Nat → List Change
  | _, [] => []
  | modseq, uid :: rest =>
    { modseq := modseq + 1, kind := kind, uid := uid, created := now } ::
      journal kind now (modseq + 1) rest

def Folder.remove (f : Folder) (now : Time) (chosen : Message → Bool) : Folder :=
  let removed := f.messages.filter chosen
  { f with
    modseq := f.modseq + removed.length
    messages := f.messages.filter fun m => !chosen m
    changes := f.changes ++ journal .expunge now f.modseq (removed.map Message.uid) }

structure Restated where
  modseq : Nat
  messages : List Message
  changes : List Change
  modified : List Nat

def restate (now : Time) (uids : List Nat) (want : List Bytes) (op : FlagOp)
    (unchangedSince : Nat) : Nat → List Message → Restated
  | modseq, [] => { modseq := modseq, messages := [], changes := [], modified := [] }
  | modseq, m :: rest =>
    let keep (r : Restated) : Restated := { r with messages := m :: r.messages }
    if m.uid ∉ uids then keep (restate now uids want op unchangedSince modseq rest)
    else if unchangedSince ≠ 0 ∧ m.modseq > unchangedSince then
      let r := keep (restate now uids want op unchangedSince modseq rest)
      { r with modified := m.uid :: r.modified }
    else
      let next := nextFlags op m.flags want
      if m.flags = next then keep (restate now uids want op unchangedSince modseq rest)
      else
        let r := restate now uids want op unchangedSince (modseq + 1) rest
        { r with
          messages := { m with flags := next, modseq := modseq + 1 } :: r.messages
          changes :=
            { modseq := modseq + 1, kind := .flags, uid := m.uid, created := now } :: r.changes }

/-! ## Folders of an account -/

def Account.folder (a : Account) (name : Bytes) : Except MailboxError Folder :=
  match a.folders.find? fun f => f.name == canonicalMailbox name with
  | none => .error .notFound
  | some f => .ok f

def Account.setFolder (a : Account) (f : Folder) : Account :=
  { a with folders := a.folders.map fun g => if g.id = f.id then f else g }

structure AppendResult where
  validity : Nat
  uid : Nat
  deriving DecidableEq

def Account.delivered (a : Account) (token checksum : Bytes) :
    Except MailboxError (Option AppendResult) :=
  if token = [] then .ok none
  else
    match a.deliveries.find? fun d => d.token == token with
    | none => .ok none
    | some d =>
      if d.checksum ≠ checksum then .error .conflict
      else .ok (some { validity := d.validity, uid := d.uid })

def Account.messages (a : Account) : List Message :=
  a.folders.flatMap Folder.messages

def totalSize (messages : List Message) : Int :=
  (messages.map fun m => (m.size : Int)).sum

end Elemta.Mailbox

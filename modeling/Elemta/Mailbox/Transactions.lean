import Elemta.Mailbox.Tables

/-!
# Transactions on an account

What each transaction of the mailbox engine does to the account it has locked, or why it
gives up. `now` is the time at which the transaction began, as the database gives it. The
state of a body is looked up by the caller, who has the body's row.
-/

namespace Elemta.Mailbox

open Bytes

/-- `Engine.tx` behind the account's lock. -/
def Account.tx {α : Type} (a : Account) (fn : Account → Except MailboxError α) :
    Except MailboxError α :=
  if a.writable then fn a else .error .readOnly

/-! ## Appending -/

structure Upload where
  key : Key
  size : Nat
  checksum : Bytes
  flags : List Bytes
  date : Time
  token : Bytes
  deriving DecidableEq

def Account.overbooked (a : Account) (size : Nat) : Bool :=
  decide (0 < a.quota) && decide (a.quota - a.used - a.reserved < size)

def Account.overfull (a : Account) (size : Int) : Bool :=
  decide (0 < a.quota) && decide (a.quota < a.used + size)

/-- The first transaction of `Append`: quota is reserved, unless the message is there already. -/
def Account.reserve (a : Account) (name : Bytes) (u : Upload) :
    Except MailboxError (Account × Option AppendResult) :=
  a.tx fun a => do
    match ← a.delivered u.token u.checksum with
    | some r => return (a, some r)
    | none =>
      let f ← a.folder name
      if f.next = 0 ∨ f.next = maxUID then throw .uidsExhausted
      if a.overbooked u.size then throw .quota
      return ({ a with reserved := a.reserved + u.size }, none)

def Upload.message (u : Upload) : Message :=
  { uid := 0
    body := u.key
    flags := normalizeFlags u.flags
    date := u.date
    modseq := 0
    size := u.size
    checksum := u.checksum }

def Account.publishIn (a : Account) (f : Folder) (u : Upload) (now : Time) : Account :=
  { a.setFolder (f.insert now u.message) with
    used := a.used + u.size
    reserved := a.reserved - u.size
    deliveries :=
      if u.token = [] then a.deliveries
      else a.deliveries ++
        [{ token := u.token, checksum := u.checksum, validity := f.validity, uid := f.next }] }

/-- The second transaction of `Append`. The lease of the upload is that its body is still staging
and has not expired. The Boolean of the answer is that the message was there already. -/
def Account.publish (a : Account) (name : Bytes) (u : Upload) (leased : Bool) (now : Time) :
    Except MailboxError (Account × AppendResult × Bool) :=
  a.tx fun a => do
    match ← a.delivered u.token u.checksum with
    | some r => return (a, r, true)
    | none =>
      let f ← a.folder name
      if f.next = 0 ∨ f.next = maxUID then throw .uidsExhausted
      if a.overfull u.size then throw .quota
      if leased = false then throw .leaseExpired
      return (a.publishIn f u now, { validity := f.validity, uid := f.next }, false)

/-! ## Flags -/

/-- `MutateFlagsIf`; the answer is the UIDs that were left alone. -/
def Account.mutateFlagsIf (a : Account) (name : Bytes) (uids : List Nat)
    (flags : List Bytes) (op : FlagOp) (unchangedSince : Nat) (now : Time) :
    Except MailboxError (Account × List Nat) :=
  a.tx fun a => do
    let f ← a.folder name
    let r := restate now uids (normalizeFlags flags) op unchangedSince f.modseq f.messages
    if r.changes = [] then return (a, r.modified)
    return (a.setFolder { f with
      modseq := r.modseq, messages := r.messages, changes := f.changes ++ r.changes }, r.modified)

/-! ## Removing -/

def heldCopy (f : Folder) (reason : Bytes) (m : Message) : Held :=
  { folder := f.name, body := m.body, flags := m.flags, date := m.date, reason := reason }

def Account.holdMessages (a : Account) (f : Folder) (messages : List Message) (reason : Bytes) :
    Account :=
  { a with held := a.held ++ messages.map (heldCopy f reason) }

def expungeable (uids : List Nat) (requireDeleted : Bool) (m : Message) : Bool :=
  decide (m.uid ∈ uids) && (!requireDeleted || decide (lit "\\deleted" ∈ m.flags))

/-- `expunge`; `held` is what `onHold` said before the transaction. -/
def Account.expunge (a : Account) (name : Bytes) (uids : List Nat) (requireDeleted held : Bool)
    (now : Time) : Except MailboxError (Account × List Message) :=
  a.tx fun a => do
    let f ← a.folder name
    let removed := f.messages.filter (expungeable uids requireDeleted)
    if removed = [] then return (a, [])
    let kept := if held then a.holdMessages f removed (lit "deleted") else a
    return ({ kept.setFolder (f.remove now (expungeable uids requireDeleted)) with
      used := a.used - totalSize removed }, removed)

def Account.deleteFolder (a : Account) (name : Bytes) (held : Bool) :
    Except MailboxError (Account × List Message) :=
  if canonicalMailbox name = inbox then .error .cannotDelete
  else a.tx fun a => do
    let f ← a.folder name
    let kept := if held then a.holdMessages f f.messages (lit "folder deleted") else a
    return ({ kept with
      used := a.used - totalSize f.messages
      folders := a.folders.filter fun g => g.id != f.id }, f.messages)

/-! ## Copying and moving -/

def copyRows (ready : Key → Bool) (now : Time) : Folder → List Message → Except MailboxError Folder
  | d, [] => .ok d
  | d, m :: rest =>
    if ready m.body = false then .error .bodyRetiring
    else if d.next = maxUID then .error .uidsExhausted
    else copyRows ready now (d.insert now m) rest

structure CopyResult where
  validity : Nat
  source : List Nat
  target : List Nat
  deriving DecidableEq

def Account.copyMove (a : Account) (src dst : Bytes) (uids : List Nat) (move : Bool)
    (ready : Key → Bool) (now : Time) : Except MailboxError (Account × CopyResult) :=
  a.tx fun a => do
    let s ← a.folder src
    let d ← a.folder dst
    if s.id = d.id then throw .sameFolder
    let chosen := s.messages.filter fun m => decide (m.uid ∈ uids)
    let copied ← copyRows ready now d chosen
    let result : CopyResult :=
      { validity := d.validity
        source := chosen.map Message.uid
        target := List.range' d.next chosen.length }
    if chosen = [] then return (a, result)
    if move then
      return ((a.setFolder copied).setFolder (s.remove now fun m => decide (m.uid ∈ uids)), result)
    if a.overfull (totalSize chosen) then throw .quota
    return ({ a.setFolder copied with used := a.used + totalSize chosen }, result)

/-! ## Folders -/

def newFolder (id validity : Nat) (name : Bytes) : Folder :=
  { id := id
    name := name
    validity := validity
    next := 1
    modseq := 1
    floor := 0
    messages := []
    changes := [] }

def Account.hasFolder (a : Account) (name : Bytes) : Bool :=
  a.folders.any fun f => f.name == name

/-- `Create`; the id and the UIDVALIDITY come from their sequences. -/
def Account.create (a : Account) (name : Bytes) (id validity : Nat) : Except MailboxError Account :=
  let name := canonicalMailbox name
  if validMailbox name = false then .error .invalidName
  else a.tx fun a =>
    if a.hasFolder name then .error .exists
    else .ok { a with folders := a.folders ++ [newFolder id validity name] }

def Account.ensureInbox (a : Account) (id validity : Nat) : Except MailboxError Account :=
  a.tx fun a =>
    if a.hasFolder inbox then .ok a
    else .ok { a with folders := a.folders ++ [newFolder id validity inbox] }

/-- A folder below the old name keeps its path behind the new one. -/
def renamed (old new : Bytes) (f : Folder) : Folder :=
  if f.name = old ∨ hasPrefix f.name (old ++ lit "/") then
    { f with name := new ++ f.name.drop old.length }
  else f

def Account.rename (a : Account) (old new : Bytes) : Except MailboxError Account :=
  let old := canonicalMailbox old
  let new := canonicalMailbox new
  if old = inbox ∨ validMailbox new = false ∨ hasPrefix new (old ++ lit "/") then
    .error .invalidRename
  else a.tx fun a => do
    let _ ← a.folder old
    let folders := a.folders.map (renamed old new)
    if (folders.map Folder.name).Nodup then return { a with folders := folders }
    else throw .exists

end Elemta.Mailbox

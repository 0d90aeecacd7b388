import Elemta.Mailbox.JournalRuns

/-!
# IMAP sessions

A session keeps the record of the folder that it has selected and the folder's UIDs, its
view. What a command names in the view it asks the engine for by UID. Rows are read by the
folder's id, and `Changes` is asked by id too; transactions look the folder up by the name
that the session has for it.
-/

namespace Elemta.Mailbox

open Bytes

/-! ## Sets of messages -/

/-- One range of a set; zero is the last message. -/
structure NumRange where
  start : Nat
  stop : Nat
  deriving DecidableEq

inductive NumSet where
  | uids (ranges : List NumRange)
  | seqs (ranges : List NumRange)
  deriving DecidableEq

/-- `sort.Search`: between `i` and `j`, halved as often as there is fuel. -/
def search (found : Nat → Bool) : Nat → Nat → Nat → Nat
  | 0, i, _ => i
  | fuel + 1, i, j =>
    if i < j then
      let half := (i + j) / 2
      if found half then search found fuel i half else search found fuel (half + 1) j
    else i

def searchView (view : List Nat) (uid : Nat) : Nat :=
  search (fun i => decide (uid ≤ view.getD i 0)) view.length 0 view.length

def NumRange.bounds (r : NumRange) (last : Nat) : Nat × Nat :=
  let a := if r.start = 0 then last else r.start
  let b := if r.stop = 0 then last else r.stop
  if b < a then (b, a) else (a, b)

/-- The view is in UID order, so a range is one run of it. -/
def uidRun (view : List Nat) (r : NumRange) : List Nat :=
  let (a, b) := r.bounds (view.getLastD 0)
  let i := searchView view a
  List.range' i ((view.drop i).takeWhile fun uid => decide (uid ≤ b)).length

def seqRun (view : List Nat) (r : NumRange) : List Nat :=
  let (a, b) := r.bounds view.length
  List.range' (a - 1) (min b view.length - (a - 1))

def selectedIdx (view : List Nat) (set : NumSet) : List Nat :=
  (List.range view.length).filter fun i =>
    match set with
    | .uids ranges => ranges.any fun r => decide (i ∈ uidRun view r)
    | .seqs ranges => ranges.any fun r => decide (i ∈ seqRun view r)

def selected (view : List Nat) (set : NumSet) : List Nat :=
  (selectedIdx view set).filterMap fun i => view[i]?

def viewIndex (view : List Nat) (uid : Nat) : Option Nat :=
  let i := searchView view uid
  if view[i]? = some uid then some i else none

/-! ## Sessions -/

inductive CalendarLevel where
  | view
  | edit
  | delegate
  deriving DecidableEq

structure FolderRecord where
  id : Nat
  name : Bytes
  validity : Nat
  next : Nat
  modseq : Nat
  deriving DecidableEq

def Folder.record (f : Folder) : FolderRecord :=
  { id := f.id, name := f.name, validity := f.validity, next := f.next, modseq := f.modseq }

structure Session where
  /-- None before a folder has been selected. -/
  folder : Option FolderRecord
  uids : List Nat
  reported : Nat
  readOnly : Bool
  calendarLevel : Option CalendarLevel
  deriving DecidableEq

inductive Untagged where
  | expunge (seq uid : Nat)
  | fetch (seq uid : Nat) (flags : List Bytes) (modseq : Nat)
  | exists (count : Nat)
  deriving DecidableEq

def calendarFolder : Bytes := lit "Calendar"

def Session.allowFolder (ss : Session) (name : Bytes) : Bool :=
  ss.calendarLevel.isNone || name == calendarFolder

def Session.allowNone (ss : Session) : Bool :=
  ss.calendarLevel.isNone

def Session.select (ss : Session) (f : Folder) (readOnly : Bool) : Session :=
  { ss with
    folder := some f.record
    uids := f.messages.map Message.uid
    reported := f.modseq
    readOnly := readOnly || ss.calendarLevel == some .view }

def Session.unselect (ss : Session) : Session :=
  { ss with folder := none, uids := [] }

/-- The highest sequence number is reported first. -/
def expunges (view gone : List Nat) : List Untagged :=
  (List.range view.length).reverse.filterMap fun i =>
    match view[i]? with
    | some uid => if uid ∈ gone then some (.expunge (i + 1) uid) else none
    | none => none

def Session.dropFromView (ss : Session) (gone : List Nat) : Session :=
  { ss with uids := ss.uids.filter fun uid => decide (uid ∉ gone) }

/-! ## Commands -/

/-- A Boolean `held` is what `onHold` said; the bodies that are ready are those in `ready`. -/
inductive Command where
  | select (name : Bytes) (readOnly : Bool)
  | unselect
  /-- `seen` is that a section is fetched without PEEK. -/
  | fetch (set : NumSet) (seen : Bool)
  | store (set : NumSet) (flags : List Bytes) (op : FlagOp) (unchangedSince : Nat)
  | expunge (set : Option (List NumRange)) (held : Bool)
  | copy (set : NumSet) (dest : Bytes) (ready : List Key)
  | move (set : NumSet) (dest : Bytes) (ready : List Key)
  | poll (allowExpunge : Bool)
  deriving DecidableEq

def Session.transaction (ss : Session) (f : FolderRecord) : Command → Option Write
  | .fetch set seen =>
    if seen && !ss.readOnly && selectedIdx ss.uids set != [] then
      some (.mutateFlags f.name (selected ss.uids set) [lit "\\seen"] .add 0)
    else none
  | .store set flags op unchangedSince =>
    if ss.readOnly then none
    else some (.mutateFlags f.name (selected ss.uids set) flags op unchangedSince)
  | .expunge set held =>
    if ss.readOnly then none
    else
      let ranges := set.getD [{ start := 1, stop := 0 }]
      some (.expunge f.name (selected ss.uids (.uids ranges)) true held)
  | .copy set dest ready =>
    if ss.allowNone then some (.copyMove f.name dest (selected ss.uids set) false ready) else none
  | .move set dest ready =>
    if ss.allowNone && !ss.readOnly then
      some (.copyMove f.name dest (selected ss.uids set) true ready)
    else none
  | _ => none

def Write.taken (a : Account) (now : Time) : Write → List Nat
  | .expunge name uids requireDeleted held =>
    match a.expunge name uids requireDeleted held now with
    | .ok (_, removed) => removed.map Message.uid
    | .error _ => []
  | .copyMove src dst uids true ready =>
    match a.copyMove src dst uids true (fun key => decide (key ∈ ready)) now with
    | .ok (_, r) => r.source
    | .error _ => []
  | _ => []

/-! ## Polling -/

/-- `Poll`, when `Changes` has found the folder and answered completely. -/
def Session.applyChanges (ss : Session) (f : Folder) (record : FolderRecord) (ch : FolderChanges)
    (allowExpunge : Bool) : Session × List Untagged :=
  let ss := { ss with folder := some { record with name := f.name } }
  if f.modseq = record.modseq then (ss, [])
  else
    let gone := ch.gone.filter fun uid => (viewIndex ss.uids uid).isSome
    let pending := decide (gone ≠ []) && !allowExpunge
    let dropped := if pending then ss else ss.dropFromView gone
    let added := ch.changed.filter fun m => (viewIndex dropped.uids m.uid).isNone
    let flags := ch.changed.filterMap fun m =>
      match viewIndex dropped.uids m.uid with
      | some i => if ss.reported < m.modseq then some (.fetch (i + 1) m.uid m.flags m.modseq) else none
      | none => none
    let view := dropped.uids ++ (added.map Message.uid).mergeSort
    let count := if view.length ≠ ss.uids.length ∨ added ≠ [] then [.exists view.length] else []
    ({ dropped with
        uids := view
        reported := f.modseq
        folder := if pending then dropped.folder else some f.record },
      (if pending then [] else expunges ss.uids gone) ++ flags ++ count)

inductive Polling where
  | snapshot (allowExpunge : Bool)
  /-- The rows of the view are reported from the index `start` on. -/
  | report (record : FolderRecord) (pending : Bool) (start : Nat)
  deriving DecidableEq

def fetchChunk : Nat := 500

/-- `pollFull`, when `SelectFolder` has found a folder. -/
def Session.reconcile (ss : Session) (f : Folder) (allowExpunge : Bool) :
    Session × List Untagged × Polling :=
  let gone := ss.uids.filter fun uid => decide (uid ∉ f.messages.map Message.uid)
  let pending := decide (gone ≠ []) && !allowExpunge
  let dropped := if pending then ss else ss.dropFromView gone
  let last := dropped.uids.getLastD 0
  let view := dropped.uids ++ (f.messages.map Message.uid).filter fun uid => decide (last < uid)
  ({ dropped with uids := view }, if pending then [] else expunges ss.uids gone,
    .report f.record pending 0)

def Account.messagesByUID (a : Account) (folder : Nat) (uids : List Nat) : List Message :=
  match a.folders.find? fun f => f.id == folder with
  | none => []
  | some f => f.messages.filter fun m => decide (m.uid ∈ uids)

def Session.reportRows (ss : Session) (a : Account) (folder start : Nat) : List Untagged :=
  let chunk := (ss.uids.drop start).take fetchChunk
  let rows := a.messagesByUID folder chunk
  (List.range' start chunk.length).filterMap fun i =>
    match rows.find? fun m => some m.uid == ss.uids[i]? with
    | some m => some (.fetch (i + 1) m.uid m.flags m.modseq)
    | none => none

/-! ## The machine -/

namespace Imap

/-- A session with what it is doing and what it has sent. The folder that the last SELECT found is
kept too, by id and UIDVALIDITY. -/
structure Client where
  session : Session
  polling : Option Polling
  origin : Option (Nat × Nat)
  sent : List Untagged
  deriving DecidableEq

structure State where
  store : Journal.State
  clients : List Client
  deriving DecidableEq

inductive Input where
  /-- What others do with the account, compactions and the clock. -/
  | other (input : Journal.Input)
  | connect (calendarLevel : Option CalendarLevel)
  /-- The transaction of a command begins at the given time. It may commit and its answer be lost. -/
  | command (i : Nat) (c : Command) (begun : Time) (answered : Bool)
  | pollNext (i : Nat) (failed : Bool)
  deriving DecidableEq

def State.init (id address : Bytes) (quota : Int) : State :=
  { store := .init id address quota, clients := [] }

def State.setClient (s : State) (i : Nat) (c : Client) : State :=
  { s with clients := s.clients.set i c }

/-- A command that needs no transaction, or whose transaction is refused. -/
def State.lookUp (s : State) (i : Nat) (c : Client) : Command → State
  | .select name readOnly =>
    if c.session.allowFolder name then
      match s.store.account.folder name with
      | .error _ => s
      | .ok f =>
        s.setClient i { c with
          session := c.session.select f readOnly
          origin := some (f.id, f.validity) }
    else s
  | .unselect => s.setClient i { c with session := c.session.unselect, origin := none }
  | .poll allowExpunge =>
    match c.session.folder with
    | none => s
    | some record =>
      match s.store.account.folders.find? fun f => f.id == record.id with
      | none => s
      | some f =>
        let ch := f.changesSince record.modseq
        if ch.complete then
          let (session, sent) := c.session.applyChanges f record ch allowExpunge
          s.setClient i { c with session := session, sent := c.sent ++ sent }
        else
          s.setClient i { c with
            session := { c.session with folder := some { record with name := f.name } }
            polling := some (.snapshot allowExpunge) }
  | _ => s

def State.transact (s : State) (i : Nat) (c : Client) (w : Write) (begun : Time) (answered : Bool) : State :=
  let s' := { s with store := Journal.step s.store (.write w begun) }
  -- a transaction that has run out of time takes nothing
  if answered && decide (begun ≤ s.store.clock ∧ s.store.clock < begun + Journal.callTimeout) then
    let gone := Write.taken s.store.account begun w
    s'.setClient i { c with
      session := c.session.dropFromView gone
      sent := c.sent ++ expunges c.session.uids gone }
  else s'

def State.pollNext (s : State) (i : Nat) (c : Client) (record : FolderRecord) (p : Polling)
    (failed : Bool) : State :=
  if failed then s.setClient i { c with polling := none }
  else
    match p with
    | .snapshot allowExpunge =>
      match s.store.account.folder record.name with
      | .error _ => s.setClient i { c with polling := none }
      | .ok f =>
        let (session, sent, next) := c.session.reconcile f allowExpunge
        s.setClient i { c with session := session, polling := some next, sent := c.sent ++ sent }
    | .report found pending start =>
      if start < c.session.uids.length then
        s.setClient i { c with
          polling := some (.report found pending (start + fetchChunk))
          sent := c.sent ++ c.session.reportRows s.store.account record.id start }
      else
        s.setClient i { c with
          session := { c.session with
            reported := found.modseq
            folder := if pending then some record else some found }
          polling := none
          sent := c.sent ++ [.exists c.session.uids.length] }

def step (s : State) : Input → State
  | .other input => { s with store := Journal.step s.store input }
  | .connect calendarLevel =>
    let session : Session :=
      { folder := none, uids := [], reported := 0, readOnly := false, calendarLevel := calendarLevel }
    { s with
      clients := s.clients ++ [{ session := session, polling := none, origin := none, sent := [] }] }
  | .command i command begun answered =>
    match s.clients[i]? with
    | none => s
    | some c =>
      if c.polling.isSome then s
      else
        match c.session.folder.bind fun f => c.session.transaction f command with
        | some w => s.transact i c w begun answered
        | none => s.lookUp i c command
  | .pollNext i failed =>
    match s.clients[i]? with
    | none => s
    | some c =>
      match c.session.folder, c.polling with
      | some record, some p => s.pollNext i c record p failed
      | _, _ => s

end Imap
end Elemta.Mailbox

import Elemta.Foundation.Interleaving
import Elemta.Queue.FileCalls

/-!
# Interleaved operations on one message

The manager's and the processor's operations on one id over the file backend, storage
call by storage call. `MoveMessage` and `DeleteMessage` hold the message's lock from
their first call to their last; `AddAttempt`, `SetAnnotation` and the processor's own
updates take no lock. Each of them writes back a whole record that it read earlier, into
the directory that the record names.
-/

namespace Elemta.Queue.FileStore

open Bytes Crash

/-! ## Jobs -/

inductive Job where
  | move (target : QueueType) (reason : Bytes) (now : Time) (jitter : Int)
  | delete
  /-- Reads the record once and writes it after each edit: the processor with the record that it
  claimed, or `AddAttempt` and `SetAnnotation` with one that they retrieved. -/
  | rewrite (claimed : Bool) (edits : List Edit)
  deriving DecidableEq

inductive Place where
  | waiting
  | read (msg : Message)
  | moved (msg : Message)
  | loaded (msg : Message) (content : Bytes)
  | writing (msg : Message) (edits : List Edit)
  | ended (ok : Bool)
  deriving DecidableEq

structure Shared where
  disk : Files
  locked : Bool

/-- What `ClaimMessages` hands out. -/
def claimedAt (d : Files) (id : Bytes) : Option Message :=
  if suppressConsumed d id then none else readMessageAt d .active id

def lockedRead (s : Shared) (id : Bytes) : Option (Shared × Place) :=
  if s.locked then none
  else
    match retrieve s.disk id with
    | none => some (s, .ended false)
    | some msg => some ({ s with locked := true }, .read msg)

variable (cfg : ManagerConfig)

/-- The next storage call of a job, or `none` when it has to wait or has ended. -/
def Job.call (id : Bytes) (s : Shared) :
    Job → Place → Option (Shared × Place)
  | .move _ _ _ _, .waiting => lockedRead s id
  | .move target _ _ _, .read msg =>
    let answer := moveCall s.disk id msg.queueType target
    if answer.1 then some ({ s with disk := answer.2 }, .moved msg)
    else some ({ disk := answer.2, locked := false }, .ended false)
  | .move target reason now jitter, .moved msg =>
    let answer := updateCall s.disk (Manager.movedMessage cfg now jitter msg target reason)
    some ({ disk := answer.2, locked := false }, .ended answer.1)
  | .delete, .waiting => lockedRead s id
  | .delete, .read msg =>
    match s.disk (.body id) with
    | some (.body content) => some (s, .loaded msg content)
    | _ => some ({ s with locked := false }, .ended false)
  | .delete, .loaded msg content =>
    let answer := consumeCall s.disk cfg.retainTombstoneBody msg content
    some ({ disk := answer.2, locked := false }, .ended answer.1)
  | .rewrite claimed edits, .waiting =>
    match if claimed then claimedAt s.disk id else retrieve s.disk id with
    | none => some (s, .ended false)
    | some msg => some (s, if edits.isEmpty then .ended true else .writing msg edits)
  | .rewrite _ _, .writing msg (e :: rest) =>
    let answer := updateCall s.disk (e.apply msg)
    some ({ s with disk := answer.2 },
      if answer.1 && !rest.isEmpty then .writing (e.apply msg) rest else .ended answer.1)
  | _, _ => none

def Place.running : Place → Bool
  | .waiting => false
  | .ended _ => false
  | _ => true

def Place.succeeded : Place → Bool
  | .ended ok => ok
  | _ => false

def Job.exclusive : Job → Bool
  | .rewrite _ _ => false
  | _ => true

def jobSystem (id : Bytes) : Interleaving.System Shared Job Place where
  call s job place := job.call cfg id s place
  running := Place.running
  succeeded := Place.succeeded
  not_running := by
    intro place h
    cases place <;> first | rfl | cases h
  exclusive := Job.exclusive

def startJobs (d : Files) (jobs : List Job) : Interleaving.Pool Shared Job Place :=
  { shared := { disk := d, locked := false }
    jobs := jobs.map fun job => (job, .waiting)
    log := [] }

/-! ## What has to be left afterwards -/

/-- What a job makes of the entry when nothing comes between its calls. -/
def Job.replay : Option Message → Job → Option Message
  | none, _ => none
  | some m, .move target reason now jitter =>
    some (Manager.movedMessage cfg now jitter m target reason).persisted
  | some _, .delete => none
  | some m, .rewrite _ edits => some (edits.foldl Edit.apply m).persisted

def replayed (m : Message) (log : List Job) : Option Message :=
  log.foldl (Job.replay cfg) (some m)

/-- What moves, annotations and recipient reductions change of a record. -/
inductive Trait where
  | queue
  | annotated (key : Bytes)
  | recipients

def Trait.Agree (m m' : Message) : Trait → Prop
  | .queue => m.queueType = m'.queueType
  | .annotated key => m.annotations.lookup key = m'.annotations.lookup key
  | .recipients => m.rcptTo = m'.rcptTo ∧ m.occurrenceIds = m'.occurrenceIds

/-- One queue at most has the message, nothing of a deleted message is back, and no completed
move, annotation or reduction is lost. `entry` is what the completed operations make of it. -/
structure Intact (d : Files) (id : Bytes) (entry : Option Message) : Prop where
  atMostOne : AtMostOne (view d id)
  deleted : entry = none → NoMessage (view d id)
  kept : ∀ m, entry = some m → ∃ m', retrieve d id = some m' ∧ ∀ t : Trait, t.Agree m' m

/-! ## Operations that are kept apart -/

/-- Between two operations the files are those of the replayed entry. -/
inductive Entry (d : Files) (id : Bytes) : Option Message → Prop where
  | gone (t : EnqueueTombstone) (h : Gone (view d id) t) : Entry d id none
  | live (m : Message) (content : Bytes) (h : Complete (view d id) id m content)
      (hm : m.persisted = m) : Entry d id (some m)

structure OnlyIn (d : Files) (id : Bytes) (q : QueueType) : Prop where
  only : ∀ q', q' ≠ q → (view d id).message q' = none
  body : ∃ content, (view d id).body = some (.body content)
  tombstone : (view d id).tombstone = none

/-- What a job that is under way has found and left; `m` is the entry that it started from. -/
def Progress (d : Files) (id : Bytes) (m : Message) : Job → Place → Prop
  | .move _ _ _ _, .read msg => msg = m ∧ Entry d id (some m)
  | .move target _ _ _, .moved msg => msg = m ∧ OnlyIn d id target
  | .delete, .read msg => msg = m ∧ Entry d id (some m)
  | .delete, .loaded msg content => msg = m ∧ Complete (view d id) id m content
  | .rewrite _ edits, .writing msg rest =>
    rest ≠ [] ∧ rest.foldl Edit.apply msg = edits.foldl Edit.apply m ∧ msg.id = id ∧
      msg.queueType = m.queueType ∧ OnlyIn d id m.queueType
  | _, _ => False

section

variable {cfg : ManagerConfig} {d : Files} {id content : Bytes} {m msg : Message}

theorem Complete.onlyIn (h : Complete (view d id) id m content) : OnlyIn d id m.queueType :=
  ⟨h.only, ⟨content, h.body⟩, h.tombstone⟩

/-- A record written where the only one can be is the entry. -/
theorem OnlyIn.recordAt {q : QueueType} (h : OnlyIn d id q) (hutf : Utf8.valid id = true)
    (hid : msg.id = id) (hqueue : msg.queueType = q) :
    Entry (recordAt d q id msg) id (some msg.persisted) := by
  obtain ⟨content, hbody⟩ := h.body
  refine .live _ content ⟨?_, ?_, ?_, ?_, ?_⟩ (Message.persisted_persisted msg)
  · have hread : msg.persisted.id = Utf8.toValid msg.id := rfl
    rw [hread, hid]
    exact Utf8.toValid_eq_self_iff.2 hutf
  · have hplace : msg.persisted.queueType = q := hqueue
    rw [hplace, FileStore.recordAt]
    simp
  · intro q' hq'
    have hplace : msg.persisted.queueType = q := hqueue
    rw [hplace] at hq'
    rw [FileStore.recordAt]
    simpa [hq'] using h.only q' hq'
  · exact hbody
  · exact h.tombstone

theorem Complete.readMessageAt (h : Complete (view d id) id m content) :
    readMessageAt d m.queueType id = some m := by
  have hfile : d (.message m.queueType id) = some (.message m) := h.message
  simp [FileStore.readMessageAt, hfile, h.own]

/-- After `Move` the record is in the target directory, or nowhere if it was there before. -/
theorem Complete.movedAt (h : Complete (view d id) id m content) (target : QueueType) :
    OnlyIn (movedAt d m.queueType target id m) id target := by
  unfold FileStore.movedAt FileStore.recordAt
  refine ⟨?_, ⟨content, ?_⟩, ?_⟩
  · intro q hq
    by_cases hsource : q = m.queueType
    · simp [hsource]
    · simpa [hsource, hq] using h.only q hsource
  · exact h.body
  · exact h.tombstone

theorem Complete.consumeCall (hid : validateMessageID id = none)
    (h : Complete (view d id) id m content) (retain : Bool) :
    (consumeCall d retain m content).1 = true ∧
      Entry (consumeCall d retain m content).2 id none := by
  have hown : m.id = id := h.own
  let t := newTombstone retain m content
  have hfind : queueOrder.find? (fun q => ((d.put (.tombstone id) (.tombstone t))
      (.message q id)).isSome) = some m.queueType := by
    have hfiles : ∀ q, ((d.put (.tombstone id) (.tombstone t)) (.message q id)).isSome =
        decide (q = m.queueType) := by
      intro q
      rw [Disk.put_other d _ (by simp)]
      by_cases hq : q = m.queueType
      · have hfile : d (.message m.queueType id) = some (.message m) := h.message
        simp [hq, hfile]
      · have hfile : d (.message q id) = none := h.only q hq
        simp [hq, hfile]
    simp only [hfiles]
    cases m.queueType <;> rfl
  unfold FileStore.consumeCall
  rw [hown, if_pos hid]
  refine ⟨rfl, .gone t ⟨?_, ?_, ?_⟩⟩ <;> dsimp only [removeAt] <;> rw [hfind]
  · simp [view, Disk.put, Disk.unlink, t]
  · intro q
    by_cases hq : q = m.queueType
    · simp [hq]
    · simpa [hq] using h.only q hq
  · simp [view, Disk.unlink]

end

section

variable (cfg : ManagerConfig) (id : Bytes) (m₀ : Message)

def SettledAt (s : Shared) (log : List Job) : Prop :=
  s.locked = false ∧ Entry s.disk id (replayed cfg m₀ log)

def MidwayAt (s : Shared) (log : List Job) (job : Job) (place : Place) : Prop :=
  ∃ m, replayed cfg m₀ log = some m ∧ m.id = id ∧ s.locked = job.exclusive ∧
    Progress s.disk id m job place

variable {cfg id m₀} {s s' : Shared} {log : List Job} {job : Job} {place next : Place}

theorem replayed_append :
    replayed cfg m₀ (log ++ [job]) = Job.replay cfg (replayed cfg m₀ log) job := by
  simp [replayed, List.foldl_append]

variable {d : Files} {e : Option Message} {msg m : Message}

theorem Entry.retrieve (hid : validateMessageID id = none) (h : Entry d id e) :
    retrieve d id = e := by
  cases h with
  | gone t h => exact retrieve_of_noMessage h.message
  | live m content h _ => exact retrieve_of_complete hid h

theorem Entry.claimedAt (h : Entry d id e) (hread : FileStore.claimedAt d id = some msg) :
    e = some msg := by
  unfold FileStore.claimedAt at hread
  split at hread
  · cases hread
  have hfile := (eq_of_readMessageAt hread).1
  cases h with
  | gone t h => exact absurd (hfile.symm.trans (h.message .active)) (by simp)
  | live m content h _ =>
    by_cases hq : m.queueType = .active
    · have hsame : d (.message .active id) = some (.message m) := hq ▸ h.message
      exact congrArg some (File.message.inj (Option.some.inj (hsame.symm.trans hfile)))
    · exact absurd (hfile.symm.trans (h.only .active (Ne.symm hq))) (by simp)

theorem Entry.persisted (h : Entry d id (some m)) : m.persisted = m := by
  cases h with
  | live _ _ _ hm => exact hm

theorem Entry.own (h : Entry d id (some m)) : m.id = id := by
  cases h with
  | live _ _ h _ => exact h.own

section

variable (hid : validateMessageID id = none)

include hid

theorem lockedRead_after (hexclusive : job.exclusive = true)
    (hread : ∀ {d m}, Entry d id (some m) → Progress d id m job (.read m))
    (hs : SettledAt cfg id m₀ s log) (hcall : lockedRead s id = some (s', next)) :
    Interleaving.After (jobSystem cfg id) (SettledAt cfg id m₀) (MidwayAt cfg id m₀) s' log job
      next := by
  obtain ⟨hlocked, hentry⟩ := hs
  unfold lockedRead at hcall
  rw [hlocked, hentry.retrieve hid] at hcall
  cases hold : replayed cfg m₀ log with
  | none =>
    rw [hold] at hcall
    cases hcall
    exact ⟨hlocked, hentry⟩
  | some m =>
    rw [hold] at hcall hentry
    cases hcall
    exact ⟨m, hold, hentry.own, hexclusive.symm, hread hentry⟩

theorem start_after (hs : SettledAt cfg id m₀ s log)
    (hidle : place.running = false) (hcall : job.call cfg id s place = some (s', next)) :
    Interleaving.After (jobSystem cfg id) (SettledAt cfg id m₀) (MidwayAt cfg id m₀) s' log job
      next := by
  cases place with
  | waiting =>
    cases job with
    | move target reason now jitter =>
      exact lockedRead_after hid rfl (fun h => ⟨rfl, h⟩) hs hcall
    | delete => exact lockedRead_after hid rfl (fun h => ⟨rfl, h⟩) hs hcall
    | rewrite claimed edits =>
      obtain ⟨hlocked, hentry⟩ := hs
      have hread : ∀ {msg}, (if claimed then claimedAt s.disk id else retrieve s.disk id) = some msg →
          replayed cfg m₀ log = some msg := by
        intro msg h
        cases claimed with
        | true => exact hentry.claimedAt h
        | false => exact (hentry.retrieve hid).symm.trans h
      dsimp only [Job.call] at hcall
      split at hcall
      · cases hcall
        exact ⟨hlocked, hentry⟩
      rename_i msg hmsg
      cases hcall
      have hold := hread hmsg
      rw [hold] at hentry
      cases edits with
      | nil =>
        refine ⟨hlocked, ?_⟩
        have hsame : replayed cfg m₀ (log ++ [.rewrite claimed []]) = some msg := by
          rw [replayed_append, hold]
          exact congrArg some hentry.persisted
        simpa [jobSystem, Place.succeeded, hsame] using hentry
      | cons e rest =>
        cases hentry with
        | live _ content h _ =>
          exact ⟨msg, hold, h.own, hlocked, by simp, rfl, h.own, rfl, h.onlyIn⟩
  | ended ok => cases job <;> cases hcall
  | _ => cases hidle

theorem OnlyIn.updateCall (hutf : Utf8.valid id = true)
    {q : QueueType} (h : OnlyIn d id q) (hown : msg.id = id) (hqueue : msg.queueType = q) :
    FileStore.updateCall d msg = (true, FileStore.recordAt d q id msg) ∧
      Entry (FileStore.recordAt d q id msg) id (some msg.persisted) := by
  refine ⟨?_, h.recordAt hutf hown hqueue⟩
  unfold FileStore.updateCall
  rw [hown, if_pos hid, hqueue]

theorem go_after (hutf : Utf8.valid id = true)
    (hs : MidwayAt cfg id m₀ s log job place) (hcall : job.call cfg id s place = some (s', next)) :
    Interleaving.After (jobSystem cfg id) (SettledAt cfg id m₀) (MidwayAt cfg id m₀) s' log job
      next := by
  obtain ⟨m, hold, hown, hlocked, hprogress⟩ := hs
  have hended : ∀ {s}, s.locked = false → Entry s.disk id (Job.replay cfg (some m) job) →
      Interleaving.After (jobSystem cfg id) (SettledAt cfg id m₀) (MidwayAt cfg id m₀) s log job
        (.ended true) := by
    intro s hfree hentry
    refine ⟨hfree, ?_⟩
    have happend : replayed cfg m₀ (log ++ [job]) = Job.replay cfg (some m) job := by
      rw [replayed_append, hold]
    simpa [jobSystem, Place.succeeded, happend] using hentry
  cases job with
  | move target reason now jitter =>
    cases place with
    | read msg =>
      obtain ⟨rfl, hentry⟩ := hprogress
      cases hentry with
      | live _ content h _ =>
        have hmove : moveCall s.disk id msg.queueType target =
            (true, movedAt s.disk msg.queueType target id msg) := by
          unfold moveCall
          rw [if_pos hid, h.readMessageAt]
        dsimp only [Job.call] at hcall
        rw [hmove] at hcall
        cases hcall
        exact ⟨msg, hold, hown, hlocked, rfl, h.movedAt target⟩
    | moved msg =>
      obtain ⟨rfl, honly⟩ := hprogress
      obtain ⟨hupdate, hentry⟩ := honly.updateCall hid hutf
        ((movedMessage_id cfg now jitter msg target reason).trans hown)
        (movedMessage_queueType cfg now jitter msg target reason)
      dsimp only [Job.call] at hcall
      rw [hupdate] at hcall
      cases hcall
      exact hended rfl hentry
    | _ => cases hprogress
  | delete =>
    cases place with
    | read msg =>
      obtain ⟨rfl, hentry⟩ := hprogress
      cases hentry with
      | live _ content h _ =>
        have hbody : s.disk (.body id) = some (.body content) := h.body
        dsimp only [Job.call] at hcall
        rw [hbody] at hcall
        cases hcall
        exact ⟨msg, hold, hown, hlocked, rfl, h⟩
    | loaded msg content =>
      obtain ⟨rfl, h⟩ := hprogress
      obtain ⟨hok, hentry⟩ := h.consumeCall hid cfg.retainTombstoneBody
      dsimp only [Job.call] at hcall
      rw [hok] at hcall
      cases hcall
      exact hended rfl hentry
    | _ => cases hprogress
  | rewrite claimed edits =>
    cases place with
    | writing msg rest =>
      obtain ⟨hmore, hfold, hcopy, hqueue, honly⟩ := hprogress
      cases rest with
      | nil => exact absurd rfl hmore
      | cons e rest =>
        obtain ⟨hupdate, hentry⟩ := honly.updateCall hid hutf
          ((Edit.apply_id msg e).trans hcopy) ((Edit.apply_queueType msg e).trans hqueue)
        dsimp only [Job.call] at hcall
        rw [hupdate] at hcall
        cases hcall
        cases rest with
        | nil =>
          refine hended hlocked ?_
          have hlast : e.apply msg = edits.foldl Edit.apply m := hfold
          simpa [Job.replay, ← hlast] using hentry
        | cons e' rest =>
          have hthere : OnlyIn (FileStore.recordAt s.disk m.queueType id (e.apply msg)) id
              m.queueType := by
            have hplace : (e.apply msg).persisted.queueType = m.queueType :=
              (Edit.apply_queueType msg e).trans hqueue
            cases hentry with
            | live _ _ h _ => exact hplace ▸ h.onlyIn
          exact ⟨m, hold, hown, hlocked, by simp, hfold, (Edit.apply_id msg e).trans hcopy,
            (Edit.apply_queueType msg e).trans hqueue, hthere⟩
    | _ => cases hprogress

theorem job_rules (hutf : Utf8.valid id = true) :
    Interleaving.Rules (jobSystem cfg id) (SettledAt cfg id m₀) (MidwayAt cfg id m₀) where
  start hs hidle hcall := start_after hid hs hidle hcall
  go hs _ hcall := go_after hid hutf hs hcall
  wait := by
    intro s log job place job' place' hmidway _ hours htheirs hidle
    obtain ⟨m, -, -, hlocked, -⟩ := hmidway
    have hbusy : s.locked = true := hlocked.trans hours
    have hwait : lockedRead s id = none := if_pos hbusy
    cases job' with
    | rewrite claimed edits => cases htheirs
    | _ =>
      cases place' with
      | waiting => exact hwait
      | ended ok => rfl
      | _ => cases hidle

end

/-- Whenever no operation is under way, the message is as the completed operations left it, if no
operation that takes no lock ran while another one did. -/
theorem intact_of_apart (hid : validateMessageID id = none) (hutf : Utf8.valid id = true)
    {d : Files} {content : Bytes} (hd : Complete (view d id) id m₀ content)
    (hm : m₀.persisted = m₀) {jobs : List Job} {schedule : List Nat}
    (hapart : Machine.Along (Interleaving.Pool.step (jobSystem cfg id))
      (Interleaving.Pool.Apart (jobSystem cfg id)) (startJobs d jobs) schedule)
    (hquiet : (Machine.run (Interleaving.Pool.step (jobSystem cfg id)) (startJobs d jobs)
      schedule).Quiet (jobSystem cfg id)) :
    Intact (Machine.run (Interleaving.Pool.step (jobSystem cfg id)) (startJobs d jobs)
        schedule).shared.disk id
      (replayed cfg m₀ (Machine.run (Interleaving.Pool.step (jobSystem cfg id)) (startJobs d jobs)
        schedule).log) := by
  have hstart : Interleaving.Serial (jobSystem cfg id) (SettledAt cfg id m₀) (MidwayAt cfg id m₀)
      (startJobs d jobs) := by
    refine .quiet (fun i job place hget => ?_) ⟨rfl, .live m₀ content hd hm⟩
    obtain ⟨job', -, hjob⟩ := List.getElem?_map.symm.trans hget |> Option.map_eq_some_iff.1
    obtain ⟨-, rfl⟩ := Prod.mk.inj hjob
    rfl
  obtain ⟨-, hentry⟩ := (hstart.run (job_rules hid hutf) hapart).settled hquiet
  generalize replayed cfg m₀ _ = e at hentry ⊢
  have hretrieve := hentry.retrieve hid
  refine ⟨?_, ?_, ?_⟩
  · cases hentry with
    | gone t h => exact fun q _ hq => absurd (h.message q) hq
    | live m content h _ => exact h.atMostOne
  · rintro rfl
    cases hentry with
    | gone t h => exact h.message
  · rintro m rfl
    refine ⟨m, hretrieve, fun t => ?_⟩
    cases t with
    | recipients => exact ⟨rfl, rfl⟩
    | _ => rfl

end

/-! ## What every copy of the record has -/

def Records (C : Message → Prop) (d : Files) (id : Bytes) : Prop :=
  ∀ q m, d (.message q id) = some (.message m) → C m

def Edit.Passes (C : Message → Prop) (e : Edit) : Prop :=
  ∀ m, C m → C (e.apply m) ∧ C (e.apply m).persisted

structure MovesPass (C : Message → Prop) : Prop where
  move : ∀ m target, C m → C ({ m with queueType := target } : Message).persisted
  moved : ∀ m target reason now jitter, C m →
    C (Manager.movedMessage cfg now jitter m target reason).persisted

def Job.Passes (C : Message → Prop) : Job → Prop
  | .rewrite _ edits => ∀ e ∈ edits, e.Passes C
  | _ => True

def Place.Holds (C : Message → Prop) : Place → Prop
  | .read msg => C msg
  | .moved msg => C msg
  | .loaded msg _ => C msg
  | .writing msg edits => C msg ∧ ∀ e ∈ edits, e.Passes C
  | _ => True

section

variable {cfg : ManagerConfig} {id : Bytes} {C : Message → Prop} {d : Files} {s s' : Shared}
  {job : Job} {place next : Place}

variable {msg m : Message}

theorem Records.recordAt (hd : Records C d id) (q : QueueType) (hmsg : C msg.persisted) :
    Records C (recordAt d q id msg) id := by
  intro q' m hfile
  by_cases hq : q' = q
  · subst hq
    rw [FileStore.recordAt, Disk.put_same] at hfile
    exact File.message.inj (Option.some.inj hfile) ▸ hmsg
  · rw [FileStore.recordAt, Disk.put_other d _ (by simp [hq])] at hfile
    exact hd q' m hfile

theorem Records.unlink (hd : Records C d id) (path : Path) : Records C (d.unlink path) id := by
  intro q m hfile
  by_cases hpath : Path.message q id = path
  · rw [hpath, Disk.unlink_same] at hfile
    cases hfile
  · rw [Disk.unlink_other d hpath] at hfile
    exact hd q m hfile

theorem Records.updateCall (hd : Records C d id) (hmsg : C msg.persisted) :
    Records C (updateCall d msg).2 id := by
  unfold FileStore.updateCall
  split
  · by_cases hid : msg.id = id
    · subst hid
      exact hd.recordAt msg.queueType hmsg
    · intro q m hfile
      dsimp only [FileStore.recordAt] at hfile
      rw [Disk.put_other d _ (by simp [Ne.symm hid])] at hfile
      exact hd q m hfile
  · exact hd

theorem Records.moveCall (hpass : MovesPass cfg C) (hd : Records C d id)
    (source target : QueueType) : Records C (moveCall d id source target).2 id := by
  unfold FileStore.moveCall
  split
  · split
    · exact hd
    · rename_i m hread
      have hm : C m := hd source m (eq_of_readMessageAt hread).1
      exact (hd.recordAt target (hpass.move m target hm)).unlink _
  · exact hd

theorem Records.consumeCall (hd : Records C d id) (retain : Bool) (msg : Message)
    (content : Bytes) : Records C (consumeCall d retain msg content).2 id := by
  have hburied : Records C (d.put (.tombstone msg.id)
      (.tombstone (newTombstone retain msg content))) id := by
    intro q m hfile
    exact hd q m hfile
  unfold FileStore.consumeCall
  dsimp only
  split
  · unfold removeAt
    split
    · exact (hburied.unlink _).unlink _
    · exact hburied.unlink _
  · exact hburied

theorem Records.retrieve (hd : Records C d id) (h : retrieve d id = some m) : C m :=
  hd _ m (eq_of_retrieve h).1

theorem Records.claimedAt (hd : Records C d id) (h : FileStore.claimedAt d id = some m) : C m := by
  unfold FileStore.claimedAt at h
  split at h
  · cases h
  · exact hd _ m (eq_of_readMessageAt h).1

theorem NoMessage.records (h : NoMessage (view d id)) : Records C d id := by
  intro q m hfile
  exact absurd (hfile.symm.trans (h q)) (by simp)

theorem Complete.records {content : Bytes} (h : Complete (view d id) id m content) (hm : C m) :
    Records C d id := by
  intro q m' hfile
  by_cases hq : q = m.queueType
  · have hsame : d (.message q id) = some (.message m) := hq ▸ h.message
    exact File.message.inj (Option.some.inj (hsame.symm.trans hfile)) ▸ hm
  · exact absurd (hfile.symm.trans (h.only q hq)) (by simp)

end

/-! ## Races -/

def queuedDisk : Files :=
  ((createMessageIfAbsent (tempNames (lit ".tmp_1")) ((helloCall (lit "s@x.org")).message 5)
    (lit "text")).run fun _ => none).2

def raced (jobs : List Job) (schedule : List Nat) : Interleaving.Pool Shared Job Place :=
  Machine.run
    (Interleaving.Pool.step (jobSystem (Config.server (lit "mx")).manager (lit "1-a")))
    (startJobs queuedDisk jobs) schedule

def deferral : Job :=
  .move .deferred (lit "451 busy") 9 0

/-- `AddAttempt` as a job. -/
def attemptNote : Job :=
  .rewrite false [.attempt 9 (lit "failed") (lit "451 busy")]

/-- `SetAnnotation` as a job. -/
def tlsNote : Job :=
  .rewrite false [.annotate 9 (lit "require_tls") (lit "true")]

theorem complete_queuedDisk :
    Complete (view queuedDisk (lit "1-a")) (lit "1-a") ((helloCall (lit "s@x.org")).message 5)
      (lit "text") where
  own := rfl
  message := by decide +kernel
  only := by
    intro q hq
    cases q with
    | active => exact absurd rfl hq
    | _ => decide +kernel
  body := by decide +kernel
  tombstone := by decide +kernel

/-- Behind a note a deferral and a deletion contend for the lock. -/
def contention : Interleaving.Pool Shared Job Place :=
  raced [attemptNote, deferral, .delete] [0, 0, 1, 2, 1, 2, 1, 2, 2, 2]

theorem intact_contention :
    contention.log = [attemptNote, deferral, .delete] ∧
      Intact contention.shared.disk (lit "1-a")
        (replayed (Config.server (lit "mx")).manager ((helloCall (lit "s@x.org")).message 5)
          contention.log) := by
  have hquiet : contention.jobs.all (fun job => !job.2.running) = true := by decide +kernel
  have hapart : Machine.Along
      (Interleaving.Pool.step (jobSystem (Config.server (lit "mx")).manager (lit "1-a")))
      (fun p i => p.apart (jobSystem (Config.server (lit "mx")).manager (lit "1-a")) i = true)
      (startJobs queuedDisk [attemptNote, deferral, .delete]) [0, 0, 1, 2, 1, 2, 1, 2, 2, 2] := by
    decide +kernel
  exact ⟨by decide +kernel, intact_of_apart (by decide +kernel) (by decide +kernel)
    complete_queuedDisk (by decide +kernel)
    (hapart.mono fun _ _ => Interleaving.Pool.apart_of_test)
    (Interleaving.Pool.quiet_of_all hquiet)⟩

/-- A record that was read before a move, a deletion or an annotation and is written behind it:
the message is in two queues, back in the queue, or without the annotation. -/
theorem stale_copies_written_back :
    (∀ r ∈ [raced [attemptNote, deferral] [0, 1, 1, 1, 0],
        raced [attemptNote, .delete] [0, 1, 1, 1, 0], raced [attemptNote, tlsNote] [0, 1, 1, 0]],
      r.Quiet (jobSystem (Config.server (lit "mx")).manager (lit "1-a"))) ∧
    ∀ r ∈ [raced [attemptNote, deferral] [0, 1, 1, 1, 0],
        raced [attemptNote, .delete] [0, 1, 1, 1, 0], raced [attemptNote, tlsNote] [0, 1, 1, 0]],
      ¬ Intact r.shared.disk (lit "1-a")
        (replayed (Config.server (lit "mx")).manager ((helloCall (lit "s@x.org")).message 5)
          r.log) := by
  have hquiet : ∀ r ∈ [raced [attemptNote, deferral] [0, 1, 1, 1, 0],
      raced [attemptNote, .delete] [0, 1, 1, 1, 0], raced [attemptNote, tlsNote] [0, 1, 1, 0]],
      r.jobs.all (fun job => !job.2.running) = true := by decide +kernel
  refine ⟨fun r hr => Interleaving.Pool.quiet_of_all (hquiet r hr), fun r hr hintact => ?_⟩
  simp only [List.mem_cons, List.not_mem_nil, or_false] at hr
  rcases hr with rfl | rfl | rfl
  · have hactive : (view (raced [attemptNote, deferral] [0, 1, 1, 1, 0]).shared.disk
        (lit "1-a")).message .active ≠ none := by decide +kernel
    have hdeferred : (view (raced [attemptNote, deferral] [0, 1, 1, 1, 0]).shared.disk
        (lit "1-a")).message .deferred ≠ none := by decide +kernel
    exact absurd (hintact.atMostOne _ _ hactive hdeferred) (by decide)
  · have hback : (view (raced [attemptNote, .delete] [0, 1, 1, 1, 0]).shared.disk
        (lit "1-a")).message .active ≠ none := by decide +kernel
    exact hback (hintact.deleted (by decide +kernel) .active)
  · have hnoted : (replayed (Config.server (lit "mx")).manager
        ((helloCall (lit "s@x.org")).message 5)
        (raced [attemptNote, tlsNote] [0, 1, 1, 0]).log).map
          (fun m => m.annotations.lookup (lit "require_tls")) = some (some (lit "true")) := by
      decide +kernel
    have hlost : (retrieve (raced [attemptNote, tlsNote] [0, 1, 1, 0]).shared.disk
        (lit "1-a")).map (fun m => m.annotations.lookup (lit "require_tls")) = some none := by
      decide +kernel
    obtain ⟨m, hm, hvalue⟩ := Option.map_eq_some_iff.1 hnoted
    obtain ⟨m', hm', hagree⟩ := hintact.kept m hm
    have hsame := hagree (.annotated (lit "require_tls"))
    rw [hm'] at hlost
    have habsent : m'.annotations.lookup (lit "require_tls") = none := Option.some.inj hlost
    exact absurd (habsent.symm.trans (hsame.trans hvalue)) (by simp)

end Elemta.Queue.FileStore

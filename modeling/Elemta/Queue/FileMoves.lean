import Elemta.Queue.FileCrash
import Elemta.Queue.Runs

/-!
# Moves and updates of the file backend

`Update` and `Move` of the file backend (`storage.go`), write by write, and the
operations of the manager that use them. The directory that holds a record is its
queue, and a move is two steps on the disk: the changed record is written into the
target directory, then the source file goes. The manager writes the record once more
behind every move.

Which temporary names are chosen is an input (`random`). An answer says whether the
call succeeded; its callers only log the error.
-/

namespace Elemta.Queue

open Bytes Crash

namespace FileStore

/-! ## Storage calls -/

/-- `readMessageAt`: a record counts only in the directory that it names. -/
def readMessageAt (d : Files) (q : QueueType) (id : Bytes) : Option Message :=
  match d (.message q id) with
  | some (.message m) => if m.id = id ∧ m.queueType = q then some m else none
  | _ => none

variable (cfg : ManagerConfig) (random : Dir → Bytes) (msg : Message)

def tempAt (q : QueueType) : Path :=
  .temp (.queue q) (random (.queue q))

def writeRecord (q : QueueType) (id : Bytes) (msg : Message) : Prog Files Bool :=
  Disk.atomicWrite (tempAt random q) (.message q id) .unfinished (.message msg.persisted)

/-- `Update` does not look at what is stored: the record goes where its own queue type says. -/
def update (msg : Message) : Prog Files Bool :=
  if validateMessageID msg.id = none then writeRecord random msg.queueType msg.id msg
  else .done false

def move (id : Bytes) (source target : QueueType) : Prog Files Bool :=
  if validateMessageID id = none then
    .read fun d =>
      match readMessageAt d source id with
      | none => .done false
      | some m =>
        (writeRecord random target id { m with queueType := target }).bind fun written =>
          -- with one directory for both, this removes the record just written
          if written then .write (·.unlink (.message source id)) (.done true) else .done false
  else .done false

/-! ## Operations of the manager -/

/-- The changes a record gets without changing queues: `AddAttempt`, `SetAnnotation`, and the
records the processor writes directly. -/
inductive Edit where
  | attempt (now : Time) (result errorMsg : Bytes)
  | annotate (now : Time) (key value : Bytes)
  | handoff (h : DsnHandoff)
  | reduction (temporary : List DsnRecipient) (stamp : Option Time)
  deriving DecidableEq

def Edit.apply (msg : Message) : Edit → Message
  | .attempt now result errorMsg =>
    { msg with
      attempts := msg.attempts ++ [{ time := now, result := result, error := errorMsg }]
      updatedAt := now
      lastError := if errorMsg != [] then errorMsg else msg.lastError }
  | .annotate now key value =>
    { msg with annotations := Manager.annotated msg.annotations key value, updatedAt := now }
  | .handoff h => withHandoff msg h
  | .reduction temporary stamp =>
    { reducedMessage msg temporary with updatedAt := stamp.getD msg.updatedAt }

def rewrite (id : Bytes) (e : Edit) : Prog Files Bool :=
  .read fun d =>
    match retrieve d id with
    | none => .done false
    | some msg => update random (e.apply msg)

def moveMessage (now : Time) (jitter : Int)
    (id : Bytes) (target : QueueType) (reason : Bytes) : Prog Files Bool :=
  .read fun d =>
    match retrieve d id with
    | none => .done false
    | some msg =>
      (move random id msg.queueType target).bind fun moved =>
        if moved then update random (Manager.movedMessage cfg now jitter msg target reason)
        else .done false

/-- `RequeueMessage`; a claim that it releases is not on the disk. -/
def requeueMessage (now : Time) (stamp : Bytes) (id reason : Bytes) : Prog Files Bool :=
  .read fun d =>
    match retrieve d id with
    | none => .done false
    | some msg =>
      (if msg.queueType = .active then .done true
        else move random id msg.queueType .active).bind fun moved =>
        if moved then update random (Manager.requeuedMessage now stamp msg reason)
        else .done false

/-- `DeleteMessage`. -/
def consumeMessage (retainBody : Bool) (id : Bytes) : Prog Files Bool :=
  .read fun d =>
    match retrieve d id, d (.body id) with
    | some msg, some (.body content) =>
      (deleteMessageWithTombstone random retainBody msg content).bind fun answer =>
        .done answer.toBool
    | _, _ => .done false

/-- `processDeferredMessages` for one of the records that it lists. -/
def retryDeferred (now : Time) (id : Bytes) : Prog Files Bool :=
  .read fun d =>
    match readMessageAt d .deferred id with
    | none => .done false
    | some msg =>
      if suppressConsumed d id then .done false
      else if retryIsDue now msg then
        moveMessage cfg random now 0 id .active (lit "Retry time reached")
      else .done false

/-! ## What the calls write -/

/-- A condition on the disk that does not look at temporary files. -/
def IgnoresTemps (C : Files → Prop) : Prop :=
  ∀ d dir name f, C d → C (d.put (.temp dir name) f)

def recordAt (d : Files) (q : QueueType) (id : Bytes) (msg : Message) : Files :=
  d.put (.message q id) (.message msg.persisted)

def movedAt (d : Files) (source target : QueueType) (id : Bytes) (m : Message) : Files :=
  (recordAt d target id { m with queueType := target }).unlink (.message source id)

section

variable {d : Files} {random : Dir → Bytes} {id : Bytes} {Q : Bool → Files → Prop}
  {C : Files → Prop}

variable {m msg : Message} {q : QueueType}

theorem eq_of_readMessageAt (h : readMessageAt d q id = some m) :
    d (.message q id) = some (.message m) ∧ m.id = id ∧ m.queueType = q := by
  revert h
  fun_cases readMessageAt d q id with
  | case1 m' hfile hown =>
    rintro ⟨⟩
    exact ⟨hfile, hown⟩
  | _ => nofun

/-- What `Retrieve` gives back is a record in the directory that it names. -/
theorem eq_of_retrieve (h : retrieve d id = some m) :
    d (.message m.queueType id) = some (.message m) ∧ m.id = id ∧ validateMessageID id = none := by
  unfold retrieve at h
  split at h
  · rename_i hid
    suffices hfrom : ∀ qs, retrieveFrom d id qs = some m →
        d (.message m.queueType id) = some (.message m) ∧ m.id = id from
      ⟨(hfrom _ h).1, (hfrom _ h).2, hid⟩
    intro qs h
    fun_induction retrieveFrom d id qs with
    | case2 q rest hfile ih => exact ih h
    | case4 q rest m' hfile hown =>
      cases h
      exact ⟨hown.2 ▸ hfile, hown.1⟩
    | case1 | case3 | case5 | case6 => cases h
  · cases h

/-- The record that `Move` finds where `Retrieve` found one is the same record. -/
theorem readMessageAt_of_retrieve (h : retrieve d id = some msg) :
    readMessageAt d msg.queueType id = some msg := by
  obtain ⟨hfile, hown, -⟩ := eq_of_retrieve h
  simp [readMessageAt, hfile, hown]

theorem wp_writeRecord (hC : IgnoresTemps C) (hd : C d)
    (hfail : d (tempAt random q) ≠ none → Q false d)
    (hdone : d (tempAt random q) = none → Q true (recordAt d q id msg) ∧ C (recordAt d q id msg)) :
    (writeRecord random q id msg).wp Q C d := by
  apply Disk.wp_atomicWrite (by simp [tempAt]) hd hfail
  · exact fun f _ => hC d _ _ f hd
  · exact hdone

theorem wp_update (hC : IgnoresTemps C) (hd : C d)
    (hfail : validateMessageID msg.id ≠ none ∨ d (tempAt random msg.queueType) ≠ none → Q false d)
    (hdone : Q true (recordAt d msg.queueType msg.id msg) ∧
      C (recordAt d msg.queueType msg.id msg)) : (update random msg).wp Q C d := by
  unfold update
  split
  · exact wp_writeRecord hC hd (fun htaken => hfail (.inr htaken)) fun _ => hdone
  · rename_i hid
    exact ⟨hfail (.inl hid), hd⟩

theorem wp_move {source target : QueueType} (hC : IgnoresTemps C) (hd : C d) (hfail : Q false d)
    (hmoved : ∀ m, readMessageAt d source id = some m → d (tempAt random target) = none →
      C (recordAt d target id { m with queueType := target }) ∧
        C (movedAt d source target id m) ∧ Q true (movedAt d source target id m)) :
    (move random id source target).wp Q C d := by
  unfold move
  split
  · rw [Prog.wp_read]
    cases hread : readMessageAt d source id with
    | none => exact ⟨hfail, hd⟩
    | some m =>
      apply Prog.wp_bind
      apply wp_writeRecord hC hd
      · exact fun _ => ⟨hfail, hd⟩
      · intro hfree
        obtain ⟨hcopied, hgone, hdone⟩ := hmoved m hread hfree
        exact ⟨⟨hcopied, hdone, hgone⟩, hcopied⟩
  · exact ⟨hfail, hd⟩

end

theorem movedMessage_queueType (now : Time) (jitter : Int) (msg : Message) (target : QueueType)
    (reason : Bytes) :
    (Manager.movedMessage cfg now jitter msg target reason).queueType = target := by
  unfold Manager.movedMessage
  split
  · rfl
  · cases target <;> rfl

theorem movedMessage_id (now : Time) (jitter : Int) (msg : Message) (target : QueueType)
    (reason : Bytes) : (Manager.movedMessage cfg now jitter msg target reason).id = msg.id := by
  unfold Manager.movedMessage
  split
  · rfl
  · cases target <;> rfl

@[simp] theorem Edit.apply_id (e : Edit) : (e.apply msg).id = msg.id := by
  cases e <;> rfl

@[simp] theorem Edit.apply_queueType (e : Edit) : (e.apply msg).queueType = msg.queueType := by
  cases e <;> rfl

@[simp] theorem Edit.apply_nextRetry (e : Edit) : (e.apply msg).nextRetry = msg.nextRetry := by
  cases e <;> rfl

end FileStore

end Elemta.Queue

import Elemta.Queue.FileMoves

/-!
# Storage calls of the file backend as a whole

What each call of the file backend leaves on the disk when nothing comes between its
writes. With a free temporary name, the write-by-write programs do exactly this.
-/

namespace Elemta.Queue.FileStore

open Bytes Crash

/-! ## The calls -/

def updateCall (d : Files) (msg : Message) : Bool × Files :=
  if validateMessageID msg.id = none then (true, recordAt d msg.queueType msg.id msg) else (false, d)

def moveCall (d : Files) (id : Bytes) (source target : QueueType) : Bool × Files :=
  if validateMessageID id = none then
    match readMessageAt d source id with
    | none => (false, d)
    | some m => (true, movedAt d source target id m)
  else (false, d)

/-- The disk without the first file that `Delete` finds, and without the body. -/
def removeAt (d : Files) (id : Bytes) : Files :=
  match queueOrder.find? fun q => (d (.message q id)).isSome with
  | some q => (d.unlink (.message q id)).unlink (.body id)
  | none => d.unlink (.body id)

def consumeCall (d : Files) (retainBody : Bool) (msg : Message) (content : Bytes) : Bool × Files :=
  let buried := d.put (.tombstone msg.id) (.tombstone (newTombstone retainBody msg content))
  if validateMessageID msg.id = none then (true, removeAt buried msg.id) else (false, buried)

/-! ## The programs -/

section

variable {d : Files} {random : Dir → Bytes} {id : Bytes}

variable {msg : Message}

/-- With a free temporary name, the calls do write by write what they do as a whole. -/
theorem run_update (hfree : d (tempAt random msg.queueType) = none) :
    (update random msg).run d = updateCall d msg := by
  unfold update updateCall
  split
  · exact Disk.run_atomicWrite (by simp [tempAt]) hfree
  · rfl

theorem run_move {source target : QueueType} (hfree : d (tempAt random target) = none) :
    (move random id source target).run d = moveCall d id source target := by
  unfold move moveCall
  split
  · simp only [Prog.run]
    cases readMessageAt d source id with
    | none => rfl
    | some m =>
      rw [Prog.run_bind, writeRecord, Disk.run_atomicWrite (by simp [tempAt]) hfree]
      rfl
  · rfl

theorem run_deleteContent (next : Answer) :
    (deleteContent id (.done next)).run d = (next, d.unlink (.body id)) := by
  unfold deleteContent
  simp only [Prog.run]
  split
  · rfl
  rename_i hnone
  have habsent : d (.body id) = none := by simpa using hnone
  have hsame : d.unlink (.body id) = d := Function.update_eq_self_iff.2 habsent.symm
  rw [hsame]
  rfl

theorem run_consume {retainBody : Bool} {content : Bytes}
    (hfree : d (.temp .tmp (random .tmp)) = none) :
    (((deleteMessageWithTombstone random retainBody msg content).run d).1.toBool,
        ((deleteMessageWithTombstone random retainBody msg content).run d).2) =
      consumeCall d retainBody msg content := by
  unfold deleteMessageWithTombstone consumeCall publish
  rw [Prog.run_bind, Disk.run_atomicWrite (by simp) hfree]
  cases hid : validateMessageID msg.id with
  | some invalid => rfl
  | none =>
    simp only [deleteMessage, removeAt, Prog.run, if_true]
    generalize d.put (.tombstone msg.id) (.tombstone (newTombstone retainBody msg content)) = b
    cases queueOrder.find? fun q => (b (.message q msg.id)).isSome with
    | none => simp [run_deleteContent, Except.toBool]
    | some q => simp [Prog.run, run_deleteContent, Except.toBool]

end

end Elemta.Queue.FileStore

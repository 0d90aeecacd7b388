import Elemta.Queue.FileMoves

/-!
# Retry times of deferred messages

The deferred scan passes over a record whose retry time is zero, so a message that
is in Deferred without one stays there. `MoveMessage` puts the retry time into the
record that it writes behind its move; the move itself carries over the time the
record had before. A history here is any list of operations of the manager on the
file backend, each of which may die after any of its writes.
-/

namespace Elemta.Queue.FileStore

open Bytes Crash

/-! ## Histories -/

inductive Operation where
  | enqueue (call : EnqueueCall) (now : Time)
  | edit (id : Bytes) (e : Edit)
  | move (id : Bytes) (target : QueueType) (reason : Bytes) (now : Time) (jitter : Int)
  | retry (id : Bytes) (now : Time)
  | requeue (id reason stamp : Bytes) (now : Time)
  | delete (id : Bytes)

variable (cfg : ManagerConfig)

def Operation.prog (random : Dir → Bytes) : Operation → Prog Files Bool
  | .enqueue call now =>
    (createMessageIfAbsent random (call.message now) call.content).bind fun answer =>
      .done answer.toBool
  | .edit id e => rewrite random id e
  | .move id target reason now jitter => moveMessage cfg random now jitter id target reason
  | .retry id now => retryDeferred cfg random now id
  | .requeue id reason stamp now => requeueMessage random now stamp id reason
  | .delete id => consumeMessage random cfg.retainTombstoneBody id

/-- An operation, the temporary names it draws, and after how many writes it dies, if it does. -/
structure Turn where
  op : Operation
  random : Dir → Bytes
  death : Option Nat

def Turn.take (d : Files) (turn : Turn) : Files :=
  match turn.death with
  | none => ((turn.op.prog cfg turn.random).run d).2
  | some n => (turn.op.prog cfg turn.random).after n d

/-! ## Retry times -/

def Scanned (m : Message) : Prop :=
  ∃ t, ∀ now, t < now → retryIsDue now m = true

theorem scanned_iff {m : Message} : Scanned m ↔ m.queueType = .deferred ∧ m.nextRetry ≠ 0 := by
  constructor
  · rintro ⟨t, h⟩
    have hdue := h (t + 1) (Nat.lt_succ_self t)
    simp only [retryIsDue, Bool.and_eq_true, beq_iff_eq, bne_iff_ne] at hdue
    exact hdue.1
  · rintro ⟨hqueue, htime⟩
    refine ⟨m.nextRetry, fun now hnow => ?_⟩
    simp [retryIsDue, hqueue, htime, hnow]

def Timely (d : Files) : Prop :=
  ∀ id m, d (.message .deferred id) = some (.message m) → Scanned m

def retryDelay (retryCount : Nat) : Int :=
  let schedule := if cfg.retrySchedule = [] then Manager.defaultRetrySchedule else cfg.retrySchedule
  schedule.getD (min (max retryCount 1 - 1) (schedule.length - 1)) 0

/-- The clock is past the zero time, and the delay does not point back. -/
def Forward (retryCount : Nat) (now : Time) (jitter : Int) : Prop :=
  0 < now ∧ 0 ≤ retryDelay cfg retryCount + jitter

/-- How many writes `Move` makes before the record is in the target directory: the temporary
file is created and filled, and the third one renames it. -/
def writesBeforeMove : Nat := 2

/-- A deferral of a record that has no retry time is given a reason and runs to its end, or dies
before its move shows. -/
def Safe (d : Files) (turn : Turn) : Prop :=
  ∀ id reason now jitter, turn.op = .move id .deferred reason now jitter →
    ∀ msg, retrieve d id = some msg →
      (reason ≠ [] → Forward cfg (msg.retryCount + 1) now jitter) ∧
        (msg.nextRetry ≠ 0 ∨ (reason ≠ [] ∧ turn.death = none) ∨
          ∃ n ≤ writesBeforeMove, turn.death = some n)

/-! ## Operations that keep the retry times -/

section

variable {d : Files} {random : Dir → Bytes} {id : Bytes} {cfg : ManagerConfig}

variable {reason : Bytes} {jitter : Int} {msg : Message} {target : QueueType} {now : Time}

theorem calculateNextRetry_ne_zero {retryCount : Nat} (h : Forward cfg retryCount now jitter) :
    Manager.calculateNextRetry cfg retryCount now jitter ≠ 0 := by
  obtain ⟨hnow, hdelay⟩ := h
  have hsum : Manager.calculateNextRetry cfg retryCount now jitter =
      (Int.ofNat now + (retryDelay cfg retryCount + jitter) * 1000000000).toNat := rfl
  have hclock : (0 : Int) < Int.ofNat now := Int.ofNat_lt.2 hnow
  rw [hsum]
  intro hzero
  have hle := Int.toNat_eq_zero.1 hzero
  omega

theorem Timely.put (hd : Timely d) {path : Path} {f : File}
    (hnew : ∀ id m, path = .message .deferred id → f = .message m → Scanned m) :
    Timely (d.put path f) := by
  intro id m h
  by_cases hpath : Path.message .deferred id = path
  · rw [← hpath, Disk.put_same] at h
    exact hnew id m hpath.symm (Option.some.inj h)
  · rw [Disk.put_other d f hpath] at h
    exact hd id m h

theorem Timely.unlink (hd : Timely d) (path : Path) : Timely (d.unlink path) := by
  intro id m h
  by_cases hpath : Path.message .deferred id = path
  · rw [← hpath, Disk.unlink_same] at h
    cases h
  · rw [Disk.unlink_other d hpath] at h
    exact hd id m h

theorem timely_ignoresTemps : IgnoresTemps Timely :=
  fun _ _ _ _ hd => hd.put fun _ _ hpath => nomatch hpath

theorem Timely.recordAt (hd : Timely d) {q : QueueType}
    (hmsg : q = .deferred → msg.queueType = .deferred ∧ msg.nextRetry ≠ 0) :
    Timely (recordAt d q id msg) := by
  apply hd.put
  intro _ m hpath hfile
  obtain ⟨rfl, -⟩ := Path.message.inj hpath
  obtain rfl := File.message.inj hfile
  exact scanned_iff.2 (hmsg rfl)

variable {m : Message} {source : QueueType}

theorem Timely.nextRetry (hd : Timely d) (h : retrieve d id = some m)
    (hqueue : m.queueType = .deferred) : m.nextRetry ≠ 0 := by
  have hfile := (eq_of_retrieve h).1
  rw [hqueue] at hfile
  exact (scanned_iff.1 (hd id m hfile)).2

theorem rewrite_timely (hd : Timely d) (e : Edit) :
    (rewrite random id e).wp (fun _ => Timely) Timely d := by
  unfold rewrite
  rw [Prog.wp_read]
  cases hread : retrieve d id with
  | none => exact ⟨hd, hd⟩
  | some m =>
    have hwritten : Timely (recordAt d (e.apply m).queueType (e.apply m).id (e.apply m)) := by
      apply hd.recordAt
      simp only [Edit.apply_queueType, Edit.apply_nextRetry]
      exact fun hqueue => ⟨hqueue, hd.nextRetry hread hqueue⟩
    exact wp_update timely_ignoresTemps hd (fun _ => hd) ⟨hwritten, hwritten⟩

/-- The state `Move` leaves keeps the retry times, unless it carries none into Deferred. -/
theorem Timely.movedAt (hd : Timely d) (hm : target = .deferred → m.nextRetry ≠ 0) :
    Timely (FileStore.recordAt d target id { m with queueType := target }) ∧
      Timely (FileStore.movedAt d source target id m) := by
  have hcopied : Timely (FileStore.recordAt d target id { m with queueType := target }) :=
    hd.recordAt fun htarget => ⟨htarget, hm htarget⟩
  exact ⟨hcopied, hcopied.unlink _⟩

/-- A move of a record with a retry time, and a move to another queue than Deferred, keep the
retry times wherever they die. `msg` is the record the manager writes behind the move. -/
theorem move_update_timely (hd : Timely d)
    (hcarried : target = .deferred → ∀ m, readMessageAt d source id = some m → m.nextRetry ≠ 0)
    (hmsg : msg.queueType = target) (hnew : target = .deferred → msg.nextRetry ≠ 0) :
    ((move random id source target).bind fun moved =>
      if moved then update random msg else .done false).wp (fun _ => Timely) Timely d := by
  apply Prog.wp_bind
  apply wp_move timely_ignoresTemps hd
  · exact ⟨hd, hd⟩
  · intro m hread _
    obtain ⟨hcopied, hgone⟩ := hd.movedAt fun htarget => hcarried htarget m hread
    have hwritten : Timely (recordAt (movedAt d source target id m)
        msg.queueType msg.id msg) := by
      apply hgone.recordAt
      rw [hmsg]
      exact fun htarget => ⟨htarget, hnew htarget⟩
    exact ⟨hcopied, hgone, wp_update timely_ignoresTemps hgone (fun _ => hgone)
      ⟨hwritten, hwritten⟩⟩

/-- The retry time of the record that a deferral writes. -/
theorem movedMessage_nextRetry_ne_zero
    (hforward : reason ≠ [] → Forward cfg (msg.retryCount + 1) now jitter)
    (htime : msg.nextRetry ≠ 0 ∨ reason ≠ []) :
    (Manager.movedMessage cfg now jitter msg .deferred reason).nextRetry ≠ 0 := by
  unfold Manager.movedMessage
  split
  · rename_i hreason
    exact htime.resolve_right fun h => h hreason
  · rename_i hreason
    exact calculateNextRetry_ne_zero (hforward hreason)

section

variable (hd : Timely d)

include hd

theorem moveMessage_timely (hdefer : target = .deferred → ∀ msg, retrieve d id = some msg →
      msg.nextRetry ≠ 0 ∧ (reason ≠ [] → Forward cfg (msg.retryCount + 1) now jitter)) :
    (moveMessage cfg random now jitter id target reason).wp (fun _ => Timely) Timely d := by
  unfold moveMessage
  rw [Prog.wp_read]
  cases hread : retrieve d id with
  | none => exact ⟨hd, hd⟩
  | some msg =>
    apply move_update_timely hd
    · intro htarget m hm
      rw [readMessageAt_of_retrieve hread] at hm
      cases hm
      exact (hdefer htarget msg hread).1
    · exact movedMessage_queueType cfg now jitter msg target reason
    · rintro rfl
      obtain ⟨htime, hforward⟩ := hdefer rfl msg hread
      exact movedMessage_nextRetry_ne_zero hforward (.inl htime)

theorem requeueMessage_timely (now : Time) (stamp reason : Bytes) :
    (requeueMessage random now stamp id reason).wp (fun _ => Timely) Timely d := by
  unfold requeueMessage
  rw [Prog.wp_read]
  cases hread : retrieve d id with
  | none => exact ⟨hd, hd⟩
  | some msg =>
    dsimp only
    split
    · have hwritten : Timely (recordAt d .active msg.id
          (Manager.requeuedMessage now stamp msg reason)) := hd.recordAt fun h => nomatch h
      exact wp_update timely_ignoresTemps hd (fun _ => hd) ⟨hwritten, hwritten⟩
    · exact move_update_timely hd (fun h => nomatch h) rfl (fun h => nomatch h)

theorem retryDeferred_timely (now : Time) :
    (retryDeferred cfg random now id).wp (fun _ => Timely) Timely d := by
  unfold retryDeferred
  rw [Prog.wp_read]
  split
  · exact ⟨hd, hd⟩
  split
  · exact ⟨hd, hd⟩
  · split
    · exact moveMessage_timely hd (fun h => nomatch h)
    · exact ⟨hd, hd⟩

theorem createMessageIfAbsent_timely (content : Bytes) (hqueue : msg.queueType = .active) :
    (createMessageIfAbsent random msg content).wp (fun _ => Timely) Timely d := by
  refine keeps_create timely_ignoresTemps (fun d hd => hd.put fun _ _ h => nomatch h) ?_ d hd
  rw [hqueue]
  exact fun d hd => hd.put fun _ _ h => nomatch h

theorem consumeMessage_timely (retain : Bool) :
    (consumeMessage random retain id).wp (fun _ => Timely) Timely d := by
  unfold consumeMessage
  rw [Prog.wp_read]
  split
  · apply Prog.wp_bind
    refine Prog.wp_mono _ (fun _ _ h => ⟨h, h⟩) (fun _ h => h)
      (keeps_delete timely_ignoresTemps (fun d t hd => ?_) (fun d path hd _ => hd.unlink path) d hd)
    exact hd.put fun _ _ h => nomatch h
  · exact ⟨hd, hd⟩

/-! ## Deferrals of records without a retry time -/

/-- A deferral that runs to its end leaves the retry time that it computed. -/
theorem moveMessage_defers (hreason : reason ≠ [])
    (hforward : ∀ msg, retrieve d id = some msg → Forward cfg (msg.retryCount + 1) now jitter) :
    Timely ((moveMessage cfg random now jitter id .deferred reason).run d).2 := by
  apply Prog.wp_run (Q := fun _ => Timely) (C := fun _ => True)
  unfold moveMessage
  rw [Prog.wp_read]
  cases hread : retrieve d id with
  | none => exact ⟨hd, trivial⟩
  | some msg =>
    obtain ⟨-, hown, hid⟩ := eq_of_retrieve hread
    apply Prog.wp_bind
    apply wp_move (fun _ _ _ _ _ => trivial) trivial
    · exact ⟨hd, trivial⟩
    · intro m _ hfree
      refine ⟨trivial, trivial, ?_⟩
      apply wp_update (fun _ _ _ _ _ => trivial) trivial
      · -- the name was free for the move, which has given it back
        rintro (hinvalid | htaken)
        · rw [movedMessage_id, hown] at hinvalid
          exact absurd hid hinvalid
        · rw [movedMessage_queueType] at htaken
          refine absurd ?_ htaken
          simpa [movedAt, recordAt, tempAt, Disk.put, Disk.unlink] using hfree
      · refine ⟨?_, trivial⟩
        rw [movedMessage_queueType, movedMessage_id, hown]
        intro other m' hother
        by_cases hsame : other = id
        · subst hsame
          rw [recordAt, Disk.put_same] at hother
          obtain rfl := File.message.inj (Option.some.inj hother)
          exact scanned_iff.2 ⟨movedMessage_queueType cfg now jitter msg .deferred reason,
            movedMessage_nextRetry_ne_zero (fun _ => hforward msg hread) (.inr hreason)⟩
        · apply hd other m'
          simpa [movedAt, recordAt, Disk.put, Disk.unlink, hsame] using hother

/-- A move that dies early has written temporary files only. -/
theorem moveMessage_dies_early {n : Nat} (hn : n ≤ writesBeforeMove) :
    Timely ((moveMessage cfg random now jitter id target reason).after n d) := by
  have hwrite : ∀ q (msg : Message) (k : Bool → Prog Files Bool), k false = .done false →
      Timely (((writeRecord random q id msg).bind k).after n d) := by
    intro q msg k hk
    unfold writeRecord Disk.atomicWrite
    simp only [Prog.bind, Prog.after]
    split
    · simpa [Prog.bind, hk, Prog.after] using hd
    have htemp : ∀ f, Timely (d.put (tempAt random q) f) := fun f => timely_ignoresTemps _ _ _ f hd
    obtain rfl | rfl | rfl : n = 0 ∨ n = 1 ∨ n = 2 := by
      unfold writesBeforeMove at hn
      omega
    · exact hd
    · exact htemp _
    · exact timely_ignoresTemps _ _ _ _ (htemp _)
  unfold moveMessage
  simp only [Prog.after]
  split
  · exact hd
  unfold move
  split
  · simp only [Prog.bind, Prog.after]
    split
    · exact hd
    · rw [Prog.bind_assoc]
      exact hwrite _ _ _ rfl
  · exact hd

end

end

/-! ## Every history -/

section

variable {cfg : ManagerConfig} {d : Files}

variable {turn : Turn}

theorem take_of_wp {C : Files → Prop} (h : (turn.op.prog cfg turn.random).wp (fun _ => C) C d) :
    C (turn.take cfg d) := by
  unfold Turn.take
  cases turn.death with
  | none => exact Prog.wp_run _ h
  | some n => exact Prog.wp_after _ h n

theorem take_timely (hd : Timely d) (hsafe : Safe cfg d turn) : Timely (turn.take cfg d) := by
  cases hop : turn.op with
  | enqueue call now =>
    apply take_of_wp
    rw [hop]
    apply Prog.wp_bind
    exact Prog.wp_mono _ (fun _ _ h => ⟨h, h⟩) (fun _ h => h)
      (createMessageIfAbsent_timely hd call.content rfl)
  | edit id e =>
    apply take_of_wp
    rw [hop]
    exact rewrite_timely hd e
  | retry id now =>
    apply take_of_wp
    rw [hop]
    exact retryDeferred_timely hd now
  | requeue id reason stamp now =>
    apply take_of_wp
    rw [hop]
    exact requeueMessage_timely hd now stamp reason
  | delete id =>
    apply take_of_wp
    rw [hop]
    exact consumeMessage_timely hd cfg.retainTombstoneBody
  | move id target reason now jitter =>
    by_cases hdefer : target = .deferred ∧ ∃ msg, retrieve d id = some msg ∧ msg.nextRetry = 0
    · obtain ⟨rfl, msg, hread, hzero⟩ := hdefer
      obtain ⟨hforward, htime | ⟨hreason, hdeath⟩ | ⟨n, hn, hdeath⟩⟩ :=
        hsafe id reason now jitter hop msg hread
      · exact absurd hzero htime
      · unfold Turn.take
        rw [hop, hdeath]
        refine moveMessage_defers hd hreason fun m hm => ?_
        obtain rfl := Option.some.inj (hread.symm.trans hm)
        exact hforward hreason
      · unfold Turn.take
        rw [hop, hdeath]
        exact moveMessage_dies_early hd hn
    · apply take_of_wp
      rw [hop]
      refine moveMessage_timely hd fun htarget msg hread => ?_
      subst htarget
      exact ⟨fun hzero => hdefer ⟨rfl, msg, hread, hzero⟩,
        (hsafe id reason now jitter hop msg hread).1⟩

def noFiles : Files :=
  fun _ => none

/-- In every history whose deferrals are safe, the scan will act on everything in Deferred. -/
theorem deferred_have_retry_times {turns : List Turn}
    (h : Machine.Along (Turn.take cfg) (Safe cfg) noFiles turns) :
    Timely (Machine.run (Turn.take cfg) noFiles turns) :=
  h.run_invariant Timely (fun _ _ hsafe hd => take_timely hd hsafe) fun _ _ hfile => nomatch hfile

end

/-- A message comes in and its first attempt is deferred; `death` is where that deferral dies. -/
def busyHistory (death : Option Nat) : List Turn :=
  [{ op := .enqueue (helloCall (lit "s@x.org")) 5
     random := tempNames (lit ".tmp_1")
     death := none },
    { op := .move (lit "1-a") .deferred (lit "451 busy") 7 0
      random := tempNames (lit ".tmp_2")
      death := death }]

def busyDisk (death : Option Nat) : Files :=
  Machine.run (Turn.take (Config.server (lit "mx")).manager) noFiles (busyHistory death)

theorem deferral_completed_has_retry_time :
    ∃ m, busyDisk none (.message .deferred (lit "1-a")) = some (.message m) ∧ Scanned m := by
  have hfile : (retrieveFrom (busyDisk none) (lit "1-a") [.deferred]).isSome = true := by
    decide +kernel
  have hsafe : Machine.Along (Turn.take (Config.server (lit "mx")).manager)
      (Safe (Config.server (lit "mx")).manager) noFiles (busyHistory none) := by
    refine ⟨fun _ _ _ _ hop => (nomatch hop), ?_, trivial⟩
    intro id reason now jitter hop msg hread
    obtain ⟨rfl, -, rfl, rfl, rfl⟩ := Operation.move.inj hop
    have hcount : (retrieve (busyDisk (some 0)) (lit "1-a")).map Message.retryCount = some 0 := by
      decide +kernel
    have hsame : retrieve (busyDisk (some 0)) (lit "1-a") = some msg := hread
    rw [hsame] at hcount
    have hfirst : msg.retryCount = 0 := Option.some.inj hcount
    refine ⟨fun _ => ?_, .inr (.inl ⟨by decide, rfl⟩)⟩
    rw [hfirst]
    exact ⟨by decide, by decide⟩
  unfold retrieveFrom at hfile
  split at hfile
  · cases hfile
  · rename_i m hget
    exact ⟨m, hget, deferred_have_retry_times hsafe (lit "1-a") m hget⟩
  · cases hfile

/-- A deferral that dies between its `Move` and its `Update` leaves the message in Deferred
without a retry time, and no scan ever acts on it. -/
theorem cut_deferral_never_retried :
    ∃ m, busyDisk (some 4) (.message .deferred (lit "1-a")) = some (.message m) ∧
      m.nextRetry = 0 ∧
      ∀ random now n, (retryDeferred (Config.server (lit "mx")).manager random now
        (lit "1-a")).after n (busyDisk (some 4)) = busyDisk (some 4) := by
  have hread : (readMessageAt (busyDisk (some 4)) .deferred (lit "1-a")).map Message.nextRetry =
      some 0 := by decide +kernel
  have hopen : suppressConsumed (busyDisk (some 4)) (lit "1-a") = false := by decide +kernel
  obtain ⟨m, hm, hzero⟩ := Option.map_eq_some_iff.1 hread
  refine ⟨m, (eq_of_readMessageAt hm).1, hzero, fun random now n => ?_⟩
  have hnever : retryIsDue now m = false := by simp [retryIsDue, hzero]
  simp [retryDeferred, Prog.after, hm, hopen, hnever]

end Elemta.Queue.FileStore

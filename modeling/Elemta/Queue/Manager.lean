import Elemta.Queue.Store

/-!
# The queue manager

The read-modify-write operations of `manager.go` over the store. A storage call
may fail; which calls of an operation succeed is part of its input, and what an
operation has already written when a later call fails stays written.
-/

namespace Elemta.Queue

open Bytes

inductive Call where
  | retrieve
  | retrieveContent
  | update
  | move
  | consume
  | create
  deriving DecidableEq

structure ManagerConfig where
  failedQueueRetentionHours : Int
  retrySchedule : List Int
  retainTombstoneBody : Bool
  deriving DecidableEq

namespace Manager

variable (cfg : ManagerConfig) (ok : Call → Bool)

def getMessage (s : Store) (id : Bytes) : Option Message :=
  if ok .retrieve then s.retrieve id else none

def getMessageContent (s : Store) (id : Bytes) : Option Bytes :=
  if ok .retrieveContent then s.retrieveContent id else none

def tryUpdate (s : Store) (msg : Message) : Option Store :=
  if ok .update then s.update msg else none

def addAttempt (now : Time) (s : Store) (id result errorMsg : Bytes) : Store :=
  match getMessage ok s id with
  | none => s
  | some msg =>
    let msg := { msg with
      attempts := msg.attempts ++ [{ time := now, result := result, error := errorMsg }]
      updatedAt := now
      lastError := if errorMsg != [] then errorMsg else msg.lastError }
    (tryUpdate ok s msg).getD s

/-- `map[key] = value`. -/
def annotated (annotations : Annotations) (key value : Bytes) : Annotations :=
  (key, value) :: annotations.filter fun kv => kv.1 != key

def setAnnotationAt (now : Time) (s : Store) (id key value : Bytes) : Store :=
  match getMessage ok s id with
  | none => s
  | some msg =>
    let msg := { msg with annotations := annotated msg.annotations key value, updatedAt := now }
    (tryUpdate ok s msg).getD s

def defaultRetrySchedule : List Int :=
  [60, 300, 900, 3600, 10800, 21600, 21600, 21600, 21600, 43200, 43200, 43200, 43200]

/-- The schedule's delay for this retry, moved by `jitter` seconds. -/
def calculateNextRetry (retryCount : Nat) (now : Time) (jitter : Int) : Time :=
  let schedule := if cfg.retrySchedule = [] then defaultRetrySchedule else cfg.retrySchedule
  let index := min (max retryCount 1 - 1) (schedule.length - 1)
  (Int.ofNat now + (schedule.getD index 0 + jitter) * 1000000000).toNat

def movedMessage (now : Time) (jitter : Int) (msg : Message)
    (target : QueueType) (reason : Bytes) : Message :=
  let msg := { msg with queueType := target, updatedAt := now }
  if reason = [] then msg
  else
    match target with
    | .failed => { msg with lastError := reason }
    | .hold => { msg with holdReason := reason }
    | .deferred =>
      { msg with
        lastError := reason
        retryCount := msg.retryCount + 1
        nextRetry := calculateNextRetry cfg (msg.retryCount + 1) now jitter }
    | .active => msg

def moveMessage (now : Time) (jitter : Int) (s : Store)
    (id : Bytes) (target : QueueType) (reason : Bytes) : Store :=
  match getMessage ok s id with
  | none => s
  | some msg =>
    match if ok .move then s.move id msg.queueType target else none with
    | none => s
    | some moved => (tryUpdate ok moved (movedMessage cfg now jitter msg target reason)).getD moved

def deleteMessage (now : Time) (s : Store) (id : Bytes) : Store :=
  match getMessage ok s id, getMessageContent ok s id with
  | some msg, some content =>
    if ok .consume then
      (s.deleteMessageWithTombstone cfg.retainTombstoneBody msg content now).getD s
    else s
  | _, _ => s

/-- The annotations that `setAdminAnnotation` leaves; `stamp` is the formatted time. -/
def adminAnnotations (annotations : Annotations) (action stamp reason : Bytes) : Annotations :=
  let marked :=
    annotated (annotated annotations (lit "admin_action") action) (lit "admin_action_at") stamp
  if trimSpace reason != [] then annotated marked (lit "admin_reason") reason else marked

def requeuedMessage (now : Time) (stamp : Bytes) (msg : Message) (reason : Bytes) : Message :=
  { msg with
    queueType := .active
    retryCount := 0
    lastError := []
    holdReason := []
    nextRetry := 0
    updatedAt := now
    annotations := adminAnnotations msg.annotations (lit "requeued") stamp reason }

def requeueMessage (now : Time) (stamp : Bytes) (s : Store) (id reason : Bytes) : Store :=
  match getMessage ok s id with
  | none => s
  | some msg =>
    match if msg.queueType = .active then some s
      else if ok .move then s.move id msg.queueType .active else none with
    | none => s
    | some moved => (tryUpdate ok moved (requeuedMessage now stamp msg reason)).getD moved

/-- `FlushQueue` of the ids that were listed: no tombstone is left. -/
def flushQueue (s : Store) (listed : List Bytes) : Store :=
  listed.foldl Store.discard s

/-! ## What the operations do to an entry -/

variable {m m' : Message} {id : Bytes} {s : Store}

theorem envelope_recorded (h : m'.envelope = m.envelope) (hm : Store.recorded m = m) :
    (Store.recorded m').envelope = m.envelope := by
  obtain ⟨hid, hfrom, hto, hdomain, hsubject, hsize, hpriority, hreceived, hcreated, hids,
    hhandoff⟩ := Envelope.mk.inj h
  have hm' : (Store.recorded m).envelope = m.envelope := by rw [hm]
  rw [← hm']
  simp [Store.recorded, Message.persisted, Message.envelope, hid, hfrom, hto, hdomain, hsubject,
    hsize, hpriority, hreceived, hcreated, hids, hhandoff]

/-- The store is the same except under one id, where the entry is `e` now. An entry that stays
keeps its body, and one that goes leaves a tombstone. -/
structure Rewrites (s : Store) (id : Bytes) (e : Option Message) (s' : Store) : Prop where
  wf : s'.WF
  entries : s'.entries = Function.update s.entries id e
  contents : ∀ other, other ≠ id → s'.contents other = s.contents other
  tombstones : ∀ other, other ≠ id → s'.tombstones other = s.tombstones other
  body : ∀ m, e = some m → s'.contents id = s.contents id
  buried : e = none → ∀ msg content, msg.id = id → s.Remembered msg content →
    s'.Remembered msg content

/-- The entry is rewritten, with the same envelope, in a queue that `Q` says. -/
abbrev Keeps (s : Store) (id : Bytes) (m : Message) (Q : QueueType → Prop) (s' : Store) : Prop :=
  ∃ m', Rewrites s id (some m') s' ∧ m'.envelope = m.envelope ∧ Q m'.queueType

theorem Rewrites.refl (hs : s.WF) (h : s.entries id = some m) : Rewrites s id (some m) s :=
  ⟨hs, by rw [← h, Function.update_eq_self], fun _ _ => rfl, fun _ _ => rfl, fun _ _ => rfl,
    by simp⟩

theorem Rewrites.trans {s' s'' : Store} (h : Rewrites s id (some m) s')
    (h' : Rewrites s' id (some m') s'') : Rewrites s id (some m') s'' := by
  refine ⟨h'.wf, ?_, ?_, ?_, ?_, by simp⟩
  · rw [h'.entries, h.entries, Function.update_idem]
  · intro other hne
    rw [h'.contents other hne, h.contents other hne]
  · intro other hne
    rw [h'.tombstones other hne, h.tombstones other hne]
  · intro _ _
    rw [h'.body m' rfl, h.body m rfl]

/-- A rewritten entry is remembered as before when it has the identity it had. -/
theorem Rewrites.remembered {s' : Store} {e : Option Message} {msg : Message}
    {content : Bytes} (h : Rewrites s id e s') (hs : s.WF) (hentry : s.entries id ≠ none)
    (hsame : msg.id = id → ∀ m', e = some m' → sameEnqueueMessage m'.persisted msg = true)
    (hmsg : s.Remembered msg content) : s'.Remembered msg content := by
  by_cases hid : msg.id = id
  · cases he : e with
    | none => exact h.buried he msg content hid hmsg
    | some m' =>
      cases hmsg with
      | live old entry same body =>
        refine .live m' ?_ (hsame hid m' he) ?_
        · rw [h.entries, hid, Function.update_self, he]
        · rw [hid, h.body m' he, ← hid]
          exact body
      | consumed t tombstone same body =>
        obtain ⟨old, hold⟩ := Option.ne_none_iff_exists'.1 hentry
        rw [hid, hs.no_tombstone hold] at tombstone
        cases tombstone
  · refine hmsg.congr ?_ (h.contents _ hid) (h.tombstones _ hid)
    rw [h.entries, Function.update_of_ne hid]

section

variable {s s' : Store} (ok : Call → Bool) (now : Time) {id : Bytes} {m : Message}

variable {msg : Message} {target : QueueType}

theorem eq_of_getMessage {ok : Call → Bool} (hentry : s.entries id = some m)
    (h : getMessage ok s id = some msg) : m = msg := by
  unfold getMessage at h
  split at h
  · simpa [Store.retrieve, hentry] using h
  · simp at h

theorem getMessage_of_absent (ok : Call → Bool) (hentry : s.entries id = none) :
    getMessage ok s id = none := by
  simp [getMessage, Store.retrieve, hentry]

theorem tryUpdate_rewrites {ok : Call → Bool} (hs : s.WF) (h : tryUpdate ok s msg = some s') :
    Rewrites s msg.id (some (Store.recorded msg)) s' := by
  unfold tryUpdate at h
  split at h
  · have hwf := hs.update h
    unfold Store.update at h
    split at h
    · simp at h
    · obtain rfl := Option.some.inj h
      exact ⟨hwf, rfl, fun _ _ => rfl, fun _ _ => rfl, fun _ _ => rfl, by simp⟩
  · simp at h

theorem tryUpdate_isSome {ok : Call → Bool} (hok : ok .update = true)
    (hentry : s.entries msg.id = some m) : ∃ s', tryUpdate ok s msg = some s' :=
  ⟨s.putEntry msg, by simp [tryUpdate, hok, Store.update, hentry]⟩

section

variable (hs : s.WF) (hentry : s.entries id = some m)

include hs hentry

theorem tryUpdate_keeps (msg : Message) (henv : msg.envelope = m.envelope) :
    Keeps s id m (fun q => q = m.queueType ∨ q = msg.queueType) ((tryUpdate ok s msg).getD s) := by
  cases hupdate : tryUpdate ok s msg with
  | none => exact ⟨m, Rewrites.refl hs hentry, rfl, .inl rfl⟩
  | some written =>
    have hid : msg.id = id := by
      rw [(Envelope.mk.inj henv).1, hs.id_eq hentry]
    have hrw := tryUpdate_rewrites hs hupdate
    rw [hid] at hrw
    exact ⟨Store.recorded msg, hrw, envelope_recorded henv (hs.recorded_eq hentry), .inr rfl⟩

theorem edit_keeps {edit : Message → Message}
    (henv : (edit m).envelope = m.envelope) (hqueue : (edit m).queueType = m.queueType) :
    Keeps s id m (· = m.queueType)
      (match getMessage ok s id with
      | none => s
      | some msg => (tryUpdate ok s (edit msg)).getD s) := by
  split
  · exact ⟨m, Rewrites.refl hs hentry, rfl, rfl⟩
  rename_i msg hmsg
  obtain rfl := eq_of_getMessage hentry hmsg
  obtain ⟨m', hrw, henv', hqueue'⟩ := tryUpdate_keeps ok hs hentry (edit m) henv
  exact ⟨m', hrw, henv', by simpa [hqueue] using hqueue'⟩

theorem addAttempt_keeps (result errorMsg : Bytes) :
    Keeps s id m (· = m.queueType) (addAttempt ok now s id result errorMsg) :=
  edit_keeps ok hs hentry rfl rfl

theorem setAnnotationAt_keeps (key value : Bytes) :
    Keeps s id m (· = m.queueType) (setAnnotationAt ok now s id key value) :=
  edit_keeps ok hs hentry rfl rfl

theorem move_rewrites (h : s.move id m.queueType target = some s') :
    Rewrites s id (some { m with queueType := target }) s' := by
  have hwf := hs.move h
  simp only [Store.move, hentry, if_true, Option.some.injEq] at h
  subst h
  exact ⟨hwf, rfl, fun _ _ => rfl, fun _ _ => rfl, fun _ _ => rfl, by simp⟩

end

theorem movedMessage_envelope (m : Message) (cfg : ManagerConfig) (jitter : Int) (target : QueueType)
    (reason : Bytes) :
    (movedMessage cfg now jitter m target reason).envelope = m.envelope ∧
      (movedMessage cfg now jitter m target reason).queueType = target := by
  unfold movedMessage
  split
  · exact ⟨rfl, rfl⟩
  · cases target <;> exact ⟨rfl, rfl⟩

/-- A move and the update after it leave the entry in the queue it was moved to. -/
theorem move_tryUpdate_keeps (hs : s.WF) (hentry : s.entries id = some m)
    (hmove : s.move id m.queueType target = some s') (henv : msg.envelope = m.envelope)
    (hqueue : msg.queueType = target) :
    Keeps s id m (· = target) ((tryUpdate ok s' msg).getD s') := by
  have hmoved := move_rewrites hs hentry hmove
  have hhere : s'.entries id = some { m with queueType := target } := by
    rw [hmoved.entries, Function.update_self]
  obtain ⟨m', hrw, henv', hqueue'⟩ := tryUpdate_keeps ok hmoved.wf hhere msg henv
  refine ⟨m', hmoved.trans hrw, henv', ?_⟩
  rcases hqueue' with hq | hq
  · exact hq
  · rw [hq, hqueue]

theorem moveMessage_keeps (cfg : ManagerConfig) (jitter : Int) (hs : s.WF)
    (hentry : s.entries id = some m) (target : QueueType) (reason : Bytes) :
    Keeps s id m (fun q => q = m.queueType ∨ q = target)
      (moveMessage cfg ok now jitter s id target reason) := by
  unfold moveMessage
  split
  · exact ⟨m, Rewrites.refl hs hentry, rfl, .inl rfl⟩
  rename_i msg hmsg
  obtain rfl := eq_of_getMessage hentry hmsg
  split
  · exact ⟨m, Rewrites.refl hs hentry, rfl, .inl rfl⟩
  rename_i moved hmoved
  have hmove : s.move id m.queueType target = some moved := by
    split at hmoved
    · exact hmoved
    · simp at hmoved
  obtain ⟨henv, hqueue⟩ := movedMessage_envelope now m cfg jitter target reason
  obtain ⟨m', hrw, henv', hqueue'⟩ := move_tryUpdate_keeps ok hs hentry hmove henv hqueue
  exact ⟨m', hrw, henv', .inr hqueue'⟩

theorem moveMessage_moves {ok : Call → Bool} (hok : ∀ c, ok c = true) (cfg : ManagerConfig)
    (jitter : Int) (hs : s.WF) (hentry : s.entries id = some m) (target : QueueType)
    (reason : Bytes) :
    Keeps s id m (· = target) (moveMessage cfg ok now jitter s id target reason) := by
  obtain ⟨moved, hmove⟩ : ∃ moved, s.move id m.queueType target = some moved := by
    simp [Store.move, hentry]
  obtain ⟨henv, hqueue⟩ := movedMessage_envelope now m cfg jitter target reason
  have hget : getMessage ok s id = some m := by
    simp [getMessage, hok, Store.retrieve, hentry]
  simp only [moveMessage, hget, hok, if_true, hmove]
  exact move_tryUpdate_keeps ok hs hentry hmove henv hqueue

theorem requeueMessage_keeps (stamp : Bytes) (hs : s.WF) (hentry : s.entries id = some m)
    (reason : Bytes) :
    Keeps s id m (fun q => q = m.queueType ∨ q = .active)
      (requeueMessage ok now stamp s id reason) := by
  fun_cases requeueMessage ok now stamp s id reason with
  | case1 | case2 => exact ⟨m, Rewrites.refl hs hentry, rfl, .inl rfl⟩
  | case3 msg hmsg moved hmoved =>
    obtain rfl := eq_of_getMessage hentry hmsg
    have henv : (requeuedMessage now stamp m reason).envelope = m.envelope := rfl
    split at hmoved
    · -- an active message is not moved, only rewritten
      cases hmoved
      exact tryUpdate_keeps ok hs hentry _ henv
    split at hmoved
    · obtain ⟨m', hrw, henv', hqueue'⟩ :=
        move_tryUpdate_keeps ok hs hentry hmoved henv rfl
      exact ⟨m', hrw, henv', .inr hqueue'⟩
    · simp at hmoved

/-- A consume leaves a tombstone that remembers the enqueue. -/
theorem consume_rewrites {retain : Bool} {content : Bytes} (hs : s.WF)
    (hentry : s.entries id = some m) (hcontent : s.contents id = some content)
    (hdelete : s.deleteMessageWithTombstone retain m content now = some s') :
    Rewrites s id none s' := by
  have hid := hs.id_eq hentry
  have hbury := Store.deleteMessageWithTombstone_cases hdelete
  rw [hid] at hbury
  refine ⟨hbury ▸ hs.bury id _, by rw [hbury]; rfl, ?_, ?_, by simp, ?_⟩
  · intro other hne
    simp [hbury, Store.bury, Store.dropEntry, hne]
  · intro other hne
    simp [hbury, Store.bury, hne]
  · intro _ msg body hmsg hremembered
    exact hremembered.consume hs (hid.trans hmsg.symm) (by rw [hid]; exact hentry)
      (by rw [hid]; exact hcontent) hdelete

theorem deleteMessage_cases (cfg : ManagerConfig) (hs : s.WF) (hentry : s.entries id = some m) :
    Rewrites s id (some m) (deleteMessage cfg ok now s id) ∨
      Rewrites s id none (deleteMessage cfg ok now s id) := by
  unfold deleteMessage
  split
  · rename_i msg content hmsg hcontent
    split
    · cases hdel : s.deleteMessageWithTombstone cfg.retainTombstoneBody msg content now with
      | none => exact .inl (Rewrites.refl hs hentry)
      | some buried =>
        obtain rfl := eq_of_getMessage hentry hmsg
        have hbody : s.contents id = some content := by
          unfold getMessageContent at hcontent
          split at hcontent
          · exact hcontent
          · simp at hcontent
        exact .inr (consume_rewrites now hs hentry hbody hdel)
    · exact .inl (Rewrites.refl hs hentry)
  · exact .inl (Rewrites.refl hs hentry)

/-- With storage that works a deletion removes the entry, provided that its id survives JSON:
the tombstone is compared with the entry after it was written. -/
theorem deleteMessage_removes {ok : Call → Bool} (hok : ∀ c, ok c = true) (cfg : ManagerConfig)
    (hs : s.WF) (hentry : s.entries id = some m) (hvalid : Utf8.valid id = true) :
    Rewrites s id none (deleteMessage cfg ok now s id) := by
  obtain ⟨content, hcontent⟩ := hs.has_content hentry
  have hid := hs.id_eq hentry
  have hrec : m.persisted = m := by
    have hsame := hs.recorded_eq hentry
    have hkeep : Utf8.toValid m.id = m.id := by
      rw [hid]
      exact Utf8.toValid_eq_self_iff.2 hvalid
    calc
      m.persisted = { m.persisted with id := Utf8.toValid m.id } := rfl
      _ = Store.recorded m := by rw [hkeep]; rfl
      _ = m := hsame
  have hget : getMessage ok s id = some m := by
    simp [getMessage, hok, Store.retrieve, hentry]
  have hgetContent : getMessageContent ok s id = some content := by
    simp [getMessageContent, hok, Store.retrieveContent, hcontent]
  have hsame : sameEnqueueMessage m m = true := by simp [sameEnqueueMessage]
  have hbody : sameTombstoneContent
      (Store.newTombstone cfg.retainTombstoneBody m content now) content = true := by
    simp [sameTombstoneContent, Store.newTombstone, Store.tombstoneDigest_ne_nil]
  have hdel : s.deleteMessageWithTombstone cfg.retainTombstoneBody m content now =
      some (s.bury id (Store.newTombstone cfg.retainTombstoneBody m content now)) := by
    have hmessage : (Store.newTombstone cfg.retainTombstoneBody m content now).message = m := hrec
    simp only [Store.deleteMessageWithTombstone, hid, hs.no_tombstone hentry, Option.getD_none,
      hmessage, hsame, hbody, hentry, hcontent, hrec, beq_self_eq_true, Bool.and_self, if_true]
  simp only [deleteMessage, hget, hgetContent, hok, if_true, hdel, Option.getD_some]
  exact consume_rewrites now hs hentry hcontent hdel

end

end Manager

theorem flushQueue_entries (s : Store) (ids : List Bytes) (id : Bytes) :
    (Manager.flushQueue s ids).entries id = if id ∈ ids then none else s.entries id := by
  induction ids generalizing s with
  | nil => rfl
  | cons first rest ih =>
    have hunfold : Manager.flushQueue s (first :: rest) =
        Manager.flushQueue (s.discard first) rest := rfl
    rw [hunfold, ih]
    by_cases hrest : id ∈ rest
    · simp [hrest]
    · by_cases hfirst : id = first
      · simp [hfirst, Store.discard, Store.dropEntry]
      · simp [hrest, hfirst, Store.discard, Store.dropEntry]

theorem flushQueue_wf {s : Store} (hs : s.WF) (ids : List Bytes) :
    (Manager.flushQueue s ids).WF := by
  induction ids generalizing s with
  | nil => exact hs
  | cons first rest ih => exact ih (hs.dropEntry first)

end Elemta.Queue

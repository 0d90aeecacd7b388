import Elemta.Queue.Refinement

/-!
# Steps of the queue

One inversion lemma for the machine: whatever the input, the queue accepts a new
message, rewrites one record, makes an attempt, or lets entries go. The
invariants over runs go through these cases.
-/

namespace Elemta.Queue

open Bytes Bounce

/-- The operator's inputs that can bring a failed message back. -/
def Input.Lifts (id : Bytes) : Input → Prop
  | .hold id' _ _ _ => id' = id
  | .requeue id' _ _ _ _ => id' = id
  | _ => False

def Input.Removes : Input → Prop
  | .cleanup _ => True
  | .delete _ _ _ => True
  | .flush _ => True
  | _ => False

structure Message.Fresh (m : Message) : Prop where
  active : m.queueType = .active
  unreduced : m.occurrenceIds = []
  absent : m.handoff = .absent

variable {m : Message} {cfg : Config}

theorem Message.Fresh.recorded_absent (h : m.Fresh) : (Store.recorded m).handoff = .absent :=
  Queue.recorded_absent h.absent

theorem Message.Fresh.recorded_live (h : m.Fresh) : (Store.recorded m).queueType.live = true := by
  show m.queueType.live = true
  rw [h.active]
  rfl

theorem Request.message_fresh (req : Request) (now : Time) : (req.message now).Fresh :=
  ⟨rfl, rfl, rfl⟩

inductive Effect (cfg : Config) (w : World) : Input → World → Prop where
  | idle {i : Input} : Effect cfg w i w
  | enqueued {i : Input} {msg : Message} {w' : World} (fresh : msg.Fresh)
      (enqueued : Enqueued w msg w') : Effect cfg w i w'
  | rewritten {i : Input} {id : Bytes} {m m' : Message} {w' : World}
      (entry : w.store.entries id = some m) (edit : Edits w id (some m') w')
      (envelope : m'.envelope = m.envelope)
      (queue : m'.queueType = m.queueType ∨
        (m'.queueType.live = true ∧ (m.queueType = .failed → i.Lifts id))) :
      Effect cfg w i w'
  | attempted {id : Bytes} {env : Env} {m : Message} {w' : World}
      (entry : w.store.entries id = some m) (active : m.queueType = .active)
      (attempted : Attempted cfg env id w w') : Effect cfg w (.attempt id env) w'
  /-- Entries go, each by an operator's removal or by age. -/
  | shrunk {i : Input} {facts : List Fact} {w' : World} (input : i.Removes) (wf : w'.store.WF)
      (serial : w'.serial = w.serial) (next : w'.next = w.next)
      (ledger : w'.ledger = w.ledger ++ facts) (removals : ∀ f ∈ facts, ∃ k, f = .removed k)
      (entries : ∀ id, w'.store.entries id = w.store.entries id ∨ w'.store.entries id = none)
      (gone : ∀ id m, w.store.entries id = some m → w'.store.entries id = none →
        .removed (w.serial id) ∈ facts ∨
          ∃ now, i = .cleanup now ∧ olderThan cleanupAgeHours now m.createdAt = true) :
      Effect cfg w i w'

/-- A failed entry stays one unless an operator lifts it. -/
theorem live_of_queue {m' : Message} {i : Input} {id : Bytes}
    (queue : m'.queueType = m.queueType ∨
      (m'.queueType.live = true ∧ (m.queueType = .failed → i.Lifts id)))
    (hfailed : i.Lifts id → m.queueType ≠ .failed) (hlive : m'.queueType.live = true) :
    m.queueType.live = true := by
  rcases queue with hsame | ⟨-, hlifts⟩
  · rw [← hsame]
    exact hlive
  · cases hqueue : m.queueType with
    | failed => exact absurd hqueue (hfailed (hlifts hqueue))
    | _ => rfl

theorem entry_of_shrunk {w w' : World} {id : Bytes}
    (entries : ∀ id, w'.store.entries id = w.store.entries id ∨ w'.store.entries id = none)
    (h : w'.store.entries id = some m) : w.store.entries id = some m := by
  rcases entries id with hsame | hnone
  · rw [← hsame, h]
  · rw [hnone] at h
    cases h

theorem Effect.sound {w w' : World} {i : Input} (h : Effect cfg w i w') (hw : w.Sound) :
    w'.Sound := by
  cases h with
  | idle => exact hw
  | enqueued fresh enqueued => exact enqueued.sound hw
  | rewritten entry edit envelope queue => exact edit.sound hw entry
  | attempted entry active attempted =>
    exact attempted.rule World.Sound hw (fun hstep _ => hstep.sound) (fun hlast => hlast)
      fun giveUp _ => giveUp.sound
  | shrunk input wf serial next ledger removals entries gone =>
    refine ⟨wf, ?_, ?_⟩
    · intro id m hm
      rw [serial, next]
      exact hw.serial_lt (entry_of_shrunk entries hm)
    · intro id m id' m' hm hm' hser
      rw [serial] at hser
      exact hw.serial_inj (entry_of_shrunk entries hm) (entry_of_shrunk entries hm') hser

theorem Effect.ledger_subset {w w' : World} {i : Input} (h : Effect cfg w i w') :
    w.ledger ⊆ w'.ledger := by
  cases h with
  | idle => exact List.Subset.refl _
  | enqueued fresh enqueued => exact enqueued.ledger_subset
  | rewritten entry edit envelope queue => exact edit.ledger_subset
  | attempted entry active attempted => exact attempted.ledger_subset
  | shrunk input wf serial next ledger removals entries gone =>
    rw [ledger]
    exact List.subset_append_left _ _

section

variable {cfg : Config} {w : World} {i : Input} {id : Bytes}

theorem Effect.of_rewrites {s : Store} (id : Bytes)
    (habsent : w.store.entries id = none → s = w.store)
    (hpresent : ∀ m, w.store.entries id = some m →
      Manager.Keeps w.store id m (fun q => q = m.queueType ∨
        (q.live = true ∧ (m.queueType = .failed → i.Lifts id))) s) :
    Effect cfg w i { w with store := s } := by
  cases hentry : w.store.entries id with
  | none =>
    rw [habsent hentry]
    exact .idle
  | some m =>
    obtain ⟨m', hrw, henv, hqueue⟩ := hpresent m hentry
    exact .rewritten hentry ⟨hrw, rfl, rfl, rfl⟩ henv hqueue

theorem annotate_effect (hw : w.Sound) (key value : Bytes) (ok : Call → Bool) (now : Time) :
    Effect cfg w i { w with store := Manager.setAnnotationAt ok now w.store id key value } := by
  refine .of_rewrites id ?_ ?_
  · intro hentry
    simp [Manager.setAnnotationAt, Manager.getMessage_of_absent ok hentry]
  · intro m hentry
    obtain ⟨m', hrw, henv, hqueue⟩ :=
      Manager.setAnnotationAt_keeps ok now hw.wf hentry key value
    exact ⟨m', hrw, henv, .inl hqueue⟩

theorem move_effect (hw : w.Sound) (ok : Call → Bool) (now : Time) {target : QueueType}
    (hlive : target.live = true) (reason : Bytes)
    (hlifts : ∀ m, w.store.entries id = some m → m.queueType = .failed → i.Lifts id) :
    Effect cfg w i
      { w with store := Manager.moveMessage cfg.manager ok now 0 w.store id target reason } := by
  refine .of_rewrites id ?_ ?_
  · intro hentry
    simp [Manager.moveMessage, Manager.getMessage_of_absent ok hentry]
  · intro m hentry
    obtain ⟨m', hrw, henv, hqueue⟩ :=
      Manager.moveMessage_keeps ok now cfg.manager 0 hw.wf hentry target reason
    refine ⟨m', hrw, henv, ?_⟩
    rcases hqueue with hsame | htarget
    · exact .inl hsame
    · exact .inr ⟨htarget ▸ hlive, hlifts m hentry⟩

theorem requeue_effect (hw : w.Sound) (reason stamp : Bytes) (ok : Call → Bool) (now : Time) :
    Effect cfg w (.requeue id reason stamp ok now)
      { w with store := Manager.requeueMessage ok now stamp w.store id reason } := by
  refine .of_rewrites id ?_ ?_
  · intro hentry
    simp [Manager.requeueMessage, Manager.getMessage_of_absent ok hentry]
  · intro m hentry
    obtain ⟨m', hrw, henv, hqueue⟩ :=
      Manager.requeueMessage_keeps ok now stamp hw.wf hentry reason
    refine ⟨m', hrw, henv, ?_⟩
    rcases hqueue with hsame | hactive
    · exact .inl hsame
    · exact .inr ⟨by rw [hactive]; rfl, fun _ => rfl⟩

theorem removal_effect {store : Store} {ids : List Bytes} (hinput : i.Removes) (hwf : store.WF)
    (hentries : ∀ id, store.entries id = w.store.entries id ∨ store.entries id = none)
    (hlisted : ∀ id, id ∉ ids → store.entries id = w.store.entries id) :
    Effect cfg w i { w.record (removalFacts w store ids) with store := store } := by
  refine .shrunk hinput hwf rfl rfl rfl ?_ hentries ?_
  · intro f hf
    obtain ⟨id, -, rfl⟩ := List.mem_map.1 hf
    exact ⟨_, rfl⟩
  · intro id m hentry hnone
    left
    have hlist : id ∈ ids := by
      by_contra hnot
      rw [hlisted id hnot, hentry] at hnone
      cases hnone
    have hnone' : store.entries id = none := hnone
    refine List.mem_map.2 ⟨id, List.mem_filter.2 ⟨hlist, ?_⟩, rfl⟩
    simp [hentry, hnone']

end

section

variable (cfg : Config) {w : World} (hw : w.Sound)

include hw

theorem enqueue_effect (id mailFrom : Bytes) (rcptTo : List Bytes)
    (subject content : Bytes) (priority : Priority) (receivedAt now : Time) :
    Effect cfg w (.enqueue id mailFrom rcptTo subject content priority receivedAt now)
      (step cfg w (.enqueue id mailFrom rcptTo subject content priority receivedAt now)) := by
  unfold step
  simp only
  split
  · exact .idle
  cases henqueue : w.enqueue (newEnqueueMessage id mailFrom rcptTo subject content.length
    priority receivedAt now) content with
  | none => exact .idle
  | some w' => exact .enqueued ⟨rfl, rfl, rfl⟩ (World.enqueue_cases hw.wf henqueue)

omit hw in
theorem claim_eq_some {id : Bytes} {msg : Message} (h : claim w id = some msg) :
    w.store.entries id = some msg ∧ msg.queueType = .active := by
  revert h
  fun_cases claim w id with
  | case1 m hm hactive =>
    rintro ⟨⟩
    exact ⟨hm, hactive⟩
  | _ => nofun

theorem attempt_effect (id : Bytes) (env : Env) :
    Effect cfg w (.attempt id env) (step cfg w (.attempt id env)) := by
  unfold step
  simp only
  cases hclaim : claim w id with
  | none => exact .idle
  | some msg =>
    obtain ⟨hentry, hactive⟩ := claim_eq_some hclaim
    have hid : msg.id = id := hw.wf.id_eq hentry
    have hpath : Attempted cfg env msg.id w (processMessage cfg env w msg) :=
      processMessage_attempted ⟨hw, by rw [hid]; exact hentry, by rw [hactive]; rfl⟩
    rw [hid] at hpath
    exact .attempted hentry hactive hpath

theorem retryDue_effect (id : Bytes) (ok : Call → Bool) (now : Time) :
    Effect cfg w (.retryDue id ok now) (step cfg w (.retryDue id ok now)) := by
  unfold step
  simp only
  split
  · rename_i hdue
    refine move_effect hw ok now rfl _ ?_
    -- only deferred messages are looked at
    intro m hentry hfailed
    rw [Store.retrieve, hentry] at hdue
    simp [retryIsDue, hfailed] at hdue
  · exact .idle

theorem cleanup_effect (now : Time) : Effect cfg w (.cleanup now) (step cfg w (.cleanup now)) := by
  refine .shrunk trivial (hw.wf.cleanup now cleanupAgeHours) rfl rfl (List.append_nil _).symm (by simp)
    (Store.cleanup_entries_eq_or w.store now cleanupAgeHours) ?_
  intro id m hentry hgone
  exact .inr ⟨now, rfl, Store.olderThan_of_cleanup hentry hgone⟩

theorem delete_effect (id : Bytes) (ok : Call → Bool) (now : Time) :
    Effect cfg w (.delete id ok now) (step cfg w (.delete id ok now)) := by
  cases hentry : w.store.entries id with
  | none =>
    have hsame : Manager.deleteMessage cfg.manager ok now w.store id = w.store := by
      simp [Manager.deleteMessage, Manager.getMessage_of_absent ok hentry]
    refine removal_effect trivial (by rw [hsame]; exact hw.wf) ?_ ?_
    · intro other
      exact .inl (by rw [hsame])
    · intro other _
      rw [hsame]
  | some m =>
    rcases Manager.deleteMessage_cases ok now cfg.manager hw.wf hentry with hrw | hrw
    · refine removal_effect trivial hrw.wf ?_ ?_
      · intro other
        exact .inl (by rw [hrw.entries, ← hentry, Function.update_eq_self])
      · intro other _
        rw [hrw.entries, ← hentry, Function.update_eq_self]
    · refine removal_effect trivial hrw.wf ?_ ?_
      · intro other
        by_cases hother : other = id
        · exact .inr (by rw [hrw.entries, hother, Function.update_self])
        · exact .inl (by rw [hrw.entries, Function.update_of_ne hother])
      · intro other hnot
        rw [hrw.entries, Function.update_of_ne (by simpa using hnot)]

theorem flush_effect (listed : List Bytes) :
    Effect cfg w (.flush listed) (step cfg w (.flush listed)) := by
  refine removal_effect trivial (flushQueue_wf hw.wf listed) ?_ ?_
  · intro id
    rw [flushQueue_entries]
    split
    · exact .inr rfl
    · exact .inl rfl
  · intro id hnot
    rw [flushQueue_entries, if_neg hnot]

theorem step_effect (i : Input) : Effect cfg w i (step cfg w i) := by
  cases i with
  | enqueue id mailFrom rcptTo subject content priority receivedAt now =>
    exact enqueue_effect cfg hw id mailFrom rcptTo subject content priority receivedAt now
  | annotate id key value ok now => exact annotate_effect hw key value ok now
  | attempt id env => exact attempt_effect cfg hw id env
  | retryDue id ok now => exact retryDue_effect cfg hw id ok now
  | cleanup now => exact cleanup_effect cfg hw now
  | hold id reason ok now => exact move_effect hw ok now rfl _ fun _ _ _ => rfl
  | requeue id reason stamp ok now => exact requeue_effect hw reason stamp ok now
  | delete id ok now => exact delete_effect cfg hw id ok now
  | flush listed => exact flush_effect cfg hw listed

end

theorem run_sound (cfg : Config) (inputs : List Input) :
    (Machine.run (step cfg) World.initial inputs).Sound := by
  refine Machine.run_invariant World.Sound ?_ World.Sound.initial inputs
  intro w i hw
  exact (step_effect cfg hw i).sound hw

/-! ## Distinct occurrences -/

def Distinct (w : World) : Prop :=
  ∀ id m, w.store.entries id = some m → m.tracked.Nodup

theorem nodup_retryable (h : m.tracked.Nodup) : m.retryable.Nodup := by
  cases hhandoff : m.handoff with
  | recorded handoff =>
    rw [tracked_of_recorded hhandoff] at h
    rw [retryable_of_recorded hhandoff]
    exact (List.nodup_append.1 h).2.1
  | absent =>
    rw [retryable_of_absent hhandoff, ← tracked_of_absent hhandoff]
    exact h
  | malformed => simpa [Message.tracked, Message.retryable, hhandoff] using h

section

variable {cfg : Config} {env : Env} {w w' : World} {id : Bytes}

theorem Distinct.edits {e : Option Message} (h : Distinct w) (hedit : Edits w id e w')
    (hnew : ∀ m, e = some m → m.tracked.Nodup) : Distinct w' := by
  intro id' m hentry
  by_cases hid : id' = id
  · subst hid
    exact hnew m (hedit.entry.symm.trans hentry)
  · exact h id' m ((hedit.other hid).symm.trans hentry)

variable {msg : Message}

theorem Distinct.enqueued (h : Distinct w) (hfresh : msg.Fresh) (henq : Enqueued w msg w') :
    Distinct w' := by
  intro id' m hentry
  rcases henq.entry_cases hentry with ⟨hold, -⟩ | ⟨-, rfl, -⟩
  · exact h id' m hold
  · rw [tracked_of_absent hfresh.recorded_absent, occurrences_recorded]
    exact nodup_occurrences_of_nil hfresh.unreduced

theorem Distinct.bounced {site : Site} {rs : List DsnRecipient} {reason : Bytes}
    {handoffID : Option Bytes} {result : BounceResult} (h : Distinct w)
    (hb : Bounced cfg env site w msg rs reason handoffID result w') : Distinct w' := by
  cases hb with
  | skipped original none_due => exact h
  | failed => exact h
  | generated original req bounced due enqueued =>
    have hnoted : Distinct (w.record (failureFacts cfg.engine.host (w.serial msg.id) msg rs)) := h
    have hqueued : Distinct bounced := hnoted.enqueued (Request.message_fresh req _) enqueued
    exact hqueued

theorem Transition.distinct (h : Transition cfg env id w w') (hdistinct : Distinct w) :
    Distinct w' := by
  cases h with
  | keep held edit live envelope =>
    refine hdistinct.edits edit ?_
    rintro _ ⟨⟩
    rw [tracked_congr envelope]
    exact hdistinct id _ held.entry
  | note held outcome => exact hdistinct
  | intent held absent edit live handoff pending partition answered =>
    refine hdistinct.edits edit ?_
    rintro _ ⟨⟩
    have hold := hdistinct id _ held.entry
    rw [tracked_of_absent absent, ← partition.nodup_iff] at hold
    rw [tracked_of_recorded handoff]
    exact (List.nodup_append.1 hold).1
  | bounce held handoff stable ours failed bounced => exact hdistinct.bounced bounced
  | complete held handoff edit live handoff' same permanent temporary answered =>
    refine hdistinct.edits edit ?_
    rintro _ ⟨⟩
    have hold := hdistinct id _ held.entry
    rw [tracked_of_recorded handoff] at hold
    rw [tracked_of_recorded handoff', permanent, temporary]
    exact hold
  | reduce held edit live absent kept answered =>
    refine hdistinct.edits edit ?_
    rintro _ ⟨⟩
    obtain ⟨l, hperm, hsub⟩ := kept
    rw [tracked_of_absent absent]
    exact hperm.nodup_iff.1 ((nodup_retryable (hdistinct id _ held.entry)).sublist hsub)
  | consume held edit answered =>
    exact hdistinct.edits edit nofun

theorem Attempted.distinct (h : Attempted cfg env id w w') (hdistinct : Distinct w) :
    Distinct w' := by
  refine h.rule Distinct hdistinct (fun hstep ih => hstep.distinct ih) (fun hlast => hlast) ?_
  rintro a ⟨held, -, -, -, bounced, -, -, edit, left, -⟩ ih
  refine (ih.bounced bounced).edits edit ?_
  intro m' hm'
  rw [tracked_congr (left m' hm').1]
  exact ih id _ held.entry

end

/-- In every state of every run, whatever fails, the entries name distinct occurrences. -/
theorem run_distinct (cfg : Config) (inputs : List Input) :
    Distinct (Machine.run (step cfg) World.initial inputs) := by
  have hinit : Distinct World.initial := by
    intro id m h
    simp [World.initial, Store.empty] at h
  refine (Machine.run_invariant (fun w => w.Sound ∧ Distinct w) ?_
    ⟨World.Sound.initial, hinit⟩ inputs).2
  rintro w i ⟨hw, hdistinct⟩
  have heffect := step_effect cfg hw i
  refine ⟨heffect.sound hw, ?_⟩
  generalize step cfg w i = w' at heffect ⊢
  cases heffect with
  | idle => exact hdistinct
  | enqueued fresh enqueued => exact hdistinct.enqueued fresh enqueued
  | rewritten entry edit envelope queue =>
    refine hdistinct.edits edit ?_
    rintro _ ⟨⟩
    rw [tracked_congr envelope]
    exact hdistinct _ _ entry
  | attempted entry active attempted => exact attempted.distinct hdistinct
  | shrunk input wf serial next ledger removals entries gone =>
    exact fun id m hentry => hdistinct id m (entry_of_shrunk entries hentry)

end Elemta.Queue

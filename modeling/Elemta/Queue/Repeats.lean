import Elemta.Queue.FileStore
import Elemta.Queue.TemporaryFailures

/-!
# Repeated enqueues

A client that does not learn that its enqueue went through repeats the call. The
store recognizes it by the identity fields of the entry, or of the tombstone that
the entry left, as long as nothing has changed those fields. A partial delivery
does: it shortens the recipient list, which is one of them.
-/

namespace Elemta.Queue

open Bytes Bounce

/-! ## The call -/

/-- `EnqueueMessageWithID` at the time `now`; `none` when it returns an error. -/
def World.enqueueMessageWithID (w : World) (call : EnqueueCall) (now : Time) : Option World :=
  if trimSpace call.id = [] then none else w.enqueue (call.message now) call.content

def EnqueueCall.input (call : EnqueueCall) (now : Time) : Input :=
  .enqueue call.id call.mailFrom call.rcptTo call.subject call.content call.priority
    call.receivedAt now

theorem step_enqueue (cfg : Config) (w : World) (call : EnqueueCall) (now : Time) :
    step cfg w (call.input now) = (w.enqueueMessageWithID call now).getD w := by
  simp only [EnqueueCall.input, step, World.enqueueMessageWithID, EnqueueCall.message]
  split
  · rfl
  · rfl

variable {s : Store} {call : Message} {content : Bytes}

theorem Store.Remembered.message {call : EnqueueCall} {now : Time}
    (h : s.Remembered (call.message now) call.content) (again : Time) :
    s.Remembered (call.message again) call.content := by
  cases h with
  | live e entry same body => exact .live e entry same body
  | consumed t tombstone same body => exact .consumed t tombstone same body

/-! ## Edits that keep what is remembered -/

section

variable {cfg : Config} {env : Env} {w w' : World} {id content : Bytes}
  {m m' msg call : Message}

theorem sameEnqueueMessage_of_envelope (h : m'.envelope = m.envelope) (msg : Message) :
    sameEnqueueMessage m'.persisted msg = sameEnqueueMessage m.persisted msg := by
  obtain ⟨hid, hfrom, hto, hdomain, hsubject, hsize, hpriority, hreceived, -⟩ := Envelope.mk.inj h
  simp [sameEnqueueMessage, Message.persisted, hid, hfrom, hto, hdomain, hsubject, hsize,
    hpriority, hreceived]

@[simp] theorem persisted_recorded : (Store.recorded m).persisted = m.persisted := by
  simp [Store.recorded, Message.persisted, Function.comp_def]

theorem Store.Remembered.same (hs : s.WF) (h : s.Remembered call content)
    (hentry : s.entries call.id = some m) : sameEnqueueMessage m.persisted call = true := by
  cases h with
  | live e entry same body =>
    obtain rfl := Option.some.inj (hentry.symm.trans entry)
    exact same
  | consumed t tombstone same body =>
    rw [hs.no_tombstone hentry] at tombstone
    cases tombstone

theorem Edits.remembered {e : Option Message} (hedit : Edits w id e w') (hw : w.Sound)
    (hentry : w.store.entries id = some m)
    (hsame : call.id = id → ∀ m', e = some m' → sameEnqueueMessage m'.persisted call = true)
    (h : w.store.Remembered call content) : w'.store.Remembered call content :=
  hedit.store.remembered hw.wf (by simp [hentry]) hsame h

/-- Bookkeeping does not touch the identity. -/
theorem Edits.remembered_of_envelope (hedit : Edits w id (some m') w') (hw : w.Sound)
    (hentry : w.store.entries id = some m) (henv : m'.envelope = m.envelope)
    (h : w.store.Remembered call content) : w'.store.Remembered call content := by
  refine hedit.remembered hw hentry ?_ h
  intro hid m'' hm''
  cases hm''
  rw [sameEnqueueMessage_of_envelope henv]
  exact h.same hw.wf (by rw [hid]; exact hentry)

theorem Edits.remembered_of_removal (hedit : Edits w id none w') (hw : w.Sound)
    (hentry : w.store.entries id = some m) (h : w.store.Remembered call content) :
    w'.store.Remembered call content :=
  hedit.remembered hw hentry (by simp) h

end

/-! ## Attempts on other messages -/

section

variable {cfg : Config} {env : Env} {w w' : World} {id content : Bytes} {call : Message}

theorem Transition.remembered (hstep : Transition cfg env id w w') (hne : call.id ≠ id)
    (h : w.store.Remembered call content) : w'.store.Remembered call content := by
  have hedits : ∀ {m : Message} {e : Option Message}, Held w id m → Edits w id e w' →
      w'.store.Remembered call content := by
    intro m e hheld hedit
    exact hedit.remembered hheld.sound hheld.entry (fun hid => absurd hid hne) h
  cases hstep with
  | keep held edit => exact hedits held edit
  | note held outcome => exact h
  | intent held absent edit => exact hedits held edit
  | bounce held handoff stable ours failed bounced => exact bounced.remembered h
  | complete held handoff edit => exact hedits held edit
  | reduce held edit => exact hedits held edit
  | consume held edit => exact hedits held edit

theorem Attempted.remembered (hattempt : Attempted cfg env id w w') (hne : call.id ≠ id)
    (h : w.store.Remembered call content) : w'.store.Remembered call content := by
  refine hattempt.rule (·.store.Remembered call content) h
    (fun hstep ih => hstep.remembered hne ih) (fun hlast => hlast) ?_
  rintro a ⟨held, -, -, -, bounced, -, -, edit, -, -⟩ ih
  exact edit.remembered (bounced.sound held.sound) (bounced.entry held.entry).1
    (fun hid => absurd hid hne) (bounced.remembered ih)

end

/-! ## Attempts on the message itself -/

section

variable {cfg : Config} {env : Env} {w w' : World} {content : Bytes} {m msg call : Message}

structure Recalled (w : World) (id : Bytes) (call : Message) (content : Bytes) :
    Prop where
  held : ∃ m, Held w id m
  remembered : w.store.Remembered call content

section

variable {id : Bytes} (h : Recalled w id call content)

include h

theorem Kept.recalled {m' : Message} (hheld : Held w id m) (hkept : Kept cfg env id w m w' m') :
    Recalled w' id call content :=
  ⟨⟨m', hkept.held⟩,
    hkept.edit.remembered_of_envelope hheld.sound hheld.entry hkept.envelope h.remembered⟩

theorem Bounced.recalled {site : Site} {rs : List DsnRecipient} {reason : Bytes}
    {handoffID : Option Bytes} {result : BounceResult}
    (hbounce : Bounced cfg env site w msg rs reason handoffID result w') :
    Recalled w' id call content :=
  ⟨h.held.imp fun _ hheld => hheld.bounced hbounce, hbounce.remembered h.remembered⟩

theorem deleteMessage_remembered (site : Site) :
    (deleteMessage cfg env site w id).store.Remembered call content := by
  obtain ⟨m, hheld⟩ := h.held
  rcases deleteMessage_edits site hheld.sound hheld.entry with hedit | hedit
  · exact hedit.remembered_of_envelope hheld.sound hheld.entry rfl h.remembered
  · exact hedit.remembered_of_removal hheld.sound hheld.entry h.remembered

theorem moveMessage_remembered (site : Site) (target : QueueType) (reason : Bytes) :
    (moveMessage cfg env site w id target reason).store.Remembered call content := by
  obtain ⟨m, hheld⟩ := h.held
  obtain ⟨m', hedit, henv, -⟩ := moveMessage_edits site hheld.sound hheld.entry target reason
  exact hedit.remembered_of_envelope hheld.sound hheld.entry henv h.remembered

end

theorem updateMessage_recalled {site : Site} (hupdate : updateMessage env site w msg = some w')
    (h : Recalled w msg.id call content) (hlive : msg.queueType.live = true)
    (hsame : sameEnqueueMessage msg.persisted call = true) : Recalled w' msg.id call content := by
  obtain ⟨m, hheld⟩ := h.held
  have hedit := updateMessage_edits hheld.sound hupdate
  refine ⟨⟨_, hheld.edits hedit hlive⟩, hedit.remembered hheld.sound hheld.entry ?_ h.remembered⟩
  intro _ m' hm'
  cases hm'
  rw [persisted_recorded]
  exact hsame

section

variable (h : Recalled w msg.id call content)

include h

theorem moveToFailed_remembered (reason : Bytes) :
    (moveToFailed cfg env w msg reason).store.Remembered call content := by
  obtain ⟨m, hheld⟩ := h.held
  have hbounced := Bounced.recalled h (generateBounce_cases cfg env .giveUpBounce hheld.sound msg
    (envelopeRecipients msg) reason none)
  unfold moveToFailed
  split
  · exact deleteMessage_remembered hbounced .giveUp
  · exact moveMessage_remembered hbounced .giveUp .failed reason

theorem handleDeliveryFailure_remembered (err : GoError) :
    (handleDeliveryFailure cfg env w msg err).store.Remembered call content := by
  obtain ⟨m, hheld⟩ := h.held
  obtain ⟨m', hkept⟩ := addAttempt_kept cfg env hheld .failedAttempt (lit "failed") err.text
  have hnoted := hkept.recalled h hheld
  unfold handleDeliveryFailure
  split
  · exact moveToFailed_remembered hnoted _
  · split
    · exact moveToFailed_remembered hnoted _
    · exact moveMessage_remembered hnoted .defer .deferred _

theorem observePartial_recalled (delivered : List Bytes) (temporary permanent : Nat) :
    Recalled (observePartial env w msg delivered temporary permanent) msg.id call content := by
  obtain ⟨m, hheld⟩ := h.held
  obtain ⟨m', hedit, henv, hqueue⟩ :=
    observePartial_edits hheld.sound hheld.entry delivered temporary permanent
  exact ⟨⟨m', hheld.edits hedit (hqueue ▸ hheld.live)⟩,
    hedit.remembered_of_envelope hheld.sound hheld.entry henv h.remembered⟩

variable (hlive : msg.queueType.live = true) (hsame : sameEnqueueMessage msg.persisted call = true)

include hlive hsame

/-- The handoff writes its marks into the record and leaves the identity alone. -/
theorem bounceAndComplete_recalled (handoff : DsnHandoff) (reason : Bytes) :
    Recalled (bounceAndComplete cfg env w msg handoff reason).1 msg.id call content := by
  obtain ⟨m, hheld⟩ := h.held
  have hbounced := Bounced.recalled h (generateBounce_cases cfg env .handoff hheld.sound
    (failedPart msg handoff.permanent) handoff.permanent reason (some handoff.id))
  unfold bounceAndComplete
  simp only
  split
  · exact hbounced
  split
  · exact hbounced
  · rename_i hupdate
    have hcompleted := updateMessage_recalled hupdate hbounced hlive hsame
    exact hcompleted

theorem handOff_recalled (handoff : DsnHandoff) (reason : Bytes) :
    Recalled (handOff cfg env w msg handoff reason).1 msg.id call content := by
  unfold handOff
  split
  · exact h
  · rename_i hupdate
    exact bounceAndComplete_recalled (updateMessage_recalled hupdate h hlive hsame) hlive hsame
      handoff reason

end

theorem temporaryR_sublist (annotations : Annotations) (ps : List (Bytes × RecipientOutcome)) :
    (classify annotations ps).temporaryR.Sublist (ps.map fun p => outcomeRecipient p.1 p.2) := by
  rw [(classify_groups annotations ps).2.1]
  exact List.filter_sublist.map _

/-- When everybody is to be tried again, the recipients are the ones of the envelope. -/
theorem address_temporaryR {outcomes : List RecipientOutcome}
    (hto : outcomes.map RecipientOutcome.recipient = msg.rcptTo)
    (hall : names (dispositions msg outcomes).temporaryR = msg.occurrences) :
    (dispositions msg outcomes).temporaryR.map DsnRecipient.address = msg.rcptTo := by
  unfold dispositions at hall ⊢
  have hlen : (recipientOccurrences msg).length = outcomes.length := by
    rw [length_recipientOccurrences, ← hto, List.length_map]
  have hcount := congrArg List.length hall
  have heq := (temporaryR_sublist msg.annotations
    ((recipientOccurrences msg).zip outcomes)).eq_of_length (by
      simp only [names, Message.occurrences, List.length_map] at hcount
      simp [hcount, hlen])
  calc
    _ = (((recipientOccurrences msg).zip outcomes).map fun p => outcomeRecipient p.1 p.2).map
        DsnRecipient.address := by rw [heq]
    _ = (((recipientOccurrences msg).zip outcomes).map Prod.snd).map
        RecipientOutcome.recipient := by
      rw [List.map_map, List.map_map]
      rfl
    _ = msg.rcptTo := by rw [List.map_snd_zip hlen.ge, hto]

theorem sameEnqueueMessage_reduced {ts : List DsnRecipient}
    (hto : ts.map DsnRecipient.address = msg.rcptTo)
    (hsame : sameEnqueueMessage msg.persisted call = true) (now : Time) :
    sameEnqueueMessage { reducedMessage msg ts with updatedAt := now }.persisted call = true := by
  simpa [sameEnqueueMessage, Message.persisted, reducedMessage, hto] using hsame

section

variable (hheld : Held w msg.id msg) (hsame : sameEnqueueMessage msg.persisted call = true)
  (hcall : w.store.Remembered call content)

include hheld hsame hcall

theorem handleRecipientOutcomes_remembered {outcomes : List RecipientOutcome}
    {err : Option GoError} (hto : outcomes.map RecipientOutcome.recipient = msg.rcptTo)
    (hwhole : (dispositions msg outcomes).temporaryR = [] ∨
      names (dispositions msg outcomes).temporaryR = msg.occurrences) :
    (handleRecipientOutcomes cfg env w msg outcomes err).store.Remembered call content := by
  have haddress := @address_temporaryR msg outcomes hto
  have hheld' : Held (w.noted cfg msg outcomes) msg.id msg := hheld.record _
  have hstart : Recalled (w.noted cfg msg outcomes) msg.id call content := ⟨⟨msg, hheld'⟩, hcall⟩
  generalize hnoted : w.noted cfg msg outcomes = noted at hheld' hstart
  generalize hd : dispositions msg outcomes = d at hwhole haddress
  refine handleRecipientOutcomes_rule (fun w' => w'.store.Remembered call content)
    (fun mid => Recalled mid msg.id call content) hnoted hd ?_ ?_ ?_ ?_ ?_ ?_
  · intro _ _
    obtain ⟨m', hkept⟩ := addAttempt_kept cfg env hheld' .deliveredAttempt (lit "delivered") []
    exact deleteMessage_remembered (hkept.recalled hstart hheld') .finalize
  · rintro reason answer rfl
    have hmid := @handOff_recalled cfg env _ _ _ _ hstart hheld.live hsame (pendingHandoff msg d)
      reason
    exact ⟨fun _ => hmid.remembered, fun _ => hmid⟩
  · exact fun _ => hstart
  · intro mid hmid _
    exact deleteMessage_remembered (observePartial_recalled hmid _ _ _) .finalize
  · exact fun mid hmid _ => hmid.remembered
  · intro mid reduced hmid hsome hreduced
    -- somebody is to be tried again, so everybody is, and the recipient list stays
    have hlist := haddress (hwhole.resolve_left hsome)
    exact handleDeliveryFailure_remembered (observePartial_recalled (updateMessage_recalled hreduced
      hmid hheld.live (sameEnqueueMessage_reduced hlist hsame _)) _ _ _) _

/-- A handoff with nobody left to try again ends with the message. -/
theorem resumeRecorded_remembered {h : DsnHandoff} (hnobody : h.temporary = []) :
    (resumeRecorded cfg env w msg h).store.Remembered call content := by
  have hmid : Recalled (resumeBounce cfg env w msg h).1 msg.id call content := by
    unfold resumeBounce
    split
    · exact bounceAndComplete_recalled ⟨⟨msg, hheld⟩, hcall⟩ hheld.live hsame h _
    · exact ⟨⟨msg, hheld⟩, hcall⟩
  unfold resumeRecorded
  simp only [hnobody, if_true]
  split
  · exact hmid.remembered
  · exact deleteMessage_remembered (observePartial_recalled hmid _ _ _) .finalize

end

/-- The attempt on the claimed message tries all of its recipients again or none of them. -/
def RetriesWhole (env : Env) (w : World) (msg : Message) : Prop :=
  match msg.handoff with
  | .recorded h => h.temporary = []
  | _ => ∀ content, offered env w msg = some (msg, content) →
      temporaryOccurrences (env.deliver msg content) msg = [] ∨
        temporaryOccurrences (env.deliver msg content) msg = msg.occurrences

theorem processMessage_remembered (hheld : Held w msg.id msg) (hwhole : RetriesWhole env w msg)
    (hsame : sameEnqueueMessage msg.persisted call = true)
    (hcall : w.store.Remembered call content) :
    (processMessage cfg env w msg).store.Remembered call content := by
  have hstart : Recalled w msg.id call content := ⟨⟨msg, hheld⟩, hcall⟩
  unfold processMessage resumeDSNHandoff
  unfold RetriesWhole at hwhole
  cases hhandoff : msg.handoff with
  | malformed => exact moveMessage_remembered hstart .quarantine .hold _
  | recorded h =>
    rw [hhandoff] at hwhole
    dsimp only
    cases hvalid : validateDSNHandoff msg h with
    | some defect => exact moveMessage_remembered hstart .quarantine .hold _
    | none => exact resumeRecorded_remembered hheld hsame hcall hwhole
  | absent =>
    rw [hhandoff] at hwhole
    dsimp only at hwhole ⊢
    split
    · split
      · exact hcall
      · exact moveToFailed_remembered hstart _
    rename_i body hbody
    have hanswer := hwhole body (by simp [offered, hhandoff, hbody])
    refine handleRecipientOutcomes_remembered hheld hsame hcall
      (normalizeDeliveryResult_recipient _ _ _) ?_
    have hnames := names_temporaryR msg.annotations
      (attemptOutcomes (env.deliver msg body) msg)
    rcases hanswer with hnone | hall
    · left
      have hempty : names (classify msg.annotations
          (attemptOutcomes (env.deliver msg body) msg)).temporaryR = [] := hnames.trans hnone
      exact List.map_eq_nil_iff.1 hempty
    · exact .inr (hnames.trans hall)

end

/-! ## Whole runs -/

/-- What a step may do while the call for `id` is to be recognized: no attempt splits the
recipients, the entry and the tombstone are within their ages, and no flush drops the entry. -/
def Repeatable (id : Bytes) (w : World) : Input → Prop
  | .attempt id' env => id' = id → ∀ msg, claim w id = some msg → RetriesWhole env w msg
  | .cleanup now =>
    (∀ m, w.store.entries id = some m → olderThan cleanupAgeHours now m.createdAt = false) ∧
      ∀ t, w.store.tombstones id = some t →
        olderThan tombstoneRetentionHours now t.consumedAt = false
  | .flush listed => id ∉ listed
  | _ => True

theorem cleanup_remembered {now : Time} {hours : Nat}
    (hyoung : ∀ m, s.entries call.id = some m → olderThan hours now m.createdAt = false)
    (hrecent : ∀ t, s.tombstones call.id = some t →
      olderThan tombstoneRetentionHours now t.consumedAt = false) (h : s.Remembered call content) :
    (s.cleanup now hours).Remembered call content := by
  cases h with
  | live e entry same body =>
    have hkeep := hyoung e entry
    refine .live e ?_ same ?_
    · simp [Store.cleanup_entries, entry, hkeep, Option.filter]
    · simp [Store.cleanup, entry, hkeep, body]
  | consumed t tombstone same body =>
    refine .consumed t ?_ same body
    simp [Store.cleanup, tombstone, hrecent t tombstone, Option.filter]

theorem flushQueue_remembered {listed : List Bytes} (hnot : call.id ∉ listed)
    (h : s.Remembered call content) : (Manager.flushQueue s listed).Remembered call content := by
  induction listed generalizing s with
  | nil => exact h
  | cons first rest ih =>
    obtain ⟨hfirst, hrest⟩ := not_or.1 (fun hmem => hnot (List.mem_cons.2 hmem))
    refine ih hrest (h.congr ?_ ?_ ?_)
    · simp [Store.discard, Store.dropEntry, hfirst]
    · simp [Store.discard, Store.dropEntry, hfirst]
    · rfl

theorem step_remembered (cfg : Config) {w : World} {i : Input} (hw : w.Sound)
    (hinput : Repeatable call.id w i) (h : w.store.Remembered call content) :
    (step cfg w i).store.Remembered call content := by
  have heffect := step_effect cfg hw i
  cases i with
  | attempt id env =>
    by_cases hid : id = call.id
    · subst hid
      cases hclaim : claim w call.id with
      | none => simpa [step, hclaim] using h
      | some msg =>
        obtain ⟨hentry, hactive⟩ := claim_eq_some hclaim
        have hmsg : msg.id = call.id := hw.wf.id_eq hentry
        have hheld : Held w msg.id msg := ⟨hw, by rw [hmsg]; exact hentry, by rw [hactive]; rfl⟩
        have hstep : step cfg w (.attempt call.id env) = processMessage cfg env w msg := by
          simp [step, hclaim]
        rw [hstep]
        exact processMessage_remembered hheld (hinput rfl msg hclaim) (h.same hw.wf hentry) h
    · generalize step cfg w (.attempt id env) = w' at heffect ⊢
      cases heffect with
      | idle => exact h
      | enqueued fresh enqueued => exact enqueued.remembered h
      | rewritten entry edit envelope queue =>
        exact edit.remembered_of_envelope hw entry envelope h
      | attempted entry active attempted => exact attempted.remembered (Ne.symm hid) h
      | shrunk input => exact input.elim
  | cleanup now => exact cleanup_remembered hinput.1 hinput.2 h
  | flush listed => exact flushQueue_remembered hinput h
  | delete id ok now =>
    have hdelete : (Manager.deleteMessage cfg.manager ok now w.store id).Remembered call content := by
      cases hentry : w.store.entries id with
      | none => simpa [Manager.deleteMessage, Manager.getMessage_of_absent ok hentry] using h
      | some m =>
        rcases Manager.deleteMessage_cases ok now cfg.manager hw.wf hentry with hrw | hrw
        · have hedit : Edits w id (some m)
              { w with store := Manager.deleteMessage cfg.manager ok now w.store id } :=
            ⟨hrw, rfl, rfl, rfl⟩
          exact hedit.remembered_of_envelope hw hentry rfl h
        have hedit : Edits w id none
            { w with store := Manager.deleteMessage cfg.manager ok now w.store id } :=
          ⟨hrw, rfl, rfl, rfl⟩
        exact hedit.remembered_of_removal hw hentry h
    exact hdelete
  | _ =>
    -- enqueues and bookkeeping
    generalize step cfg w _ = w' at heffect ⊢
    cases heffect with
    | idle => exact h
    | enqueued fresh enqueued => exact enqueued.remembered h
    | rewritten entry edit envelope queue =>
      exact edit.remembered_of_envelope hw entry envelope h
    | shrunk input => exact input.elim

/-- After a successful call, as long as every step is repeatable, the same call succeeds again at
any time and creates nothing; and so it does with the file backend, on a disk that holds the same
of this id. -/
theorem run_repeats (cfg : Config) (before after : List Input) {call : EnqueueCall} {now : Time}
    {w : World} (hstable : call.Stable)
    (hfirst : (Machine.run (step cfg) World.initial before).enqueueMessageWithID call now = some w)
    (hafter : Machine.Along (step cfg) (Repeatable call.id) w after) (again : Time) :
    (∃ w', (Machine.run (step cfg) w after).enqueueMessageWithID call again = some w' ∧
      w'.store.entries = (Machine.run (step cfg) w after).store.entries ∧
      w'.next = (Machine.run (step cfg) w after).next) ∧
    ∀ disk random, FileStore.Represents disk (Machine.run (step cfg) w after).store call.id →
      FileStore.validateMessageID call.id = none →
        (FileStore.createMessageIfAbsent random (call.message again) call.content).run disk =
          (.ok false, disk) := by
  have hsound := run_sound cfg before
  unfold World.enqueueMessageWithID at hfirst ⊢
  split at hfirst
  · simp at hfirst
  rename_i hid
  rw [if_neg hid]
  have hw : w.Sound := (World.enqueue_cases hsound.wf hfirst).sound hsound
  have hknown : w.store.Remembered (call.message now) call.content := by
    unfold World.enqueue at hfirst
    split at hfirst
    · simp at hfirst
    all_goals
      rename_i hcreate
      cases hfirst
      exact .of_created hsound.wf hstable hcreate
  -- the run keeps the call in memory
  have hinv := hafter.run_invariant
    (fun w : World => w.Sound ∧ w.store.Remembered (call.message now) call.content)
    (fun w i hinput hinv => ⟨(step_effect cfg hinv.1 i).sound hinv.1,
      step_remembered cfg hinv.1 hinput hinv.2⟩) ⟨hw, hknown⟩
  obtain ⟨hsound', hremembered⟩ := hinv
  have hagain := hremembered.message again
  refine ⟨?_, ?_⟩
  · obtain ⟨s, hcreate, hentries⟩ := hagain.createMessageIfAbsent hsound'.wf
    refine ⟨{ Machine.run (step cfg) w after with store := s }, ?_, hentries, rfl⟩
    simp [World.enqueue, hcreate]
  · intro disk random hdisk hvalid
    have hutf : Utf8.valid call.id = true :=
      Utf8.toValid_eq_self_iff.1 (sameEnqueueMessage_iff.1 hstable).1
    exact FileStore.Represents.recognizes hsound'.wf hdisk hvalid hutf hagain random

def pairCall : EnqueueCall :=
  { id := lit "1-a"
    mailFrom := lit "s@x.org"
    rcptTo := [lit "a@y.org", lit "b@y.org"]
    subject := lit "hi"
    content := lit "text"
    priority := .normal
    receivedAt := 5 }

/-- Both recipients are delivered to, and the entry is replaced by its tombstone. -/
def consumed : List Input :=
  [.attempt (lit "1-a") (.reliable 10 (lit "2-b") (answerAll .delivered [] none))]

theorem run_repeats_consumed :
    ∃ w, World.initial.enqueueMessageWithID pairCall 5 = some w ∧
      ∃ w', (Machine.run (step (.server (lit "mx.x.org"))) w consumed).enqueueMessageWithID
          pairCall 20 = some w' ∧
        w'.store.entries (lit "1-a") = none := by
  have hfirst : (World.initial.enqueueMessageWithID pairCall 5).isSome = true := by
    decide +kernel
  obtain ⟨w, hw⟩ := Option.isSome_iff_exists.1 hfirst
  have hstep : w = step (.server (lit "mx.x.org")) World.initial (pairCall.input 5) := by
    rw [step_enqueue, hw, Option.getD_some]
  have hclaim : claim w (lit "1-a") = some pairEntry := by
    subst hstep
    decide +kernel
  have hafter : Machine.Along (step (.server (lit "mx.x.org"))) (Repeatable pairCall.id) w
      consumed := by
    refine ⟨?_, trivial⟩
    intro _ msg hmsg
    obtain rfl := Option.some.inj (hclaim.symm.trans hmsg)
    intro content _
    left
    show temporaryOccurrences (answerAll .delivered [] none pairEntry []) pairEntry = []
    decide +kernel
  have hstable : pairCall.Stable := by
    unfold EnqueueCall.Stable
    decide +kernel
  obtain ⟨⟨w', hagain, hentries, -⟩, -⟩ :=
    run_repeats (.server (lit "mx.x.org")) [] consumed hstable hw hafter 20
  refine ⟨w, hw, w', hagain, ?_⟩
  rw [hentries]
  subst hstep
  decide +kernel

/-- The second recipient is delivered to and the first put off: the entry's recipient list is
shorter now, and the repeated call is refused. -/
theorem pairRun_conflicts :
    (World.initial.enqueueMessageWithID pairCall 5).isSome = true ∧
      ((Machine.run (step (.server (lit "mx.x.org"))) World.initial
        [pairCall.input 5, .attempt (lit "1-a") (pairEnv (lit "354 go on"))]).enqueueMessageWithID
          pairCall 20).isNone = true := by
  decide +kernel

end Elemta.Queue

import Elemta.Queue.Handlers
import Elemta.Queue.Progress

/-!
# Temporary failures are retried

An attempt sorts the recipients by outcome, but what becomes of those it is to try
again is decided by the error of the whole attempt. They stay queued when that
error reads as temporary; when it reads as permanent, one recipient's refusal
takes the others with it.
-/

namespace Elemta.Queue

open Bytes Bounce

/-- Occurrence `o` of the message `id` got through the attempt from `w` to `w'`: it still waits
in a live queue, and no DSN names it that did not name it before. -/
def Spared (w w' : World) (id o : Bytes) : Prop :=
  Pending w' id (w.serial id) o ∧
    ∀ dsn, .bounced (w.serial id) o dsn ∈ w'.ledger → .bounced (w.serial id) o dsn ∈ w.ledger

/-! ## Attempts that spare -/

/-- Halfway through the attempt that started at `start`, all of `ts` are still to be tried
again. -/
structure Spares (start w : World) (id : Bytes) (ts : List DsnRecipient) : Prop where
  entry : ∃ m, Held w id m ∧ names ts ⊆ m.retryable
  serial : w.serial id = start.serial id
  quiet : ∀ o ∈ names ts, ∀ dsn, .bounced (start.serial id) o dsn ∈ w.ledger →
    .bounced (start.serial id) o dsn ∈ start.ledger

section

variable {cfg : Config} {env : Env} {start w w' : World} {id : Bytes} {m msg : Message}
  {ts : List DsnRecipient}

section

variable (h : Spares start w id ts)

include h

theorem Spares.spared {o : Bytes} (ho : o ∈ names ts) : Spared start w id o := by
  obtain ⟨m, hheld, hkept⟩ := h.entry
  exact ⟨⟨m, hheld.entry, hheld.live, h.serial, hkept ho⟩, h.quiet o ho⟩

theorem Spares.edits (hedit : Edits w id (some m) w')
    (hlive : m.queueType.live = true) (hkept : names ts ⊆ m.retryable) :
    Spares start w' id ts := by
  obtain ⟨old, hheld, -⟩ := h.entry
  refine ⟨⟨m, hheld.edits hedit hlive, hkept⟩, ?_, ?_⟩
  · rw [hedit.serial]
    exact h.serial
  · rw [hedit.ledger]
    exact h.quiet

theorem Spares.kept
    (hkept : ∀ m, Held w id m → ∃ m', Kept cfg env id w m w' m') : Spares start w' id ts := by
  obtain ⟨m, hheld, hts⟩ := h.entry
  obtain ⟨m', hm'⟩ := hkept m hheld
  refine h.edits hm'.edit hm'.held.live ?_
  rw [retryable_congr hm'.envelope]
  exact hts

theorem Spares.note {facts : List Fact}
    (houtcome : ∀ f ∈ facts, f.IsOutcome (w.serial id)) : Spares start (w.record facts) id ts := by
  obtain ⟨m, hheld, hts⟩ := h.entry
  refine ⟨⟨m, hheld.record facts, hts⟩, h.serial, ?_⟩
  intro o ho dsn hmem
  rcases List.mem_append.1 hmem with hold | hnew
  · exact h.quiet o ho dsn hold
  · exact (houtcome _ hnew).elim

theorem Spares.bounced {site : Site} {rs : List DsnRecipient} {reason : Bytes}
    {handoffID : Option Bytes} {result : BounceResult}
    (hbounce : Bounced cfg env site w msg rs reason handoffID result w')
    (hdisjoint : (names rs).Disjoint (names ts)) : Spares start w' id ts := by
  obtain ⟨m, hheld, hts⟩ := h.entry
  refine ⟨⟨m, hheld.bounced hbounce, hts⟩, ?_, ?_⟩
  · rw [(hbounce.entry hheld.entry).2]
    exact h.serial
  · intro o ho dsn hmem
    rcases hbounce.bounced_mem hmem with hold | ⟨-, hnamed, -⟩
    · exact h.quiet o ho dsn hold
    · exact (hdisjoint hnamed ho).elim

end

variable {err : GoError}

/-- With retries left, a temporary error defers the message and nothing else. -/
theorem Spares.handleDeliveryFailure (h : Spares start w msg.id ts)
    (htemporary : isTemporaryFailure (some err) = true)
    (hretries : (msg.retryCount : Int) < cfg.maxRetries) :
    Spares start (handleDeliveryFailure cfg env w msg err) msg.id ts := by
  have hattempt := h.kept fun _ hheld =>
    addAttempt_kept cfg env hheld .failedAttempt (lit "failed") err.text
  unfold Queue.handleDeliveryFailure
  simp only [htemporary, Bool.not_true, Bool.false_eq_true, if_false, not_le.2 hretries]
  exact hattempt.kept fun _ hheld => moveMessage_kept hheld rfl err.text

theorem retryable_withHandoff (h : DsnHandoff) :
    (Store.recorded (withHandoff msg h)).retryable = names h.temporary := by
  simp [Message.retryable, recorded_withHandoff_handoff, DsnHandoff.persisted]

/-- The handoff of the permanent failures leaves the others alone, wherever it stops. -/
theorem Spares.handOff {h : DsnHandoff} (hspares : Spares start w msg.id h.temporary)
    (hlive : msg.queueType.live = true)
    (hdisjoint : (names h.permanent).Disjoint (names h.temporary)) (reason : Bytes) :
    Spares start (handOff cfg env w msg h reason).1 msg.id h.temporary := by
  have hwrite : ∀ {site : Site} {w w' : World} {h' : DsnHandoff}, h'.temporary = h.temporary →
      Spares start w msg.id h.temporary → updateMessage env site w (withHandoff msg h') = some w' →
      Spares start w' msg.id h.temporary := by
    intro site w w' h' hsame hw hupdate
    obtain ⟨m, hheld, -⟩ := hw.entry
    have hedit := updateMessage_edits hheld.sound hupdate
    refine hw.edits hedit hlive ?_
    rw [retryable_withHandoff, hsame]
    exact List.Subset.refl _
  unfold Queue.handOff
  cases hupdate : updateMessage env .intent w (withHandoff msg h) with
  | none => exact hspares
  | some intended =>
    have hintended := hwrite rfl hspares hupdate
    obtain ⟨m, hheld, -⟩ := hintended.entry
    have hbounced := hintended.bounced (generateBounce_cases cfg env .handoff hheld.sound
      (failedPart msg h.permanent) h.permanent reason (some h.id)) hdisjoint
    simp only [bounceAndComplete]
    split
    · exact hbounced
    cases hcomplete : updateMessage env .complete
      (generateBounce cfg env .handoff intended (failedPart msg h.permanent) h.permanent reason
        (some h.id)).2 (withHandoff msg { h with state := .complete }) with
    | none => exact hbounced
    | some completed =>
      have hsame : { h with state := HandoffState.complete }.temporary = h.temporary := rfl
      exact hwrite hsame hbounced hcomplete

theorem Spares.reduce {reduced : Message}
    (hupdate : updateMessage env .reduce w reduced = some w') (h : Spares start w reduced.id ts)
    (hocc : reduced.occurrences = names ts) (habsent : reduced.handoff = .absent)
    (hlive : reduced.queueType.live = true) (htemporary : isTemporaryFailure (some err) = true)
    (hretries : (reduced.retryCount : Int) < cfg.maxRetries) (delivered : List Bytes)
    (temporary permanent : Nat) :
    Spares start (Queue.handleDeliveryFailure cfg env
      (observePartial env w' reduced delivered temporary permanent) reduced err) reduced.id ts := by
  obtain ⟨m, hheld, -⟩ := h.entry
  have hreduced : Spares start w' reduced.id ts := by
    refine h.edits (updateMessage_edits hheld.sound hupdate) hlive ?_
    rw [retryable_of_absent (recorded_absent habsent), occurrences_recorded, hocc]
    exact List.Subset.refl _
  have hobserved := hreduced.kept fun _ hheld =>
    observePartial_kept cfg env hheld delivered temporary permanent
  exact hobserved.handleDeliveryFailure htemporary hretries

end

/-! ## Attempts that do not -/

section

variable {cfg : Config} {env : Env} {w : World} {m msg : Message}
  (hok : ∀ site call, env.ok site call = true)

include hok

/-- The handoff goes through when storage works and its DSN's id is unused. -/
theorem handOff_goesOn {h : DsnHandoff} (hheld : Held w msg.id m)
    (hunused : w.store.Unused h.id) (reason : Bytes) :
    (handOff cfg env w msg h reason).2 = true := by
  have hne : h.id ≠ msg.id := by
    intro heq
    have hnone := hunused.entry
    rw [heq, hheld.entry] at hnone
    cases hnone
  obtain ⟨intended, hintent⟩ : ∃ w', updateMessage env .intent w (withHandoff msg h) = some w' :=
    updateMessage_isSome hok hheld.entry
  have hedit := updateMessage_edits hheld.sound hintent
  have hsound := hedit.sound hheld.sound hheld.entry
  have hbounce := generateBounce_cases cfg env .handoff hsound (failedPart msg h.permanent)
    h.permanent reason (some h.id)
  have hfailed : (generateBounce cfg env .handoff intended (failedPart msg h.permanent)
      h.permanent reason (some h.id)).1 ≠ .failed :=
    generateBounce_ne_failed (hok .handoff .create) (hedit.unused hne hunused)
  obtain ⟨completed, hcomplete⟩ : ∃ w', updateMessage env .complete
      (generateBounce cfg env .handoff intended (failedPart msg h.permanent) h.permanent reason
        (some h.id)).2 (withHandoff msg { h with state := .complete }) = some w' :=
    updateMessage_isSome hok (hbounce.entry hedit.entry).1
  unfold handOff
  simp only [hintent, bounceAndComplete, hfailed, if_false, hcomplete]

theorem handleDeliveryFailure_removes (hheld : Held w msg.id m) (habsent : m.handoff = .absent)
    (hocc : msg.occurrences = m.occurrences) (hvalid : Utf8.valid msg.id = true) {err : GoError}
    (hpermanent : isTemporaryFailure (some err) = false) {k : Nat} {o : Bytes} :
    ¬Pending (handleDeliveryFailure cfg env w msg err) msg.id k o := by
  refine handleDeliveryFailure_rule (¬Pending · msg.id k o) hheld habsent hocc err ?_ fun htemporary _ _ => ?_
  · rintro a b m' - ⟨-, -, -, -, -, -, -, edit, -, removed⟩ ⟨left, hentry, hlive, -⟩
    rw [removed (hok .giveUp) hvalid left (edit.entry.symm.trans hentry)] at hlive
    cases hlive
  · exact absurd (hpermanent.symm.trans htemporary) (by simp)

end

/-! ## The recipients to try again -/

def temporaryOccurrences (answer : HandlerAnswer) (msg : Message) : List Bytes :=
  ((attemptOutcomes answer msg).filter fun p => p.2.status == .temporaryFailure).map fun p =>
    Utf8.toValid p.1

def reportedError (answer : HandlerAnswer) : Option GoError :=
  answer.2.or (answer.1.bind DeliveryResult.error)

/-- No one is to be tried again, or the error of the attempt does not read as permanent. -/
def ErrorAllowsRetry (answer : HandlerAnswer) (msg : Message) : Prop :=
  temporaryOccurrences answer msg = [] ∨
    ∀ e, reportedError answer = some e → isTemporaryFailure (some e) = true

theorem names_temporaryR (annotations : Annotations) (ps : List (Bytes × RecipientOutcome)) :
    names (classify annotations ps).temporaryR =
      (ps.filter fun p => p.2.status == .temporaryFailure).map fun p => Utf8.toValid p.1 := by
  rw [(classify_groups annotations ps).2.1, names, List.map_map]
  rfl

/-- The error that the retry is decided by reads as the handler's own does. -/
theorem isTemporaryFailure_normalized (rcptTo : List Bytes) (answer : HandlerAnswer) :
    isTemporaryFailure (some ((normalizeDeliveryResult rcptTo answer.1 answer.2).2.getD
        temporaryDeliveryFailure)) = true ↔
      ∀ e, reportedError answer = some e → isTemporaryFailure (some e) = true := by
  obtain ⟨result, err⟩ := answer
  have hquiet : isTemporaryFailure (some temporaryDeliveryFailure) = true := by decide +kernel
  have hmissing : isTemporaryFailure (some unsuccessfulWithoutError) = true := by decide +kernel
  have hreported : err.or (result.getD DeliveryResult.empty).error =
      reportedError (result, err) := by
    cases result with
    | none => simp [reportedError, DeliveryResult.empty]
    | some r => rfl
  simp only [normalizeDeliveryResult, hreported]
  cases hcase : reportedError (result, err) with
  | some e => simp
  | none =>
    split
    · simp [hmissing]
    · simp [hquiet]

/-! ## The whole attempt -/

section

variable {cfg : Config} {env : Env} {w : World} {msg : Message} {outcomes : List RecipientOutcome}
  {err : Option GoError}

theorem names_disjoint_of_nodup (hnodup : msg.occurrences.Nodup)
    (hto : outcomes.map RecipientOutcome.recipient = msg.rcptTo)
    (hknown : ∀ o ∈ outcomes, o.status.known = true) :
    (names (dispositions msg outcomes).permanentR).Disjoint
      (names (dispositions msg outcomes).temporaryR) := by
  have hall := (dispositions_partition hto hknown).nodup_iff.2 hnodup
  have hfirst := (List.nodup_append.1 hall).1
  intro o hpermanent htemporary
  exact (List.nodup_append.1 hfirst).2.2 o hpermanent o htemporary rfl

theorem handleRecipientOutcomes_spares (hheld : Held w msg.id msg) (habsent : msg.handoff = .absent)
    (hnodup : msg.occurrences.Nodup) (hto : outcomes.map RecipientOutcome.recipient = msg.rcptTo)
    (hknown : ∀ o ∈ outcomes, o.status.known = true)
    (hretries : (msg.retryCount : Int) < cfg.maxRetries)
    (htemporary : isTemporaryFailure (some (err.getD temporaryDeliveryFailure)) = true)
    (hsome : (dispositions msg outcomes).temporaryR ≠ []) :
    Spares w (handleRecipientOutcomes cfg env w msg outcomes err) msg.id
      (dispositions msg outcomes).temporaryR := by
  have hdisjoint := names_disjoint_of_nodup hnodup hto hknown
  have hperm := dispositions_partition hto hknown
  have hstart : Spares w w msg.id (dispositions msg outcomes).temporaryR := by
    refine ⟨⟨msg, hheld, ?_⟩, rfl, fun _ _ _ hmem => hmem⟩
    rw [retryable_of_absent habsent]
    intro o ho
    exact hperm.subset (List.mem_append_left _ (List.mem_append_right _ ho))
  have hnoted : Spares w (w.noted cfg msg outcomes) msg.id (dispositions msg outcomes).temporaryR :=
    hstart.note fun f hf => outcomeFacts_isOutcome hf
  generalize hd : dispositions msg outcomes = d at hdisjoint hsome hnoted ⊢
  -- after the handoff, or without one, everybody in `temporaryR` is where they were
  refine handleRecipientOutcomes_rule (fun w' => Spares w w' msg.id d.temporaryR)
    (fun mid => Spares w mid msg.id d.temporaryR) rfl hd ?_ ?_ ?_ ?_ ?_ ?_
  · exact fun hnone => absurd hnone hsome
  · rintro reason answer rfl
    have hmid := @Spares.handOff cfg env w _ msg (pendingHandoff msg d) hnoted hheld.live hdisjoint
      reason
    exact ⟨fun _ => hmid, fun _ => hmid⟩
  · exact fun _ => hnoted
  · exact fun mid _ hnone => absurd hnone hsome
  · exact fun mid hmid _ => hmid
  · exact fun mid reduced hmid _ hreduced => Spares.reduce hreduced hmid
      (occurrences_reducedMessage msg d.temporaryR) rfl hheld.live htemporary hretries _ _ _

theorem handleRecipientOutcomes_removes (hok : ∀ site call, env.ok site call = true)
    (hheld : Held w msg.id msg) (habsent : msg.handoff = .absent)
    (hvalid : Utf8.valid msg.id = true)
    (hunused : w.store.Unused (handoffID msg.id (dispositions msg outcomes).permanentR))
    (hto : outcomes.map RecipientOutcome.recipient = msg.rcptTo)
    (hknown : ∀ o ∈ outcomes, o.status.known = true)
    (hpermanent : isTemporaryFailure (some (err.getD temporaryDeliveryFailure)) = false)
    (hsome : (dispositions msg outcomes).temporaryR ≠ []) {k : Nat} {o : Bytes} :
    ¬Pending (handleRecipientOutcomes cfg env w msg outcomes err) msg.id k o := by
  have hsorted := sorted_of_outcomes hheld habsent hto hknown cfg
  have hhandoff := handOff_of_outcomes hheld habsent hto hknown cfg env
  have hheld' : Held (w.noted cfg msg outcomes) msg.id msg := hheld.record _
  have hunused' : (w.noted cfg msg outcomes).store.Unused
      (handoffID msg.id (dispositions msg outcomes).permanentR) := hunused
  generalize hnoted : w.noted cfg msg outcomes = noted at hsorted hhandoff hheld' hunused'
  generalize hd : dispositions msg outcomes = d at hsorted hhandoff hunused' hsome
  -- with storage that works the attempt gets as far as the reduced message
  refine handleRecipientOutcomes_rule (fun w' => ¬Pending w' msg.id k o)
    (fun mid => Sorted mid msg.id d.temporaryR) hnoted hd ?_ ?_ hsorted ?_ ?_ ?_
  · exact fun hnone => absurd hnone hsome
  · rintro reason answer rfl
    have hgoOn := @handOff_goesOn cfg env _ _ _ hok (pendingHandoff msg d) hheld' hunused' reason
    exact ⟨fun hstop => absurd (hgoOn.symm.trans hstop) (by simp), fun _ => (hhandoff reason).2 hgoOn⟩
  · exact fun mid _ hnone => absurd hnone hsome
  · rintro mid ⟨m, hentry, -⟩ hfailed
    obtain ⟨reduced, hreduced⟩ := @updateMessage_isSome env mid m (reducedAt env msg d) hok .reduce
      hentry.entry
    rw [hreduced] at hfailed
    cases hfailed
  · intro mid reduced hready _ hreduced
    obtain ⟨hheld'', -⟩ := Sorted.reduce cfg hreduced hready
      (occurrences_reducedMessage msg d.temporaryR) rfl hheld.live
    obtain ⟨m', hkept⟩ := observePartial_kept cfg env hheld'' d.delivered d.temporaryR.length
      d.permanentR.length
    refine handleDeliveryFailure_removes hok hkept.held (hkept.absent rfl) ?_ hvalid hpermanent
    rw [hkept.occurrences, occurrences_recorded]

end

/-- Nothing outside the delivery stops the attempt: every storage call succeeds, the id survives
a JSON round trip, and the DSN of the permanent failures has an unused id. -/
structure Unhindered (env : Env) (w : World) (msg : Message) (answer : HandlerAnswer) : Prop where
  ok : ∀ site call, env.ok site call = true
  valid : Utf8.valid msg.id = true
  unused : w.store.Unused
    (handoffID msg.id (classify msg.annotations (attemptOutcomes answer msg)).permanentR)

/-- In every state of every run, an attempt with retries left spares the recipients whose outcome
is temporary when the handler's error does not read as permanent, whatever storage does; and when
nothing else stops it, only then. -/
theorem attempt_spares_iff (cfg : Config) (inputs : List Input) {id content : Bytes}
    {env : Env} {msg : Message}
    (hclaim : claim (Machine.run (step cfg) World.initial inputs) id = some msg)
    (hoffered : offered env (Machine.run (step cfg) World.initial inputs) msg =
      some (msg, content))
    (hretries : (msg.retryCount : Int) < cfg.maxRetries) :
    let w := Machine.run (step cfg) World.initial inputs
    let spares := ∀ o ∈ temporaryOccurrences (env.deliver msg content) msg,
      Spared w (step cfg w (.attempt id env)) id o
    (ErrorAllowsRetry (env.deliver msg content) msg → spares) ∧
      (Unhindered env w msg (env.deliver msg content) → spares →
        ErrorAllowsRetry (env.deliver msg content) msg) := by
  have hsound := run_sound cfg inputs
  have hdistinct := run_distinct cfg inputs
  generalize Machine.run (step cfg) World.initial inputs = w at *
  obtain ⟨hentry, hactive⟩ := claim_eq_some hclaim
  obtain rfl : msg.id = id := hsound.wf.id_eq hentry
  have hheld : Held w msg.id msg := ⟨hsound, hentry, by rw [hactive]; rfl⟩
  obtain ⟨habsent, hprocess⟩ := processMessage_of_offered cfg hoffered
  have hnodup : msg.occurrences.Nodup := by
    rw [← tracked_of_absent habsent]
    exact hdistinct _ _ hentry
  have hstep : step cfg w (.attempt msg.id env) = processMessage cfg env w msg := by
    simp [step, hclaim]
  have hto := normalizeDeliveryResult_recipient msg.rcptTo (env.deliver msg content).1
    (env.deliver msg content).2
  have hknown := normalizeDeliveryResult_known msg.rcptTo (env.deliver msg content).1
    (env.deliver msg content).2
  have herror := isTemporaryFailure_normalized msg.rcptTo (env.deliver msg content)
  have hnames : names (classify msg.annotations (attemptOutcomes (env.deliver msg content)
      msg)).temporaryR = temporaryOccurrences (env.deliver msg content) msg :=
    names_temporaryR _ _
  dsimp only
  rw [hstep, hprocess]
  refine ⟨?_, ?_⟩
  · intro hallows o ho
    rw [← hnames] at ho
    have hsome : (classify msg.annotations (attemptOutcomes (env.deliver msg content)
        msg)).temporaryR ≠ [] := by
      intro hnone
      simp [hnone, names] at ho
    have htemporary := hallows.resolve_left (by
      rw [← hnames]
      exact List.ne_nil_of_mem ho)
    exact (handleRecipientOutcomes_spares hheld habsent hnodup hto hknown hretries
      (herror.2 htemporary) hsome).spared ho
  · intro hunhindered hspares
    by_contra hnot
    obtain ⟨hsome, hpermanent⟩ := not_or.1 hnot
    rw [← herror, Bool.not_eq_true] at hpermanent
    obtain ⟨o, ho⟩ := List.exists_mem_of_ne_nil _ hsome
    refine handleRecipientOutcomes_removes hunhindered.ok hheld habsent hunhindered.valid
      hunhindered.unused hto hknown hpermanent ?_ (hspares o ho).1
    intro hnone
    have hempty : (classify msg.annotations (attemptOutcomes (env.deliver msg content)
        msg)).temporaryR = [] := hnone
    rw [hempty] at hnames
    exact hsome hnames.symm

def pairRun : List Input :=
  [.enqueue (lit "1-a") (lit "s@x.org") [lit "a@y.org", lit "b@y.org"] (lit "hi") (lit "text")
    .normal 5 5]

def pairEntry : Message :=
  Store.recorded (newEnqueueMessage (lit "1-a") (lit "s@x.org") [lit "a@y.org", lit "b@y.org"]
    (lit "hi") (lit "text").length .normal 5 5)

/-- A mailbox server that puts the first recipient off, takes the second, and then answers DATA. -/
def pairPeer (data : Bytes) : LmtpPeer :=
  { address := lit "127.0.0.1:2424"
    overLimit := false
    setup := none
    mail := .ok (lit "250 ok")
    rcpt := fun i => if i = 0 then .ok (lit "450 4.2.1 mailbox busy") else .ok (lit "250 ok")
    data := .ok data
    sendError := none
    final := fun _ => .ok (lit "250 2.0.0 ok") }

def pairEnv (data : Bytes) : Env :=
  .reliable 10 (lit "2-b") fun msg _ => lmtpHandler (pairPeer data) msg

theorem attempt_spares_iff_pairRun :
    lit "1-a:0" ∈ temporaryOccurrences (lmtpHandler (pairPeer (lit "354 go on")) pairEntry)
        pairEntry ∧
      Spared (Machine.run (step (.server (lit "mx.x.org"))) World.initial pairRun)
        (step (.server (lit "mx.x.org"))
          (Machine.run (step (.server (lit "mx.x.org"))) World.initial pairRun)
          (.attempt (lit "1-a") (pairEnv (lit "354 go on")))) (lit "1-a") (lit "1-a:0") := by
  have htemporary : lit "1-a:0" ∈ temporaryOccurrences
      (lmtpHandler (pairPeer (lit "354 go on")) pairEntry) pairEntry := by
    decide +kernel
  have herror : reportedError (lmtpHandler (pairPeer (lit "354 go on")) pairEntry) =
      some (.plain (lit "partial delivery: 1/2 recipients delivered, failed: [a@y.org]")) := by
    decide +kernel
  refine ⟨htemporary, (@attempt_spares_iff (.server (lit "mx.x.org")) pairRun (lit "1-a")
    (lit "text") (pairEnv (lit "354 go on")) pairEntry ?_ ?_ ?_).1 (.inr ?_) _ htemporary⟩
  · decide +kernel
  · decide +kernel
  · decide +kernel
  · intro e he
    obtain rfl := Option.some.inj (herror.symm.trans he)
    decide +kernel

/-- The server refuses DATA for good, which concerns the second recipient only, and the first is
bounced with it. -/
theorem pairRun_bounces_temporary :
    (pairEntry.retryCount : Int) < (Config.server (lit "mx.x.org")).maxRetries ∧
      claim (Machine.run (step (.server (lit "mx.x.org"))) World.initial pairRun) (lit "1-a") =
        some pairEntry ∧
      lit "1-a:0" ∈ temporaryOccurrences
        (lmtpHandler (pairPeer (lit "554 5.6.0 content refused")) pairEntry) pairEntry ∧
      .bounced 0 (lit "1-a:0") (lit "2-b") ∈
        (step (.server (lit "mx.x.org"))
          (Machine.run (step (.server (lit "mx.x.org"))) World.initial pairRun)
          (.attempt (lit "1-a") (pairEnv (lit "554 5.6.0 content refused")))).ledger := by
  decide +kernel

end Elemta.Queue

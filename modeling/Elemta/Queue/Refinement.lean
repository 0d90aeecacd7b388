import Elemta.Queue.Custody

/-!
# The processor follows the protocol

Every attempt of `processMessage` is a sequence of protocol transitions, whatever
the handler answers and whichever storage calls fail. The walk goes through the
functions of the processor once; the invariants of the queue are proved of the
transitions and never look at the processor again.
-/

namespace Elemta.Queue

open Bytes Bounce

section

variable {cfg : Config} {env : Env} {site : Site} {w w' : World} {id : Bytes} {m m' : Message}

/-! ## Single steps -/

structure Kept (cfg : Config) (env : Env) (id : Bytes) (w : World) (m : Message) (w' : World)
    (m' : Message) : Prop where
  held : Held w' id m'
  envelope : m'.envelope = m.envelope
  edit : Edits w id (some m') w'
  follows : Follows cfg env id w w'

theorem Held.kept (cfg : Config) (env : Env) (h : Held w id m) (hedit : Edits w id (some m') w')
    (hlive : m'.queueType.live = true) (henv : m'.envelope = m.envelope) :
    Kept cfg env id w m w' m' :=
  ⟨h.edits hedit hlive, henv, hedit, .single (.keep h hedit hlive henv)⟩

theorem Kept.absent (h : Kept cfg env id w m w' m') (habsent : m.handoff = .absent) :
    m'.handoff = .absent :=
  (congrArg Envelope.handoff h.envelope).trans habsent

theorem Kept.occurrences (h : Kept cfg env id w m w' m') : m'.occurrences = m.occurrences :=
  occurrences_congr h.envelope

theorem addAttempt_kept (cfg : Config) (env : Env) (h : Held w id m) (site : Site)
    (result errorMsg : Bytes) :
    ∃ m', Kept cfg env id w m (addAttempt env site w id result errorMsg) m' := by
  obtain ⟨m', hedit, henv, hqueue⟩ := addAttempt_edits site h.sound h.entry result errorMsg
  exact ⟨m', h.kept cfg env hedit (hqueue ▸ h.live) henv⟩

theorem moveMessage_kept (h : Held w id m)
    {target : QueueType} (hlive : target.live = true) (reason : Bytes) :
    ∃ m', Kept cfg env id w m (moveMessage cfg env site w id target reason) m' := by
  obtain ⟨m', hedit, henv, hqueue⟩ := moveMessage_edits site h.sound h.entry target reason
  refine ⟨m', h.kept cfg env hedit ?_ henv⟩
  rcases hqueue with hsame | htarget
  · exact hsame ▸ h.live
  · exact htarget ▸ hlive

variable {ts : List DsnRecipient} {msg : Message}

theorem observePartial_kept (cfg : Config) (env : Env) (h : Held w msg.id m)
    (delivered : List Bytes) (temporary permanent : Nat) :
    ∃ m', Kept cfg env msg.id w m (observePartial env w msg delivered temporary permanent) m' := by
  obtain ⟨m', hedit, henv, hqueue⟩ :=
    observePartial_edits h.sound h.entry delivered temporary permanent
  exact ⟨m', h.kept cfg env hedit (hqueue ▸ h.live) henv⟩

theorem deleteMessage_follows (h : Held w id m)
    (hanswered : ∀ o ∈ m.outstanding, Answered w (w.serial id) o) :
    Follows cfg env id w (deleteMessage cfg env site w id) := by
  rcases deleteMessage_edits site h.sound h.entry with hedit | hedit
  · exact .single (.keep h hedit h.live rfl)
  · exact .single (.consume h hedit hanswered)

/-! ## Giving up and deferring -/

theorem moveToFailed_giveUp (h : Held w msg.id m) (habsent : m.handoff = .absent)
    (hocc : msg.occurrences = m.occurrences) (reason : Bytes) :
    GiveUp cfg env msg.id w (moveToFailed cfg env w msg reason) := by
  have hbounce := generateBounce_cases cfg env .giveUpBounce h.sound msg (envelopeRecipients msg)
    reason none
  have hheld := h.bounced hbounce
  have hnames : names (envelopeRecipients msg) = m.occurrences := by
    rw [names_envelopeRecipients, hocc]
  have hintro {e : Option Message} {w' : World} := @GiveUp.intro cfg env msg.id w w' m msg
    (envelopeRecipients msg) reason _ e _ h habsent rfl hnames hbounce
    (fun _ => mem_rcptTo_of_mem_envelopeRecipients)
    (fun hok hfresh => generateBounce_ne_failed hok hfresh)
  unfold moveToFailed
  split
  · rcases deleteMessage_edits .giveUp hheld.sound hheld.entry with hedit | hedit
    · refine hintro hedit ?_ ?_
      · rintro _ ⟨⟩
        exact ⟨rfl, .inl rfl⟩
      · -- storage that works would have removed the entry
        intro hok hvalid m' _
        have hgone := Manager.deleteMessage_removes (env.now .giveUp) hok cfg.manager
          hheld.sound.wf hheld.entry hvalid
        have hnone := hgone.entries.symm.trans hedit.store.entries
        have hid := congrFun hnone msg.id
        simp at hid
    · exact hintro hedit nofun nofun
  · obtain ⟨m', hedit, henv, hqueue⟩ :=
      moveMessage_edits .giveUp hheld.sound hheld.entry .failed reason
    refine hintro hedit ?_ ?_
    · rintro _ ⟨⟩
      exact ⟨henv, hqueue⟩
    · rintro hok - _ ⟨⟩
      obtain ⟨moved, hmoved, -, htarget⟩ := Manager.moveMessage_moves (env.now .giveUp) hok
        cfg.manager env.jitter hheld.sound.wf hheld.entry .failed reason
      have hsame := congrFun (hmoved.entries.symm.trans hedit.store.entries) msg.id
      simp only [Function.update_self, Option.some.injEq] at hsame
      rw [← hsame, htarget]

/-- A failed attempt is noted, and then the message is given up or put off. -/
theorem handleDeliveryFailure_rule (P : World → Prop) (h : Held w msg.id m)
    (habsent : m.handoff = .absent) (hocc : msg.occurrences = m.occurrences) (err : GoError)
    (hgiveUp : ∀ {a b m'}, Kept cfg env msg.id w m a m' → GiveUp cfg env msg.id a b → P b)
    (hdefer : ∀ {a b m' m''}, isTemporaryFailure (some err) = true → Kept cfg env msg.id w m a m' →
      Kept cfg env msg.id a m' b m'' → P b) : P (handleDeliveryFailure cfg env w msg err) := by
  obtain ⟨m', hkept⟩ := addAttempt_kept cfg env h .failedAttempt (lit "failed") err.text
  have hgone (reason : Bytes) :=
    hgiveUp hkept (moveToFailed_giveUp hkept.held (hkept.absent habsent)
      (hocc.trans hkept.occurrences.symm) reason)
  unfold handleDeliveryFailure
  split
  · exact hgone _
  next htemporary =>
  split
  · exact hgone _
  · obtain ⟨m'', hmoved⟩ := moveMessage_kept hkept.held
      (rfl : QueueType.deferred.live = true) err.text
    exact hdefer (by simpa using htemporary) hkept hmoved

theorem handleDeliveryFailure_attempted (h : Held w msg.id m) (habsent : m.handoff = .absent)
    (hocc : msg.occurrences = m.occurrences) (err : GoError) :
    Attempted cfg env msg.id w (handleDeliveryFailure cfg env w msg err) :=
  handleDeliveryFailure_rule (Attempted cfg env msg.id w) h habsent hocc err
    (fun hkept giveUp => .gaveUp hkept.follows giveUp)
    fun _ hkept hmoved => .stopped (hkept.follows.trans hmoved.follows)

/-! ## Sorted recipients -/

/-- The recipients `ts` are the ones to try again, and all others have been answered for. -/
def Sorted (w : World) (id : Bytes) (ts : List DsnRecipient) : Prop :=
  ∃ m, Held w id m ∧ (names ts).Subperm m.retryable ∧
    ∀ o ∈ m.outstanding, o ∈ names ts ∨ Answered w (w.serial id) o

theorem Sorted.kept (h : Sorted w id ts)
    (hkept : ∀ m, Held w id m → ∃ m', Kept cfg env id w m w' m') :
    Sorted w' id ts ∧ Follows cfg env id w w' := by
  obtain ⟨m, hheld, hsub, hout⟩ := h
  obtain ⟨m', hm'⟩ := hkept m hheld
  refine ⟨⟨m', hm'.held, ?_, ?_⟩, hm'.follows⟩
  · rw [retryable_congr hm'.envelope]
    exact hsub
  · intro o ho
    rw [outstanding_congr hm'.envelope] at ho
    rw [hm'.edit.serial]
    rcases hout o ho with hts | hanswered
    · exact .inl hts
    · exact .inr (hanswered.mono (by rw [hm'.edit.ledger]; exact List.Subset.refl _))

theorem Sorted.observePartial (cfg : Config) (env : Env) (h : Sorted w msg.id ts)
    (delivered : List Bytes) (temporary permanent : Nat) :
    Sorted (observePartial env w msg delivered temporary permanent) msg.id ts ∧
      Follows cfg env msg.id w (observePartial env w msg delivered temporary permanent) :=
  h.kept fun _ hheld => observePartial_kept cfg env hheld delivered temporary permanent

theorem Sorted.finalize (h : Sorted w msg.id ts) (hnone : ts = []) :
    Follows cfg env msg.id w (finalizeNoTemporary cfg env w msg) := by
  subst hnone
  obtain ⟨m, hheld, -, hout⟩ := h
  refine deleteMessage_follows hheld ?_
  intro o ho
  rcases hout o ho with hnone | hanswered
  · simp [names] at hnone
  · exact hanswered

theorem Sorted.handleDeliverySuccess (h : Sorted w msg.id ts) (hnone : ts = []) :
    Follows cfg env msg.id w (handleDeliverySuccess cfg env w msg) := by
  obtain ⟨hsorted, hfollows⟩ := h.kept fun _ hheld =>
    addAttempt_kept cfg env hheld .deliveredAttempt (lit "delivered") []
  exact hfollows.trans (hsorted.finalize hnone)

theorem Sorted.reduce (cfg : Config) {reduced : Message}
    (hupdate : updateMessage env .reduce w reduced = some w') (h : Sorted w reduced.id ts)
    (hocc : reduced.occurrences = names ts) (habsent : reduced.handoff = .absent)
    (hlive : reduced.queueType.live = true) :
    Held w' reduced.id (Store.recorded reduced) ∧ Follows cfg env reduced.id w w' := by
  obtain ⟨m, hheld, hkept, hout⟩ := h
  have hedit := updateMessage_edits hheld.sound hupdate
  have hnames : (Store.recorded reduced).occurrences = names ts := by
    rw [occurrences_recorded, hocc]
  refine ⟨hheld.edits hedit hlive, .single (.reduce hheld hedit hlive (recorded_absent habsent) ?_ ?_)⟩
  · rw [hnames]
    exact hkept
  · intro o ho
    rw [hnames]
    exact hout o ho

end

/-! ## Handing permanent failures off -/

theorem toValid_handoffID (id : Bytes) (ps : List DsnRecipient) :
    Utf8.toValid (handoffID id ps) = handoffID id ps := by
  apply Utf8.toValid_of_ascii
  intro b hb
  rcases List.mem_append.1 hb with hprefix | hhex
  · have hlit : lit "dsn-" = [100, 115, 110, 45] := by decide
    rw [hlit] at hprefix
    simp only [List.mem_cons, List.not_mem_nil, or_false] at hprefix
    rcases hprefix with rfl | rfl | rfl | rfl <;> decide
  · exact Sha256.le_of_mem_hex hhex

section

variable {cfg : Config} {env : Env} {w w' : World} {msg m : Message} {h : DsnHandoff}

theorem recorded_withHandoff_handoff (msg : Message) (h : DsnHandoff) :
    (Store.recorded (withHandoff msg h)).handoff = .recorded h.persisted := rfl

structure AfterHandoff (P Mid : World → Prop) (answer : World × Bool) : Prop where
  left : P answer.1
  ready : answer.2 = true → Mid answer.1

theorem bounceAndComplete_follows (hheld : Held w msg.id m) (hlive : msg.queueType.live = true)
    (hhandoff : m.handoff = .recorded h.persisted) (hid : h.id = handoffID msg.id h.permanent)
    (reason : Bytes) :
    AfterHandoff (Follows cfg env msg.id w) (Sorted · msg.id h.temporary)
      (bounceAndComplete cfg env w msg h reason) := by
  have hbounce := generateBounce_cases cfg env .handoff hheld.sound (failedPart msg h.permanent)
    h.permanent reason (some h.id)
  have hstored : h.persisted.id = h.id := by
    show Utf8.toValid h.id = h.id
    rw [hid, toValid_handoffID]
  have haddress : ∀ r ∈ h.permanent, r.address ∈ (failedPart msg h.permanent).rcptTo :=
    fun r hr => List.mem_map.2 ⟨r, hr, rfl⟩
  unfold bounceAndComplete
  generalize generateBounce cfg env .handoff w (failedPart msg h.permanent) h.permanent reason
    (some h.id) = answer at hbounce ⊢
  obtain ⟨result, bounced⟩ := answer
  simp only at hbounce ⊢
  have hstep : Transition cfg env msg.id w bounced := by
    have hsame := hbounce
    rw [← hstored] at hsame
    exact .bounce hheld hhandoff ⟨_, _, hstored.trans hid⟩
      (show (failedPart msg h.permanent).id = msg.id from rfl)
      (show names h.permanent = names (h.permanent.map DsnRecipient.persisted) by simp) hsame
  have hheld' := hheld.bounced hbounce
  have hserial := (hbounce.entry hheld.entry).2
  split
  · exact ⟨.single hstep, by simp⟩
  rename_i hfailed
  -- the failures are answered for, so the record may say that the handoff is complete
  have hanswered : ∀ o ∈ names h.permanent, Answered bounced (bounced.serial msg.id) o := by
    intro o ho
    rw [hserial]
    exact hbounce.answered hfailed haddress ho
  cases hupdate : updateMessage env .complete bounced
    (withHandoff msg { h with state := .complete }) with
  | none => exact ⟨.single hstep, by simp⟩
  | some completed =>
    have hedit := updateMessage_edits hheld'.sound hupdate
    have hcomplete : Transition cfg env msg.id bounced completed :=
      .complete hheld' hhandoff hedit hlive (recorded_withHandoff_handoff _ _) rfl
        (by simp [DsnHandoff.persisted]) (by simp [DsnHandoff.persisted])
        (by simpa [DsnHandoff.persisted] using hanswered)
    refine ⟨.tail (.single hstep) hcomplete, fun _ => ⟨_, hheld'.edits hedit hlive, ?_, ?_⟩⟩
    · simp [Message.retryable, recorded_withHandoff_handoff, DsnHandoff.persisted,
        List.Subperm.refl]
    · intro o ho
      simp [Message.outstanding, recorded_withHandoff_handoff, DsnHandoff.persisted,
        HandoffState.persisted] at ho
      exact .inl ho

theorem handOff_follows (hheld : Held w msg.id msg) (habsent : msg.handoff = .absent)
    (hpending : h.state = .pending)
    (hid : h.id = handoffID msg.id h.permanent)
    (hpartition : (names h.permanent ++ names h.temporary ++ names h.delivered).Perm
      msg.occurrences)
    (hanswered : ∀ o ∈ names h.delivered, Answered w (w.serial msg.id) o) (reason : Bytes) :
    AfterHandoff (Follows cfg env msg.id w) (Sorted · msg.id h.temporary)
      (handOff cfg env w msg h reason) := by
  have hlive := hheld.live
  unfold handOff
  cases hupdate : updateMessage env .intent w (withHandoff msg h) with
  | none => exact ⟨.refl, by simp⟩
  | some intended =>
    have hedit := updateMessage_edits hheld.sound hupdate
    have hintent : Transition cfg env msg.id w intended :=
      .intent hheld habsent hedit hlive (recorded_withHandoff_handoff _ _)
        (by simp [DsnHandoff.persisted, hpending, HandoffState.persisted])
        (by simpa [DsnHandoff.persisted] using hpartition)
        (by simpa [DsnHandoff.persisted] using hanswered)
    obtain ⟨hfollows, hsorted⟩ := bounceAndComplete_follows (hheld.edits hedit hlive) hlive
      (recorded_withHandoff_handoff msg h) hid reason
    exact ⟨.head hintent hfollows, hsorted⟩

end

/-! ## The outcomes of an attempt -/

def dispositions (msg : Message) (outcomes : List RecipientOutcome) : Dispositions :=
  classify msg.annotations ((recipientOccurrences msg).zip outcomes)

def World.noted (w : World) (cfg : Config) (msg : Message) (outcomes : List RecipientOutcome) :
    World :=
  w.record (outcomeFacts cfg.engine.host (w.serial msg.id) msg
    ((recipientOccurrences msg).zip outcomes))

def pendingHandoff (msg : Message) (d : Dispositions) : DsnHandoff :=
  { id := handoffID msg.id d.permanentR
    state := .pending
    permanent := d.permanentR
    temporary := d.temporaryR
    delivered := d.deliveredR }

def reducedAt (env : Env) (msg : Message) (d : Dispositions) : Message :=
  { reducedMessage msg d.temporaryR with updatedAt := env.now .reduce }

section

variable {cfg : Config} {env : Env} {w : World} {msg : Message} {k : Nat}
  {ps : List (Bytes × RecipientOutcome)} {outcomes : List RecipientOutcome}

/-- What holds wherever the handling of the outcomes can stop. `Mid` is what the handoff leaves, or
the outcomes alone when there is nobody to hand off. -/
theorem handleRecipientOutcomes_rule (P Mid : World → Prop) {noted : World} {d : Dispositions}
    {err : Option GoError} (hnoted : w.noted cfg msg outcomes = noted)
    (hd : dispositions msg outcomes = d)
    (hdone : d.temporaryR = [] → d.permanentR = [] → P (handleDeliverySuccess cfg env noted msg))
    (hhandoff : ∀ reason answer, handOff cfg env noted msg (pendingHandoff msg d) reason = answer →
      (answer.2 = false → P answer.1) ∧ (answer.2 = true → Mid answer.1))
    (hnone : ¬(d.permanentR ≠ [] ∧ isNullSender msg.mailFrom = false) → Mid noted)
    (hfinish : ∀ mid, Mid mid → d.temporaryR = [] → P (finalizeNoTemporary cfg env
      (observePartial env mid msg d.delivered d.temporaryR.length d.permanentR.length) msg))
    (hkept : ∀ mid, Mid mid → updateMessage env .reduce mid (reducedAt env msg d) = none → P mid)
    (hreduce : ∀ mid reduced, Mid mid → d.temporaryR ≠ [] →
      updateMessage env .reduce mid (reducedAt env msg d) = some reduced →
      P (handleDeliveryFailure cfg env (observePartial env reduced (reducedAt env msg d) d.delivered
        d.temporaryR.length d.permanentR.length) (reducedAt env msg d)
        (err.getD temporaryDeliveryFailure))) :
    P (handleRecipientOutcomes cfg env w msg outcomes err) := by
  unfold World.noted at hnoted
  unfold dispositions at hd
  unfold handleRecipientOutcomes
  simp only [hnoted, hd]
  split
  · rename_i hempty
    exact hdone hempty.1 hempty.2
  generalize hanswer : (if d.permanentR ≠ [] ∧ isNullSender msg.mailFrom = false then
    handOff cfg env noted msg
      { id := handoffID msg.id d.permanentR
        state := .pending
        permanent := d.permanentR
        temporary := d.temporaryR
        delivered := d.deliveredR } (outcomeReason d.firstPermanent err)
    else (noted, true)) = answer
  have hmid : (answer.2 = false → P answer.1) ∧ (answer.2 = true → Mid answer.1) := by
    subst hanswer
    split
    · exact hhandoff _ _ rfl
    · rename_i hnobody
      exact ⟨nofun, fun _ => hnone hnobody⟩
  split
  · rename_i hstop
    exact hmid.1 (by simpa using hstop)
  rename_i hgoOn
  have hready := hmid.2 (by simpa using hgoOn)
  split
  · exact hfinish _ hready ‹_›
  · split
    · exact hkept _ hready ‹_›
    · exact hreduce _ _ hready ‹_› ‹_›

theorem outcomeFacts_isOutcome {host : Host} {f : Fact} (hf : f ∈ outcomeFacts host k msg ps) :
    f.IsOutcome k := by
  rcases List.mem_append.1 hf with hdelivered | hfailed
  · obtain ⟨p, -, rfl⟩ := List.mem_map.1 hdelivered
    rfl
  · exact failureFacts_isOutcome hfailed

/-- A permanent failure that nobody is to be told of is answered for at once. -/
theorem answered_of_exempt {p : Bytes × RecipientOutcome} (hp : p ∈ ps)
    (hstatus : p.2.status = .permanentFailure)
    (hexempt : exemptFromDsn msg.mailFrom msg.annotations (outcomeRecipient p.1 p.2) = true) :
    Answered (w.record (outcomeFacts cfg.engine.host k msg ps)) k (Utf8.toValid p.1) := by
  have hmem : outcomeRecipient p.1 p.2 ∈
      (ps.filter fun p => p.2.status == .permanentFailure).map fun p =>
        outcomeRecipient p.1 p.2 :=
    List.mem_map.2 ⟨p, List.mem_filter.2 ⟨hp, by simp [hstatus]⟩, rfl⟩
  exact .inl (.inr (.inr (.inl (List.mem_append_right _ (List.mem_append_right _
    (exempt_mem_failureFacts hmem hexempt))))))

variable {o : Bytes}

theorem answered_deliveredR (ho : o ∈ names (dispositions msg outcomes).deliveredR) :
    Answered (w.noted cfg msg outcomes) (w.serial msg.id) o := by
  obtain ⟨r, hr, rfl⟩ := List.mem_map.1 ho
  obtain ⟨p, hp, rfl, hstatus | ⟨hstatus, hnever⟩⟩ := mem_deliveredR hr
  · have hfact : Fact.delivered (w.serial msg.id) (Utf8.toValid p.1) ∈ outcomeFacts cfg.engine.host
        (w.serial msg.id) msg ((recipientOccurrences msg).zip outcomes) :=
      List.mem_append_left _
        (List.mem_map.2 ⟨p, List.mem_filter.2 ⟨hp, by simp [hstatus]⟩, rfl⟩)
    exact .inl (.inl (List.mem_append_right _ hfact))
  · exact answered_of_exempt hp hstatus (by simp [exemptFromDsn, hnever])

theorem answered_permanentR (hnull : isNullSender msg.mailFrom = true)
    (ho : o ∈ names (dispositions msg outcomes).permanentR) :
    Answered (w.noted cfg msg outcomes) (w.serial msg.id) o := by
  obtain ⟨r, hr, rfl⟩ := List.mem_map.1 ho
  obtain ⟨p, hp, rfl, hstatus⟩ := mem_permanentR hr
  exact answered_of_exempt hp hstatus (by simp [exemptFromDsn, hnull])

theorem map_toValid_zip (hto : outcomes.map RecipientOutcome.recipient = msg.rcptTo) :
    (((recipientOccurrences msg).zip outcomes).map fun p => Utf8.toValid p.1) =
      msg.occurrences := by
  have hlen : (recipientOccurrences msg).length = outcomes.length := by
    rw [length_recipientOccurrences, ← hto, List.length_map]
  have hfst : ((recipientOccurrences msg).zip outcomes).map Prod.fst = recipientOccurrences msg :=
    List.map_fst_zip hlen.le
  calc
    _ = (((recipientOccurrences msg).zip outcomes).map Prod.fst).map Utf8.toValid := by
      rw [List.map_map]
      rfl
    _ = msg.occurrences := by
      rw [hfst]
      rfl

/-- The three groups are the envelope. -/
theorem dispositions_partition (hto : outcomes.map RecipientOutcome.recipient = msg.rcptTo)
    (hknown : ∀ o ∈ outcomes, o.status.known = true) :
    (names (dispositions msg outcomes).permanentR ++ names (dispositions msg outcomes).temporaryR ++
      names (dispositions msg outcomes).deliveredR).Perm msg.occurrences := by
  have hperm := (classify_perm msg.annotations ((recipientOccurrences msg).zip outcomes)
    (fun p hp => hknown p.2 (List.of_mem_zip hp).2)).map
      fun r : DsnRecipient => Utf8.toValid r.occurrence
  have hall : (((recipientOccurrences msg).zip outcomes).map fun p =>
      outcomeRecipient p.1 p.2).map (fun r => Utf8.toValid r.occurrence) = msg.occurrences := by
    rw [List.map_map]
    exact map_toValid_zip hto
  rw [hall] at hperm
  simpa only [names, dispositions, List.map_append] using hperm

variable (hheld : Held w msg.id msg) (habsent : msg.handoff = .absent)
  (hto : outcomes.map RecipientOutcome.recipient = msg.rcptTo)
  (hknown : ∀ o ∈ outcomes, o.status.known = true)

include hheld habsent hto hknown

/-- What is sorted once an attempt's outcomes are on record, when no handoff is needed. -/
theorem sorted_of_outcomes (cfg : Config)
    (hnone : ¬((dispositions msg outcomes).permanentR ≠ [] ∧ isNullSender msg.mailFrom = false)) :
    Sorted (w.noted cfg msg outcomes) msg.id (dispositions msg outcomes).temporaryR := by
  have hperm := dispositions_partition hto hknown
  refine ⟨msg, hheld.record _, ?_, ?_⟩
  · rw [retryable_of_absent habsent]
    refine List.Subperm.trans ?_ hperm.subperm
    exact ((List.sublist_append_right _ _).trans (List.sublist_append_left _ _)).subperm
  · intro o ho
    rw [outstanding_of_absent habsent] at ho
    rcases List.mem_append.1 (hperm.symm.subset ho) with ho | hdelivered
    · rcases List.mem_append.1 ho with hpermanent | htemporary
      · -- permanent failures are left here only when the sender is null
        right
        by_cases hnull : isNullSender msg.mailFrom = true
        · exact answered_permanentR hnull hpermanent
        have hempty : (dispositions msg outcomes).permanentR = [] := by
          by_contra hsome
          exact hnone ⟨hsome, by simpa using hnull⟩
        simp [hempty, names] at hpermanent
      · exact .inl htemporary
    · exact .inr (answered_deliveredR hdelivered)

theorem handOff_of_outcomes (cfg : Config) (env : Env) (reason : Bytes) :
    AfterHandoff (Follows cfg env msg.id (w.noted cfg msg outcomes))
      (Sorted · msg.id (dispositions msg outcomes).temporaryR)
      (handOff cfg env (w.noted cfg msg outcomes) msg
        (pendingHandoff msg (dispositions msg outcomes)) reason) :=
  handOff_follows (h := pendingHandoff msg (dispositions msg outcomes)) (hheld.record _) habsent rfl
    rfl (dispositions_partition hto hknown)
    (fun _ ho => answered_deliveredR ho) reason

theorem noted_attempted (err : Option GoError) :
    Attempted cfg env msg.id (w.noted cfg msg outcomes)
      (handleRecipientOutcomes cfg env w msg outcomes err) := by
  have hsorted := sorted_of_outcomes hheld habsent hto hknown cfg
  have hhandoff := handOff_of_outcomes hheld habsent hto hknown cfg env
  generalize hnoted : w.noted cfg msg outcomes = noted at hsorted hhandoff ⊢
  generalize hd : dispositions msg outcomes = d at hsorted hhandoff
  -- the handoff, when there is one, leaves the recipients sorted as well
  refine handleRecipientOutcomes_rule (Attempted cfg env msg.id noted)
    (fun mid => Follows cfg env msg.id noted mid ∧ Sorted mid msg.id d.temporaryR) hnoted hd
    ?_ ?_ ?_ ?_ ?_ ?_
  · intro htemporary hpermanent
    exact .stopped ((hsorted (by simp [hpermanent])).handleDeliverySuccess htemporary)
  · rintro reason answer rfl
    obtain ⟨hfollows, hready⟩ := hhandoff reason
    exact ⟨fun _ => .stopped hfollows, fun hgoOn => ⟨hfollows, hready hgoOn⟩⟩
  · exact fun hnone => ⟨.refl, hsorted hnone⟩
  · rintro mid ⟨hfollows, hready⟩ htemporary
    obtain ⟨hobserved, hsteps⟩ := Sorted.observePartial cfg env hready d.delivered
      d.temporaryR.length d.permanentR.length
    exact .stopped (hfollows.trans (hsteps.trans (hobserved.finalize htemporary)))
  · exact fun mid hmid _ => .stopped hmid.1
  · rintro mid reduced ⟨hfollows, hready⟩ - hreduced
    obtain ⟨hheld', hstep⟩ := Sorted.reduce cfg hreduced hready
      (occurrences_reducedMessage msg d.temporaryR) rfl hheld.live
    obtain ⟨m', hkept⟩ := observePartial_kept cfg env hheld' d.delivered
      d.temporaryR.length d.permanentR.length
    refine .after (hfollows.trans (hstep.trans hkept.follows))
      (handleDeliveryFailure_attempted hkept.held (hkept.absent rfl) ?_ _)
    rw [hkept.occurrences, occurrences_recorded]

theorem handleRecipientOutcomes_attempted (err : Option GoError) :
    Attempted cfg env msg.id w (handleRecipientOutcomes cfg env w msg outcomes err) :=
  .after (.single (.note hheld fun _ hf => outcomeFacts_isOutcome hf))
    (noted_attempted hheld habsent hto hknown err)

end

/-! ## Resuming a handoff -/

section

variable {cfg : Config} {env : Env} {w : World} {msg : Message} {h : DsnHandoff}

theorem validateDSNHandoff_eq_none (hvalid : validateDSNHandoff msg h = none) :
    (h.state = .pending ∨ h.state = .complete) ∧ h.id = handoffID msg.id h.permanent := by
  revert hvalid
  fun_cases validateDSNHandoff msg h with
  | case7 _ _ ids seen _ _ hid hknown =>
    refine fun _ => ⟨?_, not_not.1 hid⟩
    cases hs : h.state with
    | pending => exact .inl rfl
    | complete => exact .inr rfl
    | unknown text => exact absurd hs (hknown text)
  | _ => nofun

section

variable (hheld : Held w msg.id msg)

include hheld

/-- A record that was read from storage. -/
theorem Held.persisted_eq (hhandoff : msg.handoff = .recorded h) : h.persisted = h := by
  have hrec : msg.handoff.persisted = msg.handoff :=
    congrArg Message.handoff (hheld.sound.wf.recorded_eq hheld.entry)
  rw [hhandoff] at hrec
  exact HandoffNote.recorded.inj hrec

theorem resumeRecorded_attempted
    (hhandoff : msg.handoff = .recorded h) (hvalid : validateDSNHandoff msg h = none) :
    Attempted cfg env msg.id w (resumeRecorded cfg env w msg h) := by
  obtain ⟨hstate, hid⟩ := validateDSNHandoff_eq_none hvalid
  have hmid : AfterHandoff (Follows cfg env msg.id w) (Sorted · msg.id h.temporary)
      (resumeBounce cfg env w msg h) := by
    unfold resumeBounce
    split
    · exact bounceAndComplete_follows hheld hheld.live
        (by rw [hhandoff, hheld.persisted_eq hhandoff]) hid _
    rename_i hpending
    have hcomplete : h.state = .complete := hstate.resolve_left hpending
    refine ⟨.refl, fun _ => ⟨msg, hheld, ?_, ?_⟩⟩
    · simp [Message.retryable, hhandoff, List.Subperm.refl]
    · intro o ho
      simp only [Message.outstanding, hhandoff, hcomplete, if_true, List.nil_append] at ho
      exact .inl ho
  unfold resumeRecorded
  simp only
  obtain ⟨hfollows, hmid⟩ := hmid
  split
  · exact .stopped hfollows
  rename_i hgoOn
  have hready := hmid (by simpa using hgoOn)
  obtain ⟨hobserved, hsteps⟩ := Sorted.observePartial cfg env hready
    (h.delivered.map DsnRecipient.address) h.temporary.length h.permanent.length
  refine .after (hfollows.trans hsteps) ?_
  split
  · rename_i htemporary
    exact .stopped (hobserved.finalize htemporary)
  split
  · exact .stopped .refl
  rename_i reduced hreduced
  obtain ⟨hheld', hstep⟩ := Sorted.reduce cfg hreduced hobserved
    (occurrences_reducedMessage msg h.temporary) rfl hheld.live
  refine .after hstep (handleDeliveryFailure_attempted hheld' rfl ?_ _)
  rw [occurrences_recorded]

theorem quarantine_follows (defect : Bytes) :
    Follows cfg env msg.id w (quarantineInvalidDSNHandoff cfg env w msg defect) := by
  obtain ⟨m', hmoved⟩ := moveMessage_kept hheld
    (rfl : QueueType.hold.live = true) (lit "invalid DSN handoff: " ++ defect)
  exact hmoved.follows

theorem processMessage_attempted : Attempted cfg env msg.id w (processMessage cfg env w msg) := by
  unfold processMessage resumeDSNHandoff
  cases hhandoff : msg.handoff with
  | malformed => exact .stopped (quarantine_follows hheld _)
  | recorded h =>
    dsimp only
    cases hvalid : validateDSNHandoff msg h with
    | some defect => exact .stopped (quarantine_follows hheld _)
    | none => exact resumeRecorded_attempted hheld hhandoff hvalid
  | absent =>
    dsimp only
    split
    · split
      · exact .stopped .refl
      · exact .gaveUp .refl (moveToFailed_giveUp hheld hhandoff rfl _)
    · exact handleRecipientOutcomes_attempted hheld hhandoff
        (normalizeDeliveryResult_recipient _ _ _) (normalizeDeliveryResult_known _ _ _) _

end

end

end Elemta.Queue

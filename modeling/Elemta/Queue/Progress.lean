import Elemta.Queue.Tidy

/-!
# Attempts finish recipients once

With storage that works, an attempt moves the occurrences it finishes out of the
pending ones and touches no other, and what is finished is never offered to the
delivery handler again.
-/

namespace Elemta.Queue

open Bytes Bounce

/-! ## Attempts with storage that works -/

section

variable {cfg : Config} {env : Env} {w w' : World} {id : Bytes} {m msg : Message}
  (hok : ∀ site call, env.ok site call = true)

include hok

theorem updateMessage_isSome {site : Site} (hentry : w.store.entries msg.id = some m) :
    ∃ w', updateMessage env site w msg = some w' := by
  obtain ⟨s, hs⟩ := Manager.tryUpdate_isSome (hok site .update) hentry
  exact ⟨{ w with store := s }, by simp [updateMessage, hs]⟩

theorem deleteMessage_gone (hheld : Held w id m) (hvalid : Utf8.valid id = true) (site : Site) :
    Edits w id none (deleteMessage cfg env site w id) :=
  ⟨Manager.deleteMessage_removes (env.now site) (hok site) cfg.manager hheld.sound.wf
    hheld.entry hvalid, rfl, rfl, rfl⟩

theorem GiveUp.tidy (h : GiveUp cfg env id w w') (htidy : Tidy w)
    (hvalid : Utf8.valid id = true) : Tidy w' := by
  obtain ⟨held, absent, ours, failed, bounced, -, -, edit, -, removed⟩ := h
  subst ours
  have hm := htidy.entry _ _ not_false held.entry held.live
  obtain ⟨hbut, -, hfailed⟩ := htidy.bounce held bounced (by
    intro o ho
    rw [failed, ← retryable_of_absent absent] at ho
    exact hm.undelivered o ho)
  obtain ⟨hentry, hserial⟩ := bounced.entry held.entry
  refine hbut.edits edit hentry (fun _ hs => hs) ?_ ?_
  · -- whoever was pending has failed now
    intro _ o ho
    rw [retryable_of_absent absent, ← failed] at ho
    refine .inr (.inr ?_)
    rw [hserial]
    exact (hfailed o).2 (.inr ho)
  · intro m' _ hm' hlive
    rw [removed (hok .giveUp) hvalid m' hm'] at hlive
    cases hlive

theorem handleDeliveryFailure_tidy (hheld : Held w msg.id m) (htidy : Tidy w)
    (hvalid : Utf8.valid msg.id = true) (habsent : m.handoff = .absent)
    (hocc : msg.occurrences = m.occurrences) (err : GoError) :
    Tidy (handleDeliveryFailure cfg env w msg err) :=
  handleDeliveryFailure_rule Tidy hheld habsent hocc err
    (fun hkept giveUp => giveUp.tidy hok (htidy.keep hheld hkept) hvalid)
    fun _ hkept hmoved => (htidy.keep hheld hkept).keep hkept.held hmoved

/-! ## Recipients that an attempt has sorted -/

/-- The attempt has its outcomes on record: the recipients `ts` are unfinished, and everybody else
that the entry offers is finished. -/
structure Split (w : World) (id : Bytes) (m : Message) (ts : List DsnRecipient) : Prop where
  held : Held w id m
  tidy : TidyBut (fun id' => id' = id ∨ False) w
  rest : ∀ o ∈ m.retryable, o ∈ names ts ∨ Delivered w (w.serial id) o ∨
    FailedForGood w (w.serial id) o
  nodup : (names ts).Nodup
  accepted : ∀ o ∈ names ts, .accepted id (w.serial id) o ∈ w.ledger
  undelivered : ∀ o ∈ names ts, .delivered (w.serial id) o ∉ w.ledger
  unfailed : ∀ o ∈ names ts, .failed (w.serial id) o ∉ w.ledger

variable {ts : List DsnRecipient} {h : DsnHandoff} {outcomes : List RecipientOutcome}

omit hok in
theorem Split.kept {m' : Message} (h : Split w id m ts) (hkept : Kept cfg env id w m w' m') :
    Split w' id m' ts := by
  have htidy := h.tidy.keep h.held hkept
  obtain ⟨store, rfl⟩ := hkept.edit.exists_store
  exact ⟨hkept.held, htidy, retryable_congr hkept.envelope ▸ h.rest, h.nodup, h.accepted,
    h.undelivered, h.unfailed⟩

theorem Split.finalize (h : Split w id m ts) (hnone : ts = []) (hvalid : Utf8.valid id = true)
    (site : Site) : Tidy (deleteMessage cfg env site w id) := by
  subst hnone
  refine h.tidy.edits (deleteMessage_gone hok h.held hvalid site) h.held.entry (fun _ hs => hs) ?_
    nofun
  intro _ o ho
  rcases h.rest o ho with hts | hdone
  · simp [names] at hts
  · exact .inr hdone

omit hok in
theorem Split.reduce {reduced : Message} (hupdate : updateMessage env .reduce w reduced = some w')
    (h : Split w reduced.id m ts) (hocc : reduced.occurrences = names ts)
    (habsent : reduced.handoff = .absent) (hlive : reduced.queueType.live = true) :
    Held w' reduced.id (Store.recorded reduced) ∧ Tidy w' := by
  have hedit := updateMessage_edits h.held.sound hupdate
  have hnames : (Store.recorded reduced).occurrences = names ts := by
    rw [occurrences_recorded, hocc]
  have habsent' := recorded_absent habsent
  refine ⟨h.held.edits hedit hlive, h.tidy.edits hedit h.held.entry (fun _ hs => hs) ?_ ?_⟩
  · intro _ o ho
    rcases h.rest o ho with hts | hdone
    · exact .inl ⟨_, rfl, hlive, by rwa [retryable_of_absent habsent', hnames]⟩
    · exact .inr hdone
  · rintro _ _ ⟨⟩ _
    exact .of_absent habsent' hnames h.nodup h.accepted h.undelivered h.unfailed

omit hok in
/-- In a tidy world the entry of a handoff offers its temporary failures. -/
theorem Split.of_tidy (htidy : Tidy w) (hheld : Held w id m) (hhandoff : m.handoff = .recorded h)
    (hts : names ts = names h.temporary) : Split w id m ts := by
  have hm := htidy.entry id m not_false hheld.entry hheld.live
  have hretry : m.retryable = names ts := (retryable_of_recorded hhandoff).trans hts.symm
  exact ⟨hheld, htidy.mono fun _ hs => hs.elim, fun o ho => .inl (hretry ▸ ho),
    hretry ▸ nodup_retryable hm.nodup, hretry ▸ hm.accepted, hretry ▸ hm.undelivered,
    hretry ▸ hm.unfailed⟩

/-! ## Handing off -/

omit hok in
/-- The bounce of a handoff speaks of the permanent failures only, so the entry is as tidy as
before. -/
theorem Tidy.bounce_handoff {site : Site} {rs : List DsnRecipient} {reason : Bytes}
    {handoffID : Option Bytes} {result : BounceResult} (htidy : Tidy w) (hheld : Held w msg.id m)
    (hhandoff : m.handoff = .recorded h) (hrs : names rs = names h.permanent)
    (hbounce : Bounced cfg env site w msg rs reason handoffID result w') : Tidy w' := by
  have hm := htidy.entry msg.id m not_false hheld.entry hheld.live
  have hnodup := tracked_of_recorded hhandoff ▸ hm.nodup
  obtain ⟨hbut, hdelivered, hfailed⟩ := htidy.bounce hheld hbounce (by
    intro o ho hmem
    exact htidy.exclusive _ o hmem (hm.handed h hhandoff o (hrs ▸ ho)))
  obtain ⟨hentry, hserial⟩ := hbounce.entry hheld.entry
  refine TidyBut.restore hbut ?_
  intro m' hm' _
  obtain rfl := Option.some.inj (hentry.symm.trans hm')
  rw [hserial]
  refine hm.extend hbounce.ledger_subset (fun o _ hmem => hdelivered o hmem) ?_
  intro o ho hmem
  rcases (hfailed o).1 hmem with hold | hnew
  · exact hold
  · rw [retryable_of_recorded hhandoff] at ho
    exact absurd rfl ((List.nodup_append.1 hnodup).2.2 o (hrs ▸ hnew) o ho)

theorem bounceAndComplete_tidy (hheld : Held w msg.id m) (htidy : Tidy w)
    (hlive : msg.queueType.live = true) (hhandoff : m.handoff = .recorded h.persisted)
    (reason : Bytes) :
    AfterHandoff Tidy (fun w' => ∃ m', Split w' msg.id m' h.temporary)
      (bounceAndComplete cfg env w msg h reason) := by
  have hpersisted : names h.persisted.permanent = names h.permanent := names_persisted
  have htemporary : names h.persisted.temporary = names h.temporary := names_persisted
  have hbounce := generateBounce_cases cfg env .handoff hheld.sound (failedPart msg h.permanent)
    h.permanent reason (some h.id)
  unfold bounceAndComplete
  generalize generateBounce cfg env .handoff w (failedPart msg h.permanent) h.permanent reason
    (some h.id) = answer at hbounce ⊢
  obtain ⟨result, bounced⟩ := answer
  simp only at hbounce ⊢
  have hheld' : Held bounced msg.id m := hheld.bounced hbounce
  have htidy' : Tidy bounced :=
    htidy.bounce_handoff (show Held w (failedPart msg h.permanent).id m from hheld) hhandoff
      hpersisted.symm hbounce
  split
  · exact ⟨htidy', by simp⟩
  obtain ⟨completed, hcompleted⟩ :=
    @updateMessage_isSome env bounced m (withHandoff msg { h with state := .complete }) hok
      .complete hheld'.entry
  rw [hcompleted]
  have hedit := updateMessage_edits hheld'.sound hcompleted
  have hhandoff' := recorded_withHandoff_handoff msg { h with state := .complete }
  have hm := htidy'.entry msg.id m not_false hheld'.entry hheld'.live
  have hretry := retryable_of_recorded hhandoff
  have hcomplete : Tidy completed := by
    refine htidy'.edits hedit hheld'.entry (fun _ hs => hs.elim) ?_ ?_
    · intro _ o ho
      exact .inl ⟨_, rfl, hlive, (retryable_of_recorded hhandoff').trans hretry.symm ▸ ho⟩
    · rintro _ _ ⟨⟩ _
      exact .of_recorded hhandoff' (tracked_of_recorded hhandoff ▸ hm.nodup)
        (hretry ▸ hm.accepted) (hretry ▸ hm.undelivered) (hretry ▸ hm.unfailed)
        (hm.handed h.persisted hhandoff)
  exact ⟨hcomplete, fun _ =>
    ⟨_, Split.of_tidy hcomplete (hheld'.edits hedit hlive) hhandoff' htemporary.symm⟩⟩

/-! ## The outcomes of an attempt -/

structure Reported (w : World) (msg : Message) (permanent temporary done : List DsnRecipient) :
    Prop where
  partition : (names permanent ++ names temporary ++ names done).Perm msg.occurrences
  nodup : msg.occurrences.Nodup
  failed : ∀ o ∈ names permanent, .failed (w.serial msg.id) o ∈ w.ledger
  finished : ∀ o ∈ names done, Delivered w (w.serial msg.id) o ∨ FailedForGood w (w.serial msg.id) o
  accepted : ∀ o ∈ names temporary, .accepted msg.id (w.serial msg.id) o ∈ w.ledger
  undelivered : ∀ o ∈ names temporary, .delivered (w.serial msg.id) o ∉ w.ledger
  unfailed : ∀ o ∈ names temporary, .failed (w.serial msg.id) o ∉ w.ledger

section

variable {permanent temporary done : List DsnRecipient}

omit hok

theorem Reported.rest (h : Reported w msg permanent temporary done) {o : Bytes}
    (ho : o ∈ msg.occurrences) : o ∈ names temporary ∨ Delivered w (w.serial msg.id) o ∨
      FailedForGood w (w.serial msg.id) o := by
  rcases List.mem_append.1 (h.partition.symm.subset ho) with ho | hdone
  · rcases List.mem_append.1 ho with hpermanent | htemporary
    · exact .inr (.inr (h.failed o hpermanent))
    · exact .inl htemporary
  · exact .inr (h.finished o hdone)

theorem Reported.nodup_all (h : Reported w msg permanent temporary done) :
    (names permanent ++ names temporary).Nodup :=
  (List.nodup_append.1 (h.partition.nodup_iff.2 h.nodup)).1

theorem Reported.split (h : Reported w msg permanent temporary done) (hheld : Held w msg.id msg)
    (hbut : TidyBut (fun id' => id' = msg.id ∨ False) w) (habsent : msg.handoff = .absent) :
    Split w msg.id msg temporary := by
  refine ⟨hheld, hbut, ?_, (List.nodup_append.1 h.nodup_all).2.1, h.accepted, h.undelivered,
    h.unfailed⟩
  intro o ho
  rw [retryable_of_absent habsent] at ho
  exact h.rest ho

end

theorem handOff_tidy (hheld : Held w msg.id msg)
    (hbut : TidyBut (fun id' => id' = msg.id ∨ False) w) (habsent : msg.handoff = .absent)
    (hreported : Reported w msg h.permanent h.temporary h.delivered) (reason : Bytes) :
    AfterHandoff Tidy (fun w' => ∃ m', Split w' msg.id m' h.temporary)
      (handOff cfg env w msg h reason) := by
  obtain ⟨intended, hintended⟩ :=
    @updateMessage_isSome env w msg (withHandoff msg h) hok .intent hheld.entry
  have hedit := updateMessage_edits hheld.sound hintended
  have hhandoff := recorded_withHandoff_handoff msg h
  have htemporary : names h.persisted.temporary = names h.temporary := names_persisted
  have hpermanent : names h.persisted.permanent = names h.permanent := names_persisted
  have htidy : Tidy intended := by
    refine hbut.edits hedit hheld.entry (fun _ hs => hs) ?_ ?_
    · intro _ o ho
      rw [retryable_of_absent habsent] at ho
      rcases hreported.rest ho with hopen | hfinished
      · exact .inl ⟨_, rfl, hheld.live, by rwa [retryable_of_recorded hhandoff, htemporary]⟩
      · exact .inr hfinished
    · rintro _ _ ⟨⟩ _
      exact .of_recorded hhandoff (by rw [hpermanent, htemporary]; exact hreported.nodup_all)
        (htemporary ▸ hreported.accepted) (htemporary ▸ hreported.undelivered)
        (htemporary ▸ hreported.unfailed) (hpermanent ▸ hreported.failed)
  unfold handOff
  rw [hintended]
  exact bounceAndComplete_tidy hok (hheld.edits hedit hheld.live) htidy hheld.live hhandoff reason

section

variable {ps : List (Bytes × RecipientOutcome)} {host : Host} {k : Nat} {o : Bytes}

omit hok

theorem delivered_mem_outcomeFacts : .delivered k o ∈ outcomeFacts host k msg ps ↔
    ∃ p ∈ ps, p.2.status = .delivered ∧ Utf8.toValid p.1 = o := by
  constructor
  · intro h
    rcases List.mem_append.1 h with h | h
    · obtain ⟨p, hp, heq⟩ := List.mem_map.1 h
      obtain ⟨hp, hstatus⟩ := List.mem_filter.1 hp
      exact ⟨p, hp, by simpa using hstatus, (Fact.delivered.inj heq).2⟩
    · exact absurd h delivered_not_mem_failureFacts
  · rintro ⟨p, hp, hstatus, rfl⟩
    exact List.mem_append_left _
      (List.mem_map.2 ⟨p, List.mem_filter.2 ⟨hp, by simp [hstatus]⟩, rfl⟩)

theorem failed_mem_outcomeFacts : .failed k o ∈ outcomeFacts host k msg ps ↔
    ∃ p ∈ ps, p.2.status = .permanentFailure ∧ Utf8.toValid p.1 = o := by
  constructor
  · intro h
    rcases List.mem_append.1 h with h | h
    · obtain ⟨p, -, heq⟩ := List.mem_map.1 h
      cases heq
    obtain ⟨r, hr, rfl⟩ := List.mem_map.1 (failed_mem_failureFacts.1 h)
    obtain ⟨p, hp, rfl⟩ := List.mem_map.1 hr
    obtain ⟨hp, hstatus⟩ := List.mem_filter.1 hp
    exact ⟨p, hp, by simpa using hstatus, rfl⟩
  · rintro ⟨p, hp, hstatus, rfl⟩
    refine List.mem_append_right _ (failed_mem_failureFacts.2 (List.mem_map.2
      ⟨outcomeRecipient p.1 p.2, ?_, rfl⟩))
    exact List.mem_map.2 ⟨p, List.mem_filter.2 ⟨hp, by simp [hstatus]⟩, rfl⟩

end

omit hok in
/-- The outcomes of an attempt on a tidy entry, put on record. -/
theorem reported_of_outcomes (cfg : Config) (hheld : Held w msg.id msg) (htidy : Tidy w)
    (habsent : msg.handoff = .absent) (hto : outcomes.map RecipientOutcome.recipient = msg.rcptTo)
    (hknown : ∀ o ∈ outcomes, o.status.known = true) :
    TidyBut (fun id' => id' = msg.id ∨ False) (w.noted cfg msg outcomes) ∧
      Reported (w.noted cfg msg outcomes) msg (dispositions msg outcomes).permanentR
        (dispositions msg outcomes).temporaryR (dispositions msg outcomes).deliveredR := by
  have hps := map_toValid_zip hto
  have hperm := dispositions_partition hto hknown
  unfold dispositions World.noted at *
  generalize (recipientOccurrences msg).zip outcomes = ps at hps hperm ⊢
  have hm := htidy.entry msg.id msg not_false hheld.entry hheld.live
  have hretry := retryable_of_absent habsent
  have hnodup : msg.occurrences.Nodup := tracked_of_absent habsent ▸ hm.nodup
  -- an occurrence has one outcome
  have hone : ∀ p ∈ ps, ∀ q ∈ ps, Utf8.toValid p.1 = Utf8.toValid q.1 → p = q :=
    List.inj_on_of_nodup_map (hps ▸ hnodup)
  have hmem : ∀ p ∈ ps, Utf8.toValid p.1 ∈ msg.retryable := by
    intro p hp
    rw [hretry, ← hps]
    exact List.mem_map.2 ⟨p, hp, rfl⟩
  refine ⟨?_, hperm, hnodup, ?_, ?_, ?_, ?_, ?_⟩
  · refine htidy.note hheld (fun f hf => outcomeFacts_isOutcome hf) ?_ ?_
    · intro o hdelivered
      obtain ⟨p, hp, hstatus, rfl⟩ := delivered_mem_outcomeFacts.1 hdelivered
      refine ⟨hm.unfailed _ (hmem p hp), ?_⟩
      intro hfailed
      obtain ⟨q, hq, hstatus', heq⟩ := failed_mem_outcomeFacts.1 hfailed
      rw [hone q hq p hp heq, hstatus] at hstatus'
      cases hstatus'
    · intro o hfailed
      obtain ⟨p, hp, -, rfl⟩ := failed_mem_outcomeFacts.1 hfailed
      exact hm.undelivered _ (hmem p hp)
  · intro o ho
    obtain ⟨r, hr, rfl⟩ := List.mem_map.1 ho
    obtain ⟨p, hp, rfl, hstatus⟩ := mem_permanentR hr
    exact List.mem_append_right _ (failed_mem_outcomeFacts.2 ⟨p, hp, hstatus, rfl⟩)
  · intro o ho
    obtain ⟨r, hr, rfl⟩ := List.mem_map.1 ho
    obtain ⟨p, hp, rfl, hstatus | ⟨hstatus, -⟩⟩ := mem_deliveredR hr
    · exact .inl (List.mem_append_right _ (delivered_mem_outcomeFacts.2 ⟨p, hp, hstatus, rfl⟩))
    · exact .inr (List.mem_append_right _ (failed_mem_outcomeFacts.2 ⟨p, hp, hstatus, rfl⟩))
  all_goals
    intro o ho
    obtain ⟨r, hr, rfl⟩ := List.mem_map.1 ho
    obtain ⟨p, hp, rfl, hstatus⟩ := mem_temporaryR hr
  · exact List.mem_append_left _ (hm.accepted _ (hmem p hp))
  · intro hdelivered
    rcases List.mem_append.1 hdelivered with hold | hnew
    · exact hm.undelivered _ (hmem p hp) hold
    · obtain ⟨q, hq, hstatus', heq⟩ := delivered_mem_outcomeFacts.1 hnew
      rw [hone q hq p hp heq, hstatus] at hstatus'
      cases hstatus'
  · intro hfailed
    rcases List.mem_append.1 hfailed with hold | hnew
    · exact hm.unfailed _ (hmem p hp) hold
    · obtain ⟨q, hq, hstatus', heq⟩ := failed_mem_outcomeFacts.1 hnew
      rw [hone q hq p hp heq, hstatus] at hstatus'
      cases hstatus'

section

variable (hheld : Held w msg.id msg) (htidy : Tidy w)

include hheld htidy

theorem handleRecipientOutcomes_tidy (hvalid : Utf8.valid msg.id = true)
    (habsent : msg.handoff = .absent) (hto : outcomes.map RecipientOutcome.recipient = msg.rcptTo)
    (hknown : ∀ o ∈ outcomes, o.status.known = true) (err : Option GoError) :
    Tidy (handleRecipientOutcomes cfg env w msg outcomes err) := by
  obtain ⟨hbut, hreported⟩ := reported_of_outcomes cfg hheld htidy habsent hto hknown
  have hheld' : Held (w.noted cfg msg outcomes) msg.id msg := hheld.record _
  generalize hnoted : w.noted cfg msg outcomes = noted at hbut hreported hheld'
  generalize hd : dispositions msg outcomes = d at hreported
  have hsplit := hreported.split hheld' hbut habsent
  -- an attempt that stops after a handoff leaves a tidy world, one that goes on a split one
  refine handleRecipientOutcomes_rule Tidy (fun mid => ∃ m', Split mid msg.id m' d.temporaryR)
    hnoted hd ?_ ?_ ?_ ?_ ?_ ?_
  · intro htemporary _
    obtain ⟨m', hkept⟩ := addAttempt_kept cfg env hheld' .deliveredAttempt (lit "delivered") []
    exact (hsplit.kept hkept).finalize hok htemporary hvalid .finalize
  · rintro reason answer rfl
    obtain ⟨htidy', hgo⟩ := @handOff_tidy cfg env noted msg hok (pendingHandoff msg d) hheld' hbut
      habsent hreported reason
    exact ⟨fun _ => htidy', hgo⟩
  · exact fun _ => ⟨msg, hsplit⟩
  · rintro mid ⟨m', hsplit'⟩ htemporary
    obtain ⟨m'', hkept⟩ := observePartial_kept cfg env hsplit'.held d.delivered
      d.temporaryR.length d.permanentR.length
    exact (hsplit'.kept hkept).finalize hok htemporary hvalid .finalize
  · rintro mid ⟨m', hsplit'⟩ hfailed
    obtain ⟨reduced, hreduced⟩ := @updateMessage_isSome env mid m' (reducedAt env msg d) hok .reduce
      hsplit'.held.entry
    rw [hreduced] at hfailed
    cases hfailed
  · rintro mid reduced ⟨m', hsplit'⟩ - hreduced
    obtain ⟨hheld'', htidy''⟩ := Split.reduce hreduced hsplit'
      (occurrences_reducedMessage msg d.temporaryR) rfl hheld.live
    obtain ⟨m'', hkept⟩ := observePartial_kept cfg env hheld'' d.delivered
      d.temporaryR.length d.permanentR.length
    refine handleDeliveryFailure_tidy hok hkept.held (htidy''.keep hheld'' hkept) hvalid
      (hkept.absent rfl) ?_ _
    rw [hkept.occurrences, occurrences_recorded]

theorem resumeRecorded_tidy
    (hvalid : Utf8.valid msg.id = true) (hhandoff : msg.handoff = .recorded h) :
    Tidy (resumeRecorded cfg env w msg h) := by
  have hmid : AfterHandoff Tidy (fun w' => ∃ m', Split w' msg.id m' h.temporary)
      (resumeBounce cfg env w msg h) := by
    unfold resumeBounce
    split
    · exact @bounceAndComplete_tidy cfg env w msg msg hok h hheld htidy hheld.live
        (by rw [hhandoff, hheld.persisted_eq hhandoff]) (recordedReason h.permanent)
    · exact ⟨htidy, fun _ => ⟨msg, Split.of_tidy htidy hheld hhandoff rfl⟩⟩
  unfold resumeRecorded
  simp only
  split
  · exact hmid.1
  rename_i hgoOn
  obtain ⟨m', hsplit⟩ := hmid.2 (by simpa using hgoOn)
  obtain ⟨m'', hkept⟩ := observePartial_kept cfg env hsplit.held
    (h.delivered.map DsnRecipient.address) h.temporary.length h.permanent.length
  have hsplit' := hsplit.kept hkept
  split
  · rename_i htemporary
    exact hsplit'.finalize hok htemporary hvalid .finalize
  obtain ⟨reduced, hreduced⟩ := @updateMessage_isSome env _ m''
    (reducedMessage msg h.temporary) hok .reduce hsplit'.held.entry
  rw [hreduced]
  obtain ⟨hheld', htidy'⟩ := Split.reduce hreduced hsplit'
    (occurrences_reducedMessage msg h.temporary) rfl hheld.live
  exact handleDeliveryFailure_tidy hok hheld' htidy' hvalid rfl (occurrences_recorded _).symm _

omit hok in
theorem quarantine_tidy (defect : Bytes) :
    Tidy (quarantineInvalidDSNHandoff cfg env w msg defect) := by
  obtain ⟨m', hmoved⟩ := moveMessage_kept hheld
    (rfl : QueueType.hold.live = true) (lit "invalid DSN handoff: " ++ defect)
  exact htidy.keep hheld hmoved

theorem processMessage_tidy
    (hvalid : Utf8.valid msg.id = true) : Tidy (processMessage cfg env w msg) := by
  unfold processMessage resumeDSNHandoff
  cases hhandoff : msg.handoff with
  | malformed => exact quarantine_tidy hheld htidy _
  | recorded h =>
    dsimp only
    cases hdefect : validateDSNHandoff msg h with
    | some defect => exact quarantine_tidy hheld htidy _
    | none => exact resumeRecorded_tidy hok hheld htidy hvalid hhandoff
  | absent =>
    obtain ⟨content, hcontent⟩ := hheld.sound.wf.has_content hheld.entry
    have hread : Manager.getMessageContent (env.ok .content) w.store msg.id = some content := by
      simp [Manager.getMessageContent, hok, Store.retrieveContent, hcontent]
    rw [hread]
    exact handleRecipientOutcomes_tidy hok hheld htidy hvalid hhandoff
      (normalizeDeliveryResult_recipient _ _ _) (normalizeDeliveryResult_known _ _ _) _

end

end

/-! ## What goes on record -/

/-- The outcome that the attempt goes by for each occurrence; a missing report is temporary. -/
def attemptOutcomes (answer : Option DeliveryResult × Option GoError) (msg : Message) :
    List (Bytes × RecipientOutcome) :=
  (recipientOccurrences msg).zip
    (normalizeDeliveryResult msg.rcptTo answer.1 answer.2).1.recipientOutcomes

variable {env : Env} {msg m : Message} {content : Bytes}

theorem message_of_offered {w : World} (h : offered env w msg = some (m, content)) : m = msg := by
  unfold offered at h
  split at h
  · obtain ⟨_, -, heq⟩ := Option.map_eq_some_iff.1 h
    exact (congrArg Prod.fst heq).symm
  · cases h

theorem processMessage_of_offered (cfg : Config) {w : World}
    (hoffered : offered env w msg = some (msg, content)) :
    msg.handoff = .absent ∧
      processMessage cfg env w msg =
        handleRecipientOutcomes cfg env w msg
          (normalizeDeliveryResult msg.rcptTo (env.deliver msg content).1
            (env.deliver msg content).2).1.recipientOutcomes
          (normalizeDeliveryResult msg.rcptTo (env.deliver msg content).1
            (env.deliver msg content).2).2 := by
  unfold offered at hoffered
  cases hhandoff : msg.handoff with
  | malformed | recorded => simp [hhandoff] at hoffered
  | absent =>
    rw [hhandoff] at hoffered
    obtain ⟨content', hread, heq⟩ := Option.map_eq_some_iff.1 hoffered
    obtain rfl : content' = content := congrArg Prod.snd heq
    exact ⟨rfl, by simp [processMessage, resumeDSNHandoff, hhandoff, hread]⟩

def World.deliveries (w : World) : List (Nat × Bytes) :=
  w.ledger.filterMap fun
    | .delivered k o => some (k, o)
    | _ => none

theorem World.mem_deliveries {w : World} {k : Nat} {o : Bytes} :
    (k, o) ∈ w.deliveries ↔ Delivered w k o := by
  simp only [World.deliveries, List.mem_filterMap, Delivered]
  constructor
  · rintro ⟨f, hf, heq⟩
    split at heq <;> cases heq
    exact hf
  · exact fun h => ⟨_, h, rfl⟩

section

variable {cfg : Config} {env : Env} {w : World} {msg : Message}

theorem deliveries_record {facts : List Fact} (h : ∀ k o, .delivered k o ∉ facts) :
    (w.record facts).deliveries = w.deliveries := by
  have hnone : World.deliveries { w with ledger := facts } = [] :=
    List.eq_nil_iff_forall_not_mem.2 fun p hp => h p.1 p.2 (World.mem_deliveries.1 hp)
  unfold World.deliveries at hnone ⊢
  rw [World.record, List.filterMap_append, hnone, List.append_nil]

theorem deliveries_generateBounce {site : Site} {rs : List DsnRecipient} {reason : Bytes}
    {handoffID : Option Bytes} :
    (generateBounce cfg env site w msg rs reason handoffID).2.deliveries = w.deliveries := by
  have hfailures : (w.record (failureFacts cfg.engine.host (w.serial msg.id) msg rs)).deliveries =
      w.deliveries := deliveries_record fun _ _ => delivered_not_mem_failureFacts
  unfold generateBounce
  dsimp only
  split
  · exact hfailures
  split
  · exact hfailures
  · rename_i req _ _ bounced hbounced
    have henqueued : bounced.deliveries = w.deliveries := by
      rw [← hfailures]
      split at hbounced
      · unfold World.enqueue at hbounced
        split at hbounced <;> cases hbounced
        · rfl
        · exact deliveries_record (by simp)
      · cases hbounced
    rw [deliveries_record, henqueued]
    intro k o hmem
    simp [bounceFacts] at hmem

theorem deliveries_updateMessage {site : Site} {w' : World}
    (h : updateMessage env site w msg = some w') : w'.deliveries = w.deliveries := by
  obtain ⟨store, -, rfl⟩ := Option.map_eq_some_iff.1 h
  rfl

theorem deliveries_observePartial {delivered : List Bytes} {temporary permanent : Nat} :
    (observePartial env w msg delivered temporary permanent).deliveries = w.deliveries := by
  unfold observePartial
  split <;> rfl

theorem deliveries_moveToFailed {reason : Bytes} :
    (moveToFailed cfg env w msg reason).deliveries = w.deliveries := by
  have hbounce := @deliveries_generateBounce cfg env w msg .giveUpBounce (envelopeRecipients msg)
    reason none
  unfold moveToFailed
  split <;> exact hbounce

theorem deliveries_handleDeliveryFailure {err : GoError} :
    (handleDeliveryFailure cfg env w msg err).deliveries = w.deliveries := by
  unfold handleDeliveryFailure
  dsimp only
  split
  · exact deliveries_moveToFailed
  · split
    · exact deliveries_moveToFailed
    · rfl

theorem deliveries_handOff {h : DsnHandoff} {reason : Bytes} :
    (handOff cfg env w msg h reason).1.deliveries = w.deliveries := by
  unfold handOff bounceAndComplete
  split
  · rfl
  rename_i w₁ hintent
  have hbounce := @deliveries_generateBounce cfg env w₁ (failedPart msg h.permanent) .handoff
    h.permanent reason (some h.id)
  rw [deliveries_updateMessage hintent] at hbounce
  dsimp only
  split
  · exact hbounce
  · split
    · exact hbounce
    · rename_i hcomplete
      exact (deliveries_updateMessage hcomplete).trans hbounce

theorem deliveries_handleRecipientOutcomes {outcomes : List RecipientOutcome}
    {err : Option GoError} :
    (handleRecipientOutcomes cfg env w msg outcomes err).deliveries =
      (w.noted cfg msg outcomes).deliveries := by
  generalize hnoted : w.noted cfg msg outcomes = noted
  refine handleRecipientOutcomes_rule (·.deliveries = noted.deliveries)
    (·.deliveries = noted.deliveries) hnoted rfl ?_ ?_ ?_ ?_ ?_ ?_
  · exact fun _ _ => rfl
  · rintro reason answer rfl
    exact ⟨fun _ => deliveries_handOff, fun _ => deliveries_handOff⟩
  · exact fun _ => rfl
  · exact fun mid hmid _ => deliveries_observePartial.trans hmid
  · exact fun mid hmid _ => hmid
  · intro mid reduced hmid _ hreduced
    rw [deliveries_handleDeliveryFailure, deliveries_observePartial,
      deliveries_updateMessage hreduced, hmid]

end

/-! ## Runs -/

/-- Inputs of a run in which storage works and nobody takes mail out of the queue. -/
def Undisturbed (w : World) : Input → Prop
  | .attempt id env => (∀ site call, env.ok site call = true) ∧ Utf8.valid id = true
  | .hold id _ _ _ => ∀ m, w.store.entries id = some m → m.queueType ≠ .failed
  | .requeue id _ _ _ _ => ∀ m, w.store.entries id = some m → m.queueType ≠ .failed
  | .cleanup _ => False
  | .delete _ _ _ => False
  | .flush _ => False
  | _ => True

variable {i : Input} {w : World} {id : Bytes}

theorem Undisturbed.not_removes (h : Undisturbed w i) : ¬i.Removes := by
  cases i with
  | cleanup | delete | flush => exact h.elim
  | _ => exact not_false

theorem Undisturbed.not_failed (h : Undisturbed w i) (hlifts : i.Lifts id)
    (hentry : w.store.entries id = some m) : m.queueType ≠ .failed := by
  cases i with
  | hold id' reason ok now =>
    obtain rfl : id' = id := hlifts
    exact h m hentry
  | requeue id' reason stamp ok now =>
    obtain rfl : id' = id := hlifts
    exact h m hentry
  | _ => exact hlifts.elim

theorem attempt_tidy (cfg : Config) (hw : w.Sound)
    (hok : ∀ site call, env.ok site call = true) (hvalid : Utf8.valid id = true) (htidy : Tidy w) :
    Tidy (step cfg w (.attempt id env)) := by
  unfold step
  simp only
  cases hclaim : claim w id with
  | none => exact htidy
  | some msg =>
    obtain ⟨hentry, hactive⟩ := claim_eq_some hclaim
    obtain rfl : msg.id = id := hw.wf.id_eq hentry
    exact processMessage_tidy hok ⟨hw, hentry, by rw [hactive]; rfl⟩ htidy hvalid

theorem step_tidy (cfg : Config) (hw : w.Sound) (hinput : Undisturbed w i) (htidy : Tidy w) :
    Tidy (step cfg w i) := by
  have heffect := step_effect cfg hw i
  generalize hstep : step cfg w i = w' at heffect ⊢
  cases heffect with
  | idle => exact htidy
  | enqueued fresh enqueued => exact htidy.enqueued fresh enqueued
  | rewritten entry edit envelope queue =>
    rename_i id m m'
    refine htidy.edits edit entry (fun _ hs => hs.elim) ?_ ?_
    · intro hlive o ho
      refine .inl ⟨m', rfl, ?_, by rw [retryable_congr envelope]; exact ho⟩
      rcases queue with hsame | ⟨hlive', -⟩
      · rw [hsame]
        exact hlive
      · exact hlive'
    · rintro _ _ ⟨⟩ hlive
      have hlive' : m.queueType.live = true :=
        live_of_queue queue (fun hlifts => hinput.not_failed hlifts entry) hlive
      exact (htidy.entry id m not_false entry hlive').congr envelope
  | attempted entry active attempted =>
    rw [← hstep]
    exact attempt_tidy cfg hw hinput.1 hinput.2 htidy
  | shrunk input => exact absurd input hinput.not_removes

theorem run_tidy (cfg : Config) {inputs : List Input}
    (hrun : Machine.Along (step cfg) Undisturbed World.initial inputs) :
    (Machine.run (step cfg) World.initial inputs).Sound ∧
      Tidy (Machine.run (step cfg) World.initial inputs) := by
  refine hrun.run_invariant (fun w => w.Sound ∧ Tidy w) ?_ ⟨World.Sound.initial, Tidy.initial⟩
  rintro w i hinput ⟨hw, htidy⟩
  exact ⟨(step_effect cfg hw i).sound hw, step_tidy cfg hw hinput htidy⟩

/-! ## What an attempt does to the pending recipients -/

def ExactlyOne (p q r : Prop) : Prop :=
  (p ∧ ¬q ∧ ¬r) ∨ (¬p ∧ q ∧ ¬r) ∨ (¬p ∧ ¬q ∧ r)

def FinishedBy (w w' : World) (k : Nat) (o : Bytes) : Prop :=
  (Delivered w' k o ∧ ¬Delivered w k o) ∨ (FailedForGood w' k o ∧ ¬FailedForGood w k o)

section

variable {w w' : World} {id : Bytes} {k : Nat} {o : Bytes}

theorem Tidy.pending_unfinished (h : Tidy w) (hpending : Pending w id k o) :
    ¬Delivered w k o ∧ ¬FailedForGood w k o := by
  obtain ⟨m, hentry, hlive, rfl, ho⟩ := hpending
  have hm := h.entry id m not_false hentry hlive
  exact ⟨hm.undelivered o ho, hm.unfailed o ho⟩

theorem Tidy.exactlyOne (h : Tidy w) (haccepted : .accepted id k o ∈ w.ledger) :
    ExactlyOne (Pending w id k o) (Delivered w k o) (FailedForGood w k o) := by
  by_cases hpending : Pending w id k o
  · exact .inl ⟨hpending, h.pending_unfinished hpending⟩
  rcases h.covered id k o haccepted with hp | hd | hf
  · exact absurd hp hpending
  · exact .inr (.inl ⟨hpending, hd, h.exclusive k o hd⟩)
  · exact .inr (.inr ⟨hpending, fun hd => h.exclusive k o hd hf, hf⟩)

/-- Between tidy worlds of which one continues the record of the other, the pending occurrences
are those that were pending and were not finished in between. -/
theorem Tidy.pending_iff (h : Tidy w) (h' : Tidy w') (hsub : w.ledger ⊆ w'.ledger)
    (haccepted : .accepted id k o ∈ w.ledger) :
    Pending w' id k o ↔ Pending w id k o ∧ ¬FinishedBy w w' k o := by
  constructor
  · intro hpending
    obtain ⟨hd', hf'⟩ := h'.pending_unfinished hpending
    refine ⟨?_, ?_⟩
    · rcases h.covered id k o haccepted with hp | hd | hf
      · exact hp
      · exact absurd (hsub hd) hd'
      · exact absurd (hsub hf) hf'
    · rintro (⟨hd, -⟩ | ⟨hf, -⟩)
      · exact hd' hd
      · exact hf' hf
  · rintro ⟨hpending, hunfinished⟩
    obtain ⟨hd, hf⟩ := h.pending_unfinished hpending
    rcases h'.covered id k o (hsub haccepted) with hp | hd' | hf'
    · exact hp
    · exact absurd (.inl ⟨hd', hd⟩) hunfinished
    · exact absurd (.inr ⟨hf', hf⟩) hunfinished

theorem Tidy.offered_unfinished (h : Tidy w) {env : Env} {msg m : Message} {content : Bytes}
    (hclaim : claim w id = some msg) (hoffered : offered env w msg = some (m, content))
    (ho : o ∈ m.occurrences) :
    ¬Delivered w (w.serial id) o ∧ ¬FailedForGood w (w.serial id) o ∧
      ∀ dsn, .bounced (w.serial id) o dsn ∉ w.ledger := by
  obtain ⟨hentry, hactive⟩ := claim_eq_some hclaim
  have hm := h.entry id msg not_false hentry (by rw [hactive]; rfl)
  unfold offered at hoffered
  split at hoffered
  · rename_i habsent
    obtain ⟨c, -, heq⟩ := Option.map_eq_some_iff.1 hoffered
    cases heq
    rw [← retryable_of_absent habsent] at ho
    refine ⟨hm.undelivered o ho, hm.unfailed o ho, ?_⟩
    intro dsn hbounced
    exact hm.unfailed o ho (h.bounced _ o dsn hbounced)
  · simp at hoffered

end

/-- An attempt puts on record what the handler reports, and no other delivery. -/
theorem Tidy.recorded (h : Tidy w) (cfg : Config) (hw : w.Sound) (hclaim : claim w id = some msg)
    (hoffered : offered env w msg = some (m, content)) {p : Bytes × RecipientOutcome}
    (hp : p ∈ attemptOutcomes (env.deliver m content) m) :
    (Delivered (step cfg w (.attempt id env)) (w.serial id) (Utf8.toValid p.1) ↔
      p.2.status = .delivered) ∧
    (p.2.status = .permanentFailure →
      FailedForGood (step cfg w (.attempt id env)) (w.serial id) (Utf8.toValid p.1)) := by
  obtain rfl := message_of_offered hoffered
  obtain ⟨hentry, hactive⟩ := claim_eq_some hclaim
  obtain rfl : m.id = id := hw.wf.id_eq hentry
  have hheld : Held w m.id m := ⟨hw, hentry, by rw [hactive]; rfl⟩
  obtain ⟨habsent, hprocess⟩ := processMessage_of_offered cfg hoffered
  have hto := normalizeDeliveryResult_recipient m.rcptTo (env.deliver m content).1
    (env.deliver m content).2
  have hknown := normalizeDeliveryResult_known m.rcptTo (env.deliver m content).1
    (env.deliver m content).2
  have hps := map_toValid_zip hto
  have hunfinished := h.offered_unfinished hclaim hoffered (hps ▸ List.mem_map.2 ⟨p, hp, rfl⟩)
  have hnodup : m.occurrences.Nodup :=
    tracked_of_absent habsent ▸ (h.entry m.id m not_false hentry hheld.live).nodup
  have hstep : step cfg w (.attempt m.id env) = processMessage cfg env w m := by
    simp [step, hclaim]
  rw [hstep, hprocess]
  constructor
  · rw [← World.mem_deliveries, deliveries_handleRecipientOutcomes, World.mem_deliveries]
    constructor
    · intro hdelivered
      have hnew := (List.mem_append.1 hdelivered).resolve_left hunfinished.1
      obtain ⟨q, hq, hstatus, heq⟩ := delivered_mem_outcomeFacts.1 hnew
      rwa [List.inj_on_of_nodup_map (hps ▸ hnodup) hp hq heq.symm]
    · intro hstatus
      exact List.mem_append_right _ (delivered_mem_outcomeFacts.2 ⟨p, hp, hstatus, rfl⟩)
  · intro hstatus
    exact (noted_attempted hheld habsent hto hknown _).ledger_subset
      (List.mem_append_right _ (failed_mem_outcomeFacts.2 ⟨p, hp, hstatus, rfl⟩))

/-- In every undisturbed run each accepted occurrence is pending, delivered or failed for good,
and only one of these; and the next attempt offers nothing that is finished, puts on record what
the handler reports, and leaves pending exactly what was pending before and what it did not
finish. -/
theorem run_progress (cfg : Config) {inputs : List Input} {w : World}
    (hrun : Machine.Along (step cfg) Undisturbed World.initial inputs)
    (hw : w = Machine.run (step cfg) World.initial inputs) :
    (∀ id k o, .accepted id k o ∈ w.ledger →
      ExactlyOne (Pending w id k o) (Delivered w k o) (FailedForGood w k o)) ∧
    ∀ id env, Undisturbed w (.attempt id env) →
      (∀ msg m content o, claim w id = some msg → offered env w msg = some (m, content) →
        o ∈ m.occurrences →
          ¬Delivered w (w.serial id) o ∧ ¬FailedForGood w (w.serial id) o ∧
            ∀ dsn, .bounced (w.serial id) o dsn ∉ w.ledger) ∧
      (∀ msg m content, claim w id = some msg → offered env w msg = some (m, content) →
        ∀ p ∈ attemptOutcomes (env.deliver m content) m,
          (Delivered (step cfg w (.attempt id env)) (w.serial id) (Utf8.toValid p.1) ↔
            p.2.status = .delivered) ∧
          (p.2.status = .permanentFailure →
            FailedForGood (step cfg w (.attempt id env)) (w.serial id) (Utf8.toValid p.1))) ∧
      (∀ id' k o, .accepted id' k o ∈ w.ledger →
        (Pending (step cfg w (.attempt id env)) id' k o ↔
          Pending w id' k o ∧ ¬FinishedBy w (step cfg w (.attempt id env)) k o)) := by
  subst hw
  obtain ⟨hsound, htidy⟩ := run_tidy cfg hrun
  refine ⟨fun id k o haccepted => htidy.exactlyOne haccepted, ?_⟩
  intro id env hinput
  refine ⟨?_, ?_, ?_⟩
  · intro msg m content o hclaim hoffered ho
    exact htidy.offered_unfinished hclaim hoffered ho
  · intro msg m content hclaim hoffered p hp
    exact htidy.recorded cfg hsound hclaim hoffered hp
  · intro id' k o haccepted
    exact htidy.pending_iff (step_tidy cfg hsound hinput htidy)
      (step_effect cfg hsound _).ledger_subset haccepted

def duplicateRun : List Input :=
  [.enqueue (lit "1-a") (lit "s@x.org") [lit "a@y.org", lit "a@y.org", lit "b@y.org"] (lit "hi")
      (lit "text") .normal 5 5]

def duplicateEntry : Message :=
  Store.recorded (newEnqueueMessage (lit "1-a") (lit "s@x.org")
    [lit "a@y.org", lit "a@y.org", lit "b@y.org"] (lit "hi") (lit "text").length .normal 5 5)

def through : RecipientOutcome :=
  { recipient := lit "a@y.org", status := .delivered, enhancedStatusCode := [], diagnostic := []
    route := [] }

/-- Only one of the two occurrences gets through. -/
def duplicateEnv : Env :=
  .reliable 10 (lit "2-b") fun _ _ =>
    (some
      { success := false, error := none, recipientOutcomes := [through]
        deliveryMethod := lit "smtp" }, some (.temporary (lit "450 busy")))

theorem run_progress_duplicateRun :
    let w := Machine.run (step (.server (lit "mx.x.org"))) World.initial duplicateRun
    let w' := step (.server (lit "mx.x.org")) w (.attempt (lit "1-a") duplicateEnv)
    ExactlyOne (Pending w (lit "1-a") 0 (lit "1-a:1")) (Delivered w 0 (lit "1-a:1"))
        (FailedForGood w 0 (lit "1-a:1")) ∧
      Delivered w' 0 (lit "1-a:0") ∧ ¬Delivered w' 0 (lit "1-a:1") ∧
      (Pending w' (lit "1-a") 0 (lit "1-a:1") ↔
        Pending w (lit "1-a") 0 (lit "1-a:1") ∧ ¬FinishedBy w w' 0 (lit "1-a:1")) := by
  intro w w'
  have hrun : Machine.Along (step (.server (lit "mx.x.org"))) Undisturbed World.initial
      duplicateRun := ⟨trivial, trivial⟩
  have hinput : Undisturbed w (.attempt (lit "1-a") duplicateEnv) :=
    ⟨fun _ _ => rfl, by decide +kernel⟩
  have haccepted : .accepted (lit "1-a") 0 (lit "1-a:1") ∈ w.ledger := by decide +kernel
  obtain ⟨hone, hattempt⟩ := run_progress _ hrun rfl
  obtain ⟨-, hrecorded, hpending⟩ := hattempt _ _ hinput
  have hreport := hrecorded duplicateEntry duplicateEntry (lit "text") (by decide +kernel)
    (by decide +kernel)
  have hthrough := hreport (lit "1-a:0", through) (by decide +kernel)
  have hother := hreport (lit "1-a:1", unreported (lit "a@y.org")) (by decide +kernel)
  exact ⟨hone _ _ _ haccepted, hthrough.1.2 rfl, fun h => (nomatch hother.1.1 h),
    hpending _ _ _ haccepted⟩

end Elemta.Queue

import Elemta.Queue.Steps

/-!
# No recipient is lost

Every occurrence that was ever accepted is either answered for or still waits in
a live entry, in every state that a run reaches. Two kinds of input are outside
of this: a cleanup tick that meets a live entry older than the cleanup age, and
an attempt whose last bounce the queue cannot take. What happens then is at the
end of the module.
-/

namespace Elemta.Queue

open Bytes Bounce

def Waiting (w : World) (id : Bytes) (k : Nat) (o : Bytes) : Prop :=
  ∃ m, w.store.entries id = some m ∧ m.queueType.live = true ∧ w.serial id = k ∧
    o ∈ m.outstanding

/-- Nobody is lost, except that bounces to the addresses that bounces come from are not sent. -/
def Accounted (w : World) : Prop :=
  ∀ id k o, .accepted id k o ∈ w.ledger → Answered w k o ∨ Waiting w id k o

theorem Accounted.initial : Accounted World.initial := by
  intro id k o h
  simp [World.initial] at h

section

variable {cfg : Config} {env : Env} {w w' : World} {id : Bytes}

/-! ## One change at a time -/

/-- Replacing one entry: what its live predecessor answered for must be taken care of. -/
theorem Accounted.edits {e : Option Message} {m : Message} (hacc : Accounted w)
    (hedit : Edits w id e w') (hentry : w.store.entries id = some m)
    (hkeep : m.queueType.live = true → ∀ o ∈ m.outstanding, Answered w (w.serial id) o ∨
      ∃ m', e = some m' ∧ m'.queueType.live = true ∧ o ∈ m'.outstanding) :
    Accounted w' := by
  obtain ⟨store, rfl⟩ := hedit.exists_store
  intro id' k o hmem
  rcases hacc id' k o hmem with hanswered | ⟨m', hentry', hlive, hserial, ho⟩
  · exact .inl hanswered
  by_cases hid : id' = id
  · subst hid
    subst hserial
    obtain rfl := Option.some.inj (hentry.symm.trans hentry')
    rcases hkeep hlive o ho with hanswered | ⟨m', he, hlive', ho'⟩
    · exact .inl hanswered
    · exact .inr ⟨m', hedit.entry.trans he, hlive', rfl, ho'⟩
  · exact .inr ⟨m', (hedit.other hid).trans hentry', hlive, hserial, ho⟩

variable {facts : List Fact} {msg : Message}

theorem Accounted.record (hacc : Accounted w) (hfacts : ∀ id k o, .accepted id k o ∉ facts) :
    Accounted (w.record facts) := by
  intro id' k o hmem
  rcases List.mem_append.1 hmem with hold | hnew
  · rcases hacc id' k o hold with hanswered | hwaiting
    · exact .inl (hanswered.mono (List.subset_append_left _ _))
    · exact .inr hwaiting
  · exact absurd hnew (hfacts id' k o)

theorem Accounted.enqueued (hacc : Accounted w) (hfresh : msg.Fresh) (h : Enqueued w msg w') :
    Accounted w' := by
  intro id' k o hmem
  rcases h.ledger_cases hmem with hold | ⟨o', ho', heq, hentry, hserial⟩
  · rcases hacc id' k o hold with hanswered | ⟨m, hentry, hlive, hserial, ho⟩
    · exact .inl (hanswered.mono h.ledger_subset)
    · obtain ⟨hentry', hserial'⟩ := h.entry hentry
      exact .inr ⟨m, hentry', hlive, hserial'.trans hserial, ho⟩
  obtain ⟨rfl, rfl, rfl⟩ := Fact.accepted.inj heq
  refine .inr ⟨Store.recorded msg, hentry, hfresh.recorded_live, hserial, ?_⟩
  rw [outstanding_of_absent hfresh.recorded_absent, occurrences_recorded]
  exact ho'

theorem not_accepted_of_isOutcome {k : Nat} (h : ∀ f ∈ facts, f.IsOutcome k) :
    ∀ id k' o, .accepted id k' o ∉ facts := by
  intro id k' o hmem
  exact (h _ hmem).elim

theorem Accounted.bounced {site : Site} {rs : List DsnRecipient} {reason : Bytes}
    {handoffID : Option Bytes} {result : BounceResult} (hacc : Accounted w)
    (h : Bounced cfg env site w msg rs reason handoffID result w') : Accounted w' := by
  have hnoted : Accounted (w.record (failureFacts cfg.engine.host (w.serial msg.id) msg rs)) :=
    hacc.record (not_accepted_of_isOutcome fun f hf => failureFacts_isOutcome hf)
  cases h with
  | skipped original none_due => exact hnoted
  | failed => exact hnoted
  | generated original req bounced due enqueued =>
    refine (hnoted.enqueued (Request.message_fresh req _) enqueued).record ?_
    intro id' k o hmem
    obtain ⟨r, -, heq⟩ := List.mem_map.1 hmem
    cases heq

/-! ## Attempts -/

theorem Transition.accounted (h : Transition cfg env id w w') (hacc : Accounted w) :
    Accounted w' := by
  -- an entry is only let go of an occurrence that the ledger answers for
  cases h with
  | keep held edit live envelope =>
    refine hacc.edits edit held.entry fun _ o ho => ?_
    exact .inr ⟨_, rfl, live, by rw [outstanding_congr envelope]; exact ho⟩
  | note held outcome => exact hacc.record (not_accepted_of_isOutcome outcome)
  | intent held absent edit live handoff pending partition answered =>
    rename_i m₀ m' h₀
    refine hacc.edits edit held.entry fun _ o ho => ?_
    rw [outstanding_of_absent absent] at ho
    rcases List.mem_append.1 (partition.symm.subset ho) with hopen | hdelivered
    · -- permanent and temporary failures are what the new record stands for
      refine .inr ⟨m', rfl, live, ?_⟩
      simpa [Message.outstanding, handoff, pending] using hopen
    · exact .inl (answered o hdelivered)
  | bounce held handoff stable ours failed bounced => exact hacc.bounced bounced
  | complete held handoff edit live handoff' same permanent temporary answered =>
    rename_i m₀ m' h₀ h₁
    refine hacc.edits edit held.entry fun _ o ho => ?_
    by_cases hpermanent : o ∈ names h₀.permanent
    · exact .inl (answered o hpermanent)
    have htemporary : o ∈ names h₀.temporary := by
      simp only [Message.outstanding, handoff] at ho
      rcases List.mem_append.1 ho with hfirst | hsecond
      · split at hfirst
        · simp at hfirst
        · exact absurd hfirst hpermanent
      · exact hsecond
    refine .inr ⟨m', rfl, live, ?_⟩
    simp only [Message.outstanding, handoff']
    exact List.mem_append_right _ (temporary ▸ htemporary)
  | reduce held edit live absent kept answered =>
    refine hacc.edits edit held.entry fun _ o ho => ?_
    rcases answered o ho with hleft | hanswered
    · exact .inr ⟨_, rfl, live, by rw [outstanding_of_absent absent]; exact hleft⟩
    · exact .inl hanswered
  | consume held edit answered =>
    refine hacc.edits edit held.entry fun _ o ho => ?_
    exact .inl (answered o ho)

theorem GiveUp.accounted (h : GiveUp cfg env id w w') (hacc : Accounted w)
    (hok : env.ok .giveUpBounce .create = true) (hfresh : w.store.Unused env.freshID) :
    Accounted w' := by
  obtain ⟨held, absent, ours, failed, bounced, address, accepted, edit, left, -⟩ := h
  subst ours
  obtain ⟨hentry', hserial⟩ := bounced.entry held.entry
  refine (hacc.bounced bounced).edits edit hentry' fun _ o ho => ?_
  rw [outstanding_of_absent absent, ← failed] at ho
  rw [hserial]
  exact .inl (bounced.answered (accepted hok hfresh) address ho)

/-- Transitions store nothing under the fresh id of an attempt. -/
theorem Transition.unused (h : Transition cfg env id w w')
    (hdsn : ∀ i ps, env.freshID ≠ handoffID i ps) (hfresh : w.store.Unused env.freshID) :
    w'.store.Unused env.freshID := by
  have hne : ∀ {m}, w.store.entries id = some m → env.freshID ≠ id := by
    rintro m hentry rfl
    rw [hfresh.entry] at hentry
    cases hentry
  cases h with
  | keep held edit => exact edit.unused (hne held.entry) hfresh
  | note => exact hfresh
  | intent held absent edit => exact edit.unused (hne held.entry) hfresh
  | bounce held handoff stable ours failed bounced =>
    obtain ⟨i, ps, hid⟩ := stable
    exact bounced.unused (by simpa [hid] using hdsn i ps) hfresh
  | complete held handoff edit => exact edit.unused (hne held.entry) hfresh
  | reduce held edit => exact edit.unused (hne held.entry) hfresh
  | consume held edit => exact edit.unused (hne held.entry) hfresh

theorem Attempted.accounted (h : Attempted cfg env id w w') (hacc : Accounted w)
    (hok : env.ok .giveUpBounce .create = true) (hfresh : w.store.Unused env.freshID)
    (hdsn : ∀ i ps, env.freshID ≠ handoffID i ps) : Accounted w' := by
  -- on the way nothing is stored under the fresh id
  refine h.rule (fun a => Accounted a ∧ a.store.Unused env.freshID) ⟨hacc, hfresh⟩ ?_
    (fun hlast => hlast.1) fun giveUp hlast => giveUp.accounted hlast.1 hok hlast.2
  exact fun hstep hlast => ⟨hstep.accounted hlast.1, hstep.unused hdsn hlast.2⟩

end

/-! ## Runs -/

/-- The cleanup tick drops whoever still waits in an entry past the age limit, unheard. -/
theorem cleanup_loses (cfg : Config) {w : World} {id o : Bytes} {m : Message} {now : Time}
    (hentry : w.store.entries id = some m) (hold : olderThan cleanupAgeHours now m.createdAt = true)
    (haccepted : .accepted id (w.serial id) o ∈ w.ledger)
    (hwaits : ¬Answered w (w.serial id) o) : ¬Accounted (step cfg w (.cleanup now)) := by
  intro hacc
  have hgone : (step cfg w (.cleanup now)).store.entries id = none := by
    show (w.store.cleanup now cleanupAgeHours).entries id = none
    rw [Store.cleanup_entries, hentry]
    simp [Option.filter, hold]
  rcases hacc id (w.serial id) o haccepted with hanswered | ⟨m', hentry', -⟩
  · exact hwaits hanswered
  · rw [hgone] at hentry'
    cases hentry'

end Elemta.Queue

import Elemta.Queue.Effects
import Mathlib.Data.List.Perm.Subperm
import Mathlib.Logic.Relation

/-!
# Custody of recipients

What the queue is for, apart from how the processor goes about it: every
occurrence it accepted stays in some live entry until it was delivered or its
failure was dealt with. An entry may only change in the ways of `Transition`,
each of which says what must be on record before an occurrence is let go.
-/

namespace Elemta.Queue

open Bytes Bounce

/-! ## The occurrences an entry stands for -/

def names (rs : List DsnRecipient) : List Bytes :=
  rs.map fun r => Utf8.toValid r.occurrence

/-- The occurrences whose fate depends on the entry. A handoff that is complete has passed its
permanent failures on. -/
def Message.outstanding (m : Message) : List Bytes :=
  match m.handoff with
  | .recorded h => (if h.state = .complete then [] else names h.permanent) ++ names h.temporary
  | _ => m.occurrences

def Message.retryable (m : Message) : List Bytes :=
  match m.handoff with
  | .recorded h => names h.temporary
  | _ => m.occurrences

variable {id : Bytes} {cfg : Config} {r : DsnRecipient} {env : Env} {host : Host}
  {rs : List DsnRecipient} {m m' msg : Message} {k : Nat} {w w' : World}

theorem outstanding_congr (h : m.envelope = m'.envelope) : m.outstanding = m'.outstanding := by
  have hhandoff : m.handoff = m'.handoff := congrArg Envelope.handoff h
  simp only [Message.outstanding, hhandoff, occurrences_congr h]

theorem retryable_congr (h : m.envelope = m'.envelope) : m.retryable = m'.retryable := by
  have hhandoff : m.handoff = m'.handoff := congrArg Envelope.handoff h
  simp only [Message.retryable, hhandoff, occurrences_congr h]

theorem outstanding_of_absent (h : m.handoff = .absent) : m.outstanding = m.occurrences := by
  simp [Message.outstanding, h]

theorem retryable_of_absent (h : m.handoff = .absent) : m.retryable = m.occurrences := by
  simp [Message.retryable, h]

/-- The occurrences that an attempt or a DSN about this entry could name. -/
def Message.tracked (m : Message) : List Bytes :=
  match m.handoff with
  | .recorded h => names h.permanent ++ names h.temporary
  | _ => m.occurrences

theorem tracked_congr (h : m.envelope = m'.envelope) : m.tracked = m'.tracked := by
  have hhandoff : m.handoff = m'.handoff := congrArg Envelope.handoff h
  simp only [Message.tracked, hhandoff, occurrences_congr h]

theorem tracked_of_absent (h : m.handoff = .absent) : m.tracked = m.occurrences := by
  simp [Message.tracked, h]

variable {h : DsnHandoff} {reason : Bytes}

theorem retryable_of_recorded (hh : m.handoff = .recorded h) : m.retryable = names h.temporary := by
  simp [Message.retryable, hh]

theorem tracked_of_recorded (hh : m.handoff = .recorded h) :
    m.tracked = names h.permanent ++ names h.temporary := by
  simp [Message.tracked, hh]

@[simp] theorem names_persisted : names (rs.map DsnRecipient.persisted) = names rs := by
  simp [names, DsnRecipient.persisted, Function.comp_def]

@[simp] theorem occurrences_recorded (m : Message) :
    (Store.recorded m).occurrences = m.occurrences := by
  have hids : (Store.recorded m).occurrenceIds = m.occurrenceIds.map Utf8.toValid := rfl
  have hto : (Store.recorded m).rcptTo = m.rcptTo.map Utf8.toValid := rfl
  simp only [Message.occurrences, recipientOccurrences, hids, hto, List.length_map,
    Store.recorded_id]
  split
  · simp [Function.comp_def]
  · rfl

theorem recorded_absent (h : m.handoff = .absent) : (Store.recorded m).handoff = .absent := by
  simp [Store.recorded, Message.persisted, h, HandoffNote.persisted]

theorem names_envelopeRecipients : names (envelopeRecipients msg) = msg.occurrences := by
  have hlen := length_recipientOccurrences msg
  apply List.ext_getElem
  · simp [names, envelopeRecipients, Message.occurrences, hlen]
  · intro i h _
    simp [names, envelopeRecipients, Message.occurrences]

theorem mem_rcptTo_of_mem_envelopeRecipients (h : r ∈ envelopeRecipients msg) :
    r.address ∈ msg.rcptTo := by
  obtain ⟨i, hi, rfl⟩ := List.getElem_of_mem h
  simp [envelopeRecipients]

@[simp] theorem occurrences_reducedMessage (msg : Message) (rs : List DsnRecipient) :
    (reducedMessage msg rs).occurrences = names rs := by
  simp [Message.occurrences, recipientOccurrences, reducedMessage, names, Function.comp_def]

/-! ## What the ledger says of an occurrence -/

def Settled (w : World) (k : Nat) (o : Bytes) : Prop :=
  .delivered k o ∈ w.ledger ∨ (∃ dsn, .bounced k o dsn ∈ w.ledger) ∨ .exempt k o ∈ w.ledger ∨
    .removed k ∈ w.ledger

/-- Settled, or failed with a sender that bounces come from. -/
def Answered (w : World) (k : Nat) (o : Bytes) : Prop :=
  Settled w k o ∨ .unanswered k o ∈ w.ledger

theorem Answered.mono {o : Bytes} (h : Answered w k o) (hsub : w.ledger ⊆ w'.ledger) :
    Answered w' k o := by
  rcases h with (h | ⟨dsn, h⟩ | h | h) | h
  · exact .inl (.inl (hsub h))
  · exact .inl (.inr (.inl ⟨dsn, hsub h⟩))
  · exact .inl (.inr (.inr (.inl (hsub h))))
  · exact .inl (.inr (.inr (.inr (hsub h))))
  · exact .inr (hsub h)

def Fact.IsOutcome (k : Nat) : Fact → Prop
  | .delivered k' _ => k' = k
  | .failed k' _ => k' = k
  | .exempt k' _ => k' = k
  | .unanswered k' _ => k' = k
  | _ => False

theorem not_bounced_of_isOutcome {facts : List Fact} (h : ∀ f ∈ facts, f.IsOutcome k) :
    ∀ k' o dsn, .bounced k' o dsn ∉ facts := by
  intro k' o dsn hmem
  exact (h _ hmem).elim

theorem failureFacts_isOutcome {f : Fact} (h : f ∈ failureFacts host k msg rs) : f.IsOutcome k := by
  simp only [failureFacts, List.mem_append, List.mem_map] at h
  rcases h with (⟨r, -, rfl⟩ | ⟨r, -, rfl⟩) | h
  · rfl
  · rfl
  · split at h
    · obtain ⟨r, -, rfl⟩ := List.mem_map.1 h
      rfl
    · simp at h

theorem exempt_mem_failureFacts (hr : r ∈ rs)
    (hexempt : exemptFromDsn msg.mailFrom msg.annotations r = true) :
    .exempt k (Utf8.toValid r.occurrence) ∈ failureFacts host k msg rs := by
  simp only [failureFacts, List.mem_append, List.mem_map, List.mem_filter]
  exact .inl (.inr ⟨r, ⟨hr, hexempt⟩, rfl⟩)

theorem unanswered_mem_failureFacts (hr : r ∈ rs)
    (hloop : isBounceIdentity host (trimSpace msg.mailFrom) = true) :
    .unanswered k (Utf8.toValid r.occurrence) ∈ failureFacts host k msg rs := by
  simp only [failureFacts, hloop, if_true, List.mem_append, List.mem_map]
  exact .inr ⟨r, hr, rfl⟩

/-- When no bounce is due, there is a reason for it on the envelope. -/
theorem bounceRequest_eq_none {eng : Engine} {original freshID : Bytes} {handoffID : Option Bytes}
    {now : Time} (h : bounceRequest eng original msg reason handoffID freshID now = none) :
    isNullSender msg.mailFrom = true ∨ isBounceIdentity eng.host (trimSpace msg.mailFrom) = true ∨
      recipientsToNotify msg = [] := by
  unfold bounceRequest at h
  simp only at h
  split at h
  · rename_i hnull
    exact .inl hnull
  split at h
  · rename_i hloop
    exact .inr (.inl hloop)
  split at h
  · rename_i hnone
    exact .inr (.inr hnone)
  · simp at h

section

variable {cfg : Config} {env : Env} {site : Site} {w w' : World} {msg : Message}
  {rs : List DsnRecipient} {reason : Bytes} {handoffID : Option Bytes}
  {result : BounceResult}

theorem Edits.ledger_subset {e : Option Message} (h : Edits w id e w') : w.ledger ⊆ w'.ledger := by
  rw [h.ledger]
  exact List.Subset.refl _

section

variable {o : Bytes} (hb : Bounced cfg env site w msg rs reason handoffID result w')

include hb

theorem Bounced.ledger_subset :
    w.ledger ⊆ w'.ledger := by
  cases hb with
  | skipped | failed => exact List.subset_append_left _ _
  | generated original req bounced due enqueued =>
    intro f hf
    exact List.mem_append_left _ (enqueued.ledger_subset (List.mem_append_left _ hf))

/-- A bounce that did not fail answers for every recipient it was asked about. -/
theorem Bounced.answered (hresult : result ≠ .failed)
    (haddress : ∀ r ∈ rs, r.address ∈ msg.rcptTo) (ho : o ∈ names rs) :
    Answered w' (w.serial msg.id) o := by
  obtain ⟨r, hr, rfl⟩ := List.mem_map.1 ho
  -- nobody is to be told of a recipient that is not among those to notify
  have hquiet : r.address ∉ recipientsToNotify msg →
      exemptFromDsn msg.mailFrom msg.annotations r = true := by
    intro hnot
    have hwants : wantsFailureNotice msg.annotations r.address = false := by
      by_contra hwants
      exact hnot (List.mem_filter.2 ⟨haddress r hr, by simpa using hwants⟩)
    simp [exemptFromDsn, hwants]
  cases hb with
  | failed => exact absurd rfl hresult
  | skipped original none_due =>
    have hexempt : exemptFromDsn msg.mailFrom msg.annotations r = true →
        Answered (w.record (failureFacts cfg.engine.host (w.serial msg.id) msg rs))
          (w.serial msg.id) (Utf8.toValid r.occurrence) := fun hex =>
      .inl (.inr (.inr (.inl (List.mem_append_right _ (exempt_mem_failureFacts hr hex)))))
    rcases bounceRequest_eq_none none_due with hnull | hloop | hnone
    · exact hexempt (by simp [exemptFromDsn, hnull])
    · exact .inr (List.mem_append_right _ (unanswered_mem_failureFacts hr hloop))
    · exact hexempt (hquiet (by simp [hnone]))
  | generated original req bounced due enqueued =>
    by_cases hnamed : r.address ∈ recipientsToNotify msg
    · have hfact : Fact.bounced (w.serial msg.id) (Utf8.toValid r.occurrence) req.id ∈
          bounceFacts (w.serial msg.id) req rs := by
        simp only [bounceFacts, List.mem_map, List.mem_filter]
        exact ⟨r, ⟨hr, by simpa [(bounceRequest_id due).2] using hnamed⟩, rfl⟩
      exact .inl (.inr (.inl ⟨req.id, List.mem_append_right _ hfact⟩))
    · have hfact : Fact.exempt (w.serial msg.id) (Utf8.toValid r.occurrence) ∈
          failureFacts cfg.engine.host (w.serial msg.id) msg rs :=
        exempt_mem_failureFacts hr (hquiet hnamed)
      exact .inl (.inr (.inr (.inl (List.mem_append_left _
        (enqueued.ledger_subset (List.mem_append_right _ hfact))))))

/-- The failures a bounce can add to the record: its own recipients, under its own id. -/
theorem Bounced.bounced_mem {dsn : Bytes} (hmem : .bounced k o dsn ∈ w'.ledger) :
    .bounced k o dsn ∈ w.ledger ∨
      (k = w.serial msg.id ∧ o ∈ names rs ∧ dsn = handoffID.getD env.freshID) := by
  have hnoted : ∀ {l : List Fact},
      .bounced k o dsn ∈ l ++ failureFacts cfg.engine.host (w.serial msg.id) msg rs →
        .bounced k o dsn ∈ l := by
    intro l hl
    rcases List.mem_append.1 hl with hl | hl
    · exact hl
    · exact (failureFacts_isOutcome hl).elim
  cases hb with
  | skipped | failed => exact .inl (hnoted hmem)
  | generated original req bounced due enqueued =>
    rcases List.mem_append.1 hmem with hold | hnew
    · exact .inl (hnoted ((enqueued.mem_ledger (by simp)).1 hold))
    simp only [bounceFacts, List.mem_map, List.mem_filter] at hnew
    obtain ⟨r, ⟨hr, -⟩, heq⟩ := hnew
    obtain ⟨rfl, rfl, rfl⟩ := Fact.bounced.inj heq
    exact .inr ⟨rfl, List.mem_map.2 ⟨r, hr, rfl⟩, (bounceRequest_id due).1⟩

end

end

/-! ## The protocol -/

structure Held (w : World) (id : Bytes) (m : Message) : Prop where
  sound : w.Sound
  entry : w.store.entries id = some m
  live : m.queueType.live = true

theorem Held.edits (h : Held w id m) (hedit : Edits w id (some m') w')
    (hlive : m'.queueType.live = true) : Held w' id m' :=
  ⟨hedit.sound h.sound h.entry, hedit.entry, hlive⟩

theorem Held.record (h : Held w id m) (facts : List Fact) : Held (w.record facts) id m :=
  ⟨h.sound.record facts, h.entry, h.live⟩

theorem Held.bounced {site : Site} {handoffID : Option Bytes} {result : BounceResult}
    (h : Held w id m) (hbounce : Bounced cfg env site w msg rs reason handoffID result w') :
    Held w' id m :=
  ⟨hbounce.sound h.sound, (hbounce.entry h.entry).1, h.live⟩

/-- One change that an attempt may make while it holds the entry of `id`. -/
inductive Transition (cfg : Config) (env : Env) (id : Bytes) (w : World) : World → Prop where
  /-- Bookkeeping, and moves between live queues. -/
  | keep {m m' : Message} {w' : World} (held : Held w id m) (edit : Edits w id (some m') w')
      (live : m'.queueType.live = true) (envelope : m'.envelope = m.envelope) :
      Transition cfg env id w w'
  /-- What the delivery handler reported goes on record. -/
  | note {m : Message} {facts : List Fact} (held : Held w id m)
      (outcome : ∀ f ∈ facts, f.IsOutcome (w.serial id)) :
      Transition cfg env id w (w.record facts)
  /-- The permanent failures are set apart, with everybody accounted for. -/
  | intent {m m' : Message} {h : DsnHandoff} {w' : World}
      (held : Held w id m) (absent : m.handoff = .absent)
      (edit : Edits w id (some m') w') (live : m'.queueType.live = true)
      (handoff : m'.handoff = .recorded h) (pending : h.state = .pending)
      (partition : (names h.permanent ++ names h.temporary ++ names h.delivered).Perm
        m.occurrences)
      (answered : ∀ o ∈ names h.delivered, Answered w (w.serial id) o) :
      Transition cfg env id w w'
  /-- The bounce of a handoff, always under the id that the handoff gives it. -/
  | bounce {m msg : Message} {h : DsnHandoff} {rs : List DsnRecipient} {reason : Bytes}
      {result : BounceResult} {w' : World} (held : Held w id m)
      (handoff : m.handoff = .recorded h) (stable : ∃ i ps, h.id = handoffID i ps)
      (ours : msg.id = id) (failed : names rs = names h.permanent)
      (bounced : Bounced cfg env .handoff w msg rs reason (some h.id) result w') :
      Transition cfg env id w w'
  /-- The failures that a bounce answered for are let go. -/
  | complete {m m' : Message} {h h' : DsnHandoff} {w' : World}
      (held : Held w id m) (handoff : m.handoff = .recorded h)
      (edit : Edits w id (some m') w') (live : m'.queueType.live = true)
      (handoff' : m'.handoff = .recorded h') (same : h'.id = h.id)
      (permanent : names h'.permanent = names h.permanent)
      (temporary : names h'.temporary = names h.temporary)
      (answered : ∀ o ∈ names h.permanent, Answered w (w.serial id) o) :
      Transition cfg env id w w'
  /-- Only recipients to be tried again are left, and nobody is forgotten. -/
  | reduce {m m' : Message} {w' : World} (held : Held w id m)
      (edit : Edits w id (some m') w') (live : m'.queueType.live = true)
      (absent : m'.handoff = .absent) (kept : m'.occurrences.Subperm m.retryable)
      (answered : ∀ o ∈ m.outstanding, o ∈ m'.occurrences ∨ Answered w (w.serial id) o) :
      Transition cfg env id w w'
  | consume {m : Message} {w' : World} (held : Held w id m)
      (edit : Edits w id none w')
      (answered : ∀ o ∈ m.outstanding, Answered w (w.serial id) o) :
      Transition cfg env id w w'

/-- The end of an attempt that gives the whole message up: it is bounced under a fresh id and
leaves the live queues, unless its removal fails. -/
inductive GiveUp (cfg : Config) (env : Env) (id : Bytes) (w : World) (w' : World) : Prop where
  | intro {m msg : Message} {rs : List DsnRecipient} {reason : Bytes}
      {result : BounceResult} {e : Option Message} {between : World}
      (held : Held w id m) (absent : m.handoff = .absent)
      (ours : msg.id = id) (failed : names rs = m.occurrences)
      (bounced : Bounced cfg env .giveUpBounce w msg rs reason none result between)
      (address : ∀ r ∈ rs, r.address ∈ msg.rcptTo)
      (accepted : env.ok .giveUpBounce .create = true → w.store.Unused env.freshID →
        result ≠ .failed)
      (edit : Edits between id e w')
      (left : ∀ m', e = some m' → m'.envelope = m.envelope ∧
        (m'.queueType = m.queueType ∨ m'.queueType = .failed))
      (removed : (∀ c, env.ok .giveUp c = true) → Utf8.valid id = true →
        ∀ m', e = some m' → m'.queueType = .failed)

theorem Transition.sound (h : Transition cfg env id w w') : w'.Sound := by
  cases h with
  | keep held edit => exact edit.sound held.sound held.entry
  | note held => exact held.sound.record _
  | intent held absent edit => exact edit.sound held.sound held.entry
  | bounce held handoff stable ours failed bounced => exact bounced.sound held.sound
  | complete held handoff edit => exact edit.sound held.sound held.entry
  | reduce held edit => exact edit.sound held.sound held.entry
  | consume held edit => exact edit.sound held.sound held.entry

theorem Transition.ledger_subset (h : Transition cfg env id w w') : w.ledger ⊆ w'.ledger := by
  cases h with
  | keep held edit => exact edit.ledger_subset
  | note held => exact List.subset_append_left _ _
  | intent held absent edit => exact edit.ledger_subset
  | bounce held handoff stable ours failed bounced => exact bounced.ledger_subset
  | complete held handoff edit => exact edit.ledger_subset
  | reduce held edit => exact edit.ledger_subset
  | consume held edit => exact edit.ledger_subset

theorem GiveUp.sound (h : GiveUp cfg env id w w') : w'.Sound := by
  obtain ⟨held, -, -, -, bounced, -, -, edit, -, -⟩ := h
  exact edit.sound (bounced.sound held.sound) (bounced.entry held.entry).1

abbrev Follows (cfg : Config) (env : Env) (id : Bytes) : World → World → Prop :=
  Relation.ReflTransGen (Transition cfg env id)

inductive Attempted (cfg : Config) (env : Env) (id : Bytes) (w w' : World) : Prop where
  | stopped (path : Follows cfg env id w w')
  | gaveUp {last : World} (path : Follows cfg env id w last) (giveUp : GiveUp cfg env id last w')

theorem Attempted.after {between : World} (hpath : Follows cfg env id w between)
    (h : Attempted cfg env id between w') : Attempted cfg env id w w' := by
  cases h with
  | stopped path => exact .stopped (hpath.trans path)
  | gaveUp path giveUp => exact .gaveUp (hpath.trans path) giveUp

/-- What every transition keeps holds when an attempt stops, and before it gives up. -/
theorem Attempted.rule (P : World → Prop) {Q : Prop} (h : Attempted cfg env id w w') (hw : P w)
    (htransition : ∀ {a b}, Transition cfg env id a b → P a → P b) (hstopped : P w' → Q)
    (hgiveUp : ∀ {a}, GiveUp cfg env id a w' → P a → Q) : Q := by
  have hpath : ∀ {last}, Follows cfg env id w last → P last := by
    intro last hpath
    induction hpath with
    | refl => exact hw
    | tail _ hstep ih => exact htransition hstep ih
  cases h with
  | stopped path => exact hstopped (hpath path)
  | gaveUp path giveUp => exact hgiveUp giveUp (hpath path)

theorem Attempted.ledger_subset (h : Attempted cfg env id w w') : w.ledger ⊆ w'.ledger := by
  refine h.rule (w.ledger ⊆ ·.ledger) (List.Subset.refl _)
    (fun hstep ih => List.Subset.trans ih hstep.ledger_subset) (fun hlast => hlast) ?_
  rintro a ⟨-, -, -, -, bounced, -, -, edit, -, -⟩ ih
  exact List.Subset.trans ih (List.Subset.trans bounced.ledger_subset edit.ledger_subset)

end Elemta.Queue

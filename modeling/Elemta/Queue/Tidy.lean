import Elemta.Queue.Steps

/-!
# Pending, delivered, failed

The invariant by which every accepted occurrence is pending, delivered or failed
for good, and only one of these, and what each kind of change does to it.

Within an attempt the report of the handler is on record before the entry is
rewritten. `TidyBut` is the invariant for that interval: it asks nothing of the
entry that the attempt holds.
-/

namespace Elemta.Queue

open Bytes Bounce

def Pending (w : World) (id : Bytes) (k : Nat) (o : Bytes) : Prop :=
  ∃ m, w.store.entries id = some m ∧ m.queueType.live = true ∧ w.serial id = k ∧ o ∈ m.retryable

def Delivered (w : World) (k : Nat) (o : Bytes) : Prop :=
  .delivered k o ∈ w.ledger

def FailedForGood (w : World) (k : Nat) (o : Bytes) : Prop :=
  .failed k o ∈ w.ledger

/-- What holds of a live entry: nothing it still offers is finished, and what it handed off has
failed. -/
structure EntryTidy (ledger : List Fact) (id : Bytes) (k : Nat) (m : Message) : Prop where
  nodup : m.tracked.Nodup
  accepted : ∀ o ∈ m.retryable, .accepted id k o ∈ ledger
  undelivered : ∀ o ∈ m.retryable, .delivered k o ∉ ledger
  unfailed : ∀ o ∈ m.retryable, .failed k o ∉ ledger
  handed : ∀ h, m.handoff = .recorded h → ∀ o ∈ names h.permanent, .failed k o ∈ ledger

structure TidyBut (skipped : Bytes → Prop) (w : World) : Prop where
  exclusive : ∀ k o, .delivered k o ∈ w.ledger → .failed k o ∉ w.ledger
  covered : ∀ id k o, .accepted id k o ∈ w.ledger →
    Pending w id k o ∨ Delivered w k o ∨ FailedForGood w k o
  bounced : ∀ k o dsn, .bounced k o dsn ∈ w.ledger → .failed k o ∈ w.ledger
  deliveredYoung : ∀ k o, .delivered k o ∈ w.ledger → k < w.next
  failedYoung : ∀ k o, .failed k o ∈ w.ledger → k < w.next
  entry : ∀ id m, ¬skipped id → w.store.entries id = some m → m.queueType.live = true →
    EntryTidy w.ledger id (w.serial id) m

abbrev Tidy : World → Prop := TidyBut fun _ => False

theorem Tidy.initial : Tidy World.initial := by
  constructor
  all_goals
    intros
    simp_all [World.initial, Store.empty]

section

variable {cfg : Config} {env : Env} {skipped : Bytes → Prop} {w w' : World}
  {id : Bytes} {m m' : Message}

variable {k : Nat} {ledger facts : List Fact} {skipped' : Bytes → Prop} {msg : Message}
  {host : Host} {o : Bytes} {rs : List DsnRecipient}

theorem EntryTidy.congr (h : EntryTidy ledger id k m) (henv : m'.envelope = m.envelope) :
    EntryTidy ledger id k m' := by
  have hretry := retryable_congr henv
  refine ⟨tracked_congr henv ▸ h.nodup, hretry ▸ h.accepted, hretry ▸ h.undelivered,
    hretry ▸ h.unfailed, ?_⟩
  intro handoff hhandoff
  exact h.handed handoff ((congrArg Envelope.handoff henv).symm.trans hhandoff)

/-- More facts do not matter to an entry that they do not speak of. -/
theorem EntryTidy.extend {ledger' : List Fact} (h : EntryTidy ledger id k m)
    (hsub : ledger ⊆ ledger')
    (hdelivered : ∀ o ∈ m.retryable, .delivered k o ∈ ledger' → .delivered k o ∈ ledger)
    (hfailed : ∀ o ∈ m.retryable, .failed k o ∈ ledger' → .failed k o ∈ ledger) :
    EntryTidy ledger' id k m := by
  refine ⟨h.nodup, fun o ho => hsub (h.accepted o ho), ?_, ?_, ?_⟩
  · exact fun o ho hmem => h.undelivered o ho (hdelivered o ho hmem)
  · exact fun o ho hmem => h.unfailed o ho (hfailed o ho hmem)
  · exact fun handoff hhandoff o ho => hsub (h.handed handoff hhandoff o ho)

/-- An entry without a handoff that offers `os`. -/
theorem EntryTidy.of_absent {os : List Bytes} (habsent : m.handoff = .absent)
    (hocc : m.occurrences = os) (hnodup : os.Nodup)
    (haccepted : ∀ o ∈ os, .accepted id k o ∈ ledger)
    (hundelivered : ∀ o ∈ os, .delivered k o ∉ ledger)
    (hunfailed : ∀ o ∈ os, .failed k o ∉ ledger) : EntryTidy ledger id k m := by
  subst hocc
  have hretry := retryable_of_absent habsent
  refine ⟨tracked_of_absent habsent ▸ hnodup, hretry ▸ haccepted, hretry ▸ hundelivered,
    hretry ▸ hunfailed, ?_⟩
  intro h hh
  cases habsent.symm.trans hh

theorem EntryTidy.of_recorded {h : DsnHandoff} (hh : m.handoff = .recorded h)
    (hnodup : (names h.permanent ++ names h.temporary).Nodup)
    (haccepted : ∀ o ∈ names h.temporary, .accepted id k o ∈ ledger)
    (hundelivered : ∀ o ∈ names h.temporary, .delivered k o ∉ ledger)
    (hunfailed : ∀ o ∈ names h.temporary, .failed k o ∉ ledger)
    (hhanded : ∀ o ∈ names h.permanent, .failed k o ∈ ledger) : EntryTidy ledger id k m := by
  have hretry := retryable_of_recorded hh
  refine ⟨tracked_of_recorded hh ▸ hnodup, hretry ▸ haccepted, hretry ▸ hundelivered,
    hretry ▸ hunfailed, ?_⟩
  intro h' hh'
  cases hh.symm.trans hh'
  exact hhanded

theorem TidyBut.mono (h : TidyBut skipped w) (hskip : ∀ id, skipped id → skipped' id) :
    TidyBut skipped' w :=
  ⟨h.exclusive, h.covered, h.bounced, h.deliveredYoung, h.failedYoung,
    fun id m hnot => h.entry id m fun hs => hnot (hskip id hs)⟩

/-! ## One change at a time -/

/-- The entry under `id` is replaced: whom it no longer offers must be finished. -/
theorem TidyBut.edits {e : Option Message} (h : TidyBut skipped w) (hedit : Edits w id e w')
    (hentry : w.store.entries id = some m) (hskip : ∀ id', skipped id' → id' = id ∨ skipped' id')
    (hleft : m.queueType.live = true → ∀ o ∈ m.retryable,
      (∃ m', e = some m' ∧ m'.queueType.live = true ∧ o ∈ m'.retryable) ∨
        Delivered w (w.serial id) o ∨ FailedForGood w (w.serial id) o)
    (hnew : ∀ m', ¬skipped' id → e = some m' → m'.queueType.live = true →
      EntryTidy w.ledger id (w.serial id) m') : TidyBut skipped' w' := by
  obtain ⟨store, rfl⟩ := hedit.exists_store
  refine ⟨h.exclusive, ?_, h.bounced, h.deliveredYoung, h.failedYoung, ?_⟩
  · intro id' k o hmem
    rcases h.covered id' k o hmem with ⟨m₀, hentry₀, hlive, hserial, ho⟩ | hdone
    · by_cases hid : id' = id
      · subst hid
        subst hserial
        obtain rfl := Option.some.inj (hentry.symm.trans hentry₀)
        rcases hleft hlive o ho with ⟨m', he, hlive', ho'⟩ | hdone
        · exact .inl ⟨m', hedit.entry.trans he, hlive', rfl, ho'⟩
        · exact .inr hdone
      · exact .inl ⟨m₀, (hedit.other hid).trans hentry₀, hlive, hserial, ho⟩
    · exact .inr hdone
  · intro id' m' hnot hentry' hlive
    by_cases hid : id' = id
    · subst hid
      exact hnew m' hnot (hedit.entry.symm.trans hentry') hlive
    refine h.entry id' m' ?_ ((hedit.other hid).symm.trans hentry') hlive
    intro hs
    rcases hskip id' hs with heq | hs'
    · exact hid heq
    · exact hnot hs'

theorem TidyBut.keep (h : TidyBut skipped w) (hheld : Held w id m)
    (hkept : Kept cfg env id w m w' m') : TidyBut skipped w' := by
  refine h.edits hkept.edit hheld.entry (fun _ hs => .inr hs) ?_ ?_
  · exact fun _ o ho => .inl ⟨m', rfl, hkept.held.live, retryable_congr hkept.envelope ▸ ho⟩
  · rintro _ hnot ⟨⟩ _
    exact (h.entry id m hnot hheld.entry hheld.live).congr hkept.envelope

theorem TidyBut.note (h : TidyBut skipped w) (hheld : Held w id m)
    (houtcome : ∀ f ∈ facts, f.IsOutcome (w.serial id))
    (hdelivered : ∀ o, .delivered (w.serial id) o ∈ facts →
      .failed (w.serial id) o ∉ w.ledger ∧ .failed (w.serial id) o ∉ facts)
    (hfailed : ∀ o, .failed (w.serial id) o ∈ facts → .delivered (w.serial id) o ∉ w.ledger) :
    TidyBut (fun id' => id' = id ∨ skipped id') (w.record facts) := by
  have hlt := hheld.sound.serial_lt hheld.entry
  have hback : ∀ {f : Fact}, ¬f.IsOutcome (w.serial id) → f ∈ (w.record facts).ledger →
      f ∈ w.ledger :=
    fun hf hmem => (List.mem_append.1 hmem).resolve_right fun hnew => hf (houtcome _ hnew)
  refine ⟨?_, ?_, ?_, ?_, ?_, ?_⟩
  · intro k o hd hf
    rcases List.mem_append.1 hd with hd | hd
    · rcases List.mem_append.1 hf with hf | hf
      · exact h.exclusive k o hd hf
      · obtain rfl : k = w.serial id := houtcome _ hf
        exact hfailed o hf hd
    obtain rfl : k = w.serial id := houtcome _ hd
    rcases List.mem_append.1 hf with hf | hf
    · exact (hdelivered o hd).1 hf
    · exact (hdelivered o hd).2 hf
  · intro id' k o hmem
    rcases h.covered id' k o (hback not_false hmem) with hpending | hd | hf
    · exact .inl hpending
    · exact .inr (.inl (List.mem_append_left _ hd))
    · exact .inr (.inr (List.mem_append_left _ hf))
  · intro k o dsn hmem
    exact List.mem_append_left _ (h.bounced k o dsn (hback not_false hmem))
  · intro k o hmem
    by_cases hk : k = w.serial id
    · exact hk ▸ hlt
    · exact h.deliveredYoung k o (hback hk hmem)
  · intro k o hmem
    by_cases hk : k = w.serial id
    · exact hk ▸ hlt
    · exact h.failedYoung k o (hback hk hmem)
  · intro id' m' hnot hentry hlive
    have hid : id' ≠ id := fun heq => hnot (.inl heq)
    -- the facts are about another serial
    have hother : w.serial id' ≠ w.serial id := fun hser =>
      hid (hheld.sound.serial_inj hentry hheld.entry hser)
    exact (h.entry id' m' (fun hs => hnot (.inr hs)) hentry hlive).extend
      (List.subset_append_left _ _) (fun _ _ hmem => hback hother hmem)
      fun _ _ hmem => hback hother hmem

theorem TidyBut.restore (h : TidyBut (fun id' => id' = id ∨ skipped id') w)
    (hentry : ∀ m, w.store.entries id = some m → m.queueType.live = true →
      EntryTidy w.ledger id (w.serial id) m) : TidyBut skipped w := by
  refine ⟨h.exclusive, h.covered, h.bounced, h.deliveredYoung, h.failedYoung, ?_⟩
  intro id' m' hnot hm' hlive
  by_cases hid : id' = id
  · subst hid
    exact hentry m' hm' hlive
  refine h.entry id' m' ?_ hm' hlive
  rintro (heq | hs)
  · exact hid heq
  · exact hnot hs

/-- A new message is pending with all its recipients, under a serial without a history. -/
theorem TidyBut.enqueued (h : TidyBut skipped w) (hfresh : msg.Fresh) (henq : Enqueued w msg w') :
    TidyBut skipped w' := by
  have hback : ∀ {f : Fact}, (∀ id k o, f ≠ .accepted id k o) → f ∈ w'.ledger → f ∈ w.ledger :=
    fun hf hmem => (henq.mem_ledger hf).1 hmem
  have hretry : (Store.recorded msg).retryable = msg.occurrences := by
    rw [retryable_of_absent hfresh.recorded_absent, occurrences_recorded]
  refine ⟨?_, ?_, ?_, ?_, ?_, ?_⟩
  · intro k o hd hf
    exact h.exclusive k o (hback (by simp) hd) (hback (by simp) hf)
  · intro id' k o hmem
    rcases henq.ledger_cases hmem with hold | ⟨o', ho', heq, hentry, hserial⟩
    · rcases h.covered id' k o hold with ⟨m, hentry, hlive, hser, ho⟩ | hd | hf
      · obtain ⟨hentry', hser'⟩ := henq.entry hentry
        exact .inl ⟨m, hentry', hlive, hser'.trans hser, ho⟩
      · exact .inr (.inl (henq.ledger_subset hd))
      · exact .inr (.inr (henq.ledger_subset hf))
    · obtain ⟨rfl, rfl, rfl⟩ := Fact.accepted.inj heq
      exact .inl ⟨_, hentry, hfresh.recorded_live, hserial, hretry ▸ ho'⟩
  · intro k o dsn hmem
    exact henq.ledger_subset (h.bounced k o dsn (hback (by simp) hmem))
  · intro k o hmem
    exact Nat.lt_of_lt_of_le (h.deliveredYoung k o (hback (by simp) hmem)) henq.next_le
  · intro k o hmem
    exact Nat.lt_of_lt_of_le (h.failedYoung k o (hback (by simp) hmem)) henq.next_le
  · intro id' m hnot hentry hlive
    rcases henq.entry_cases hentry with ⟨hold, hserial⟩ | ⟨-, rfl, hserial, -, haccepted⟩
    · rw [hserial]
      exact (h.entry id' m hnot hold hlive).extend henq.ledger_subset
        (fun o _ hmem => hback (by simp) hmem) (fun o _ hmem => hback (by simp) hmem)
    rw [hserial]
    refine .of_absent hfresh.recorded_absent (occurrences_recorded msg)
      (nodup_occurrences_of_nil hfresh.unreduced) haccepted ?_ ?_
    · intro o _ hmem
      exact absurd (h.deliveredYoung _ o (hback (by simp) hmem)) (Nat.lt_irrefl _)
    · intro o _ hmem
      exact absurd (h.failedYoung _ o (hback (by simp) hmem)) (Nat.lt_irrefl _)

theorem failed_mem_failureFacts : .failed k o ∈ failureFacts host k msg rs ↔ o ∈ names rs := by
  unfold failureFacts
  split <;> simp [names]

theorem delivered_not_mem_failureFacts {k' : Nat} :
    .delivered k' o ∉ failureFacts host k msg rs := by
  unfold failureFacts
  split <;> simp

theorem TidyBut.recordBounced (h : TidyBut skipped w)
    (hfacts : ∀ f ∈ facts, ∃ k o dsn, f = .bounced k o dsn ∧ .failed k o ∈ w.ledger) :
    TidyBut skipped (w.record facts) := by
  have hback : ∀ {f : Fact}, (∀ k o dsn, f ≠ .bounced k o dsn) → f ∈ (w.record facts).ledger →
      f ∈ w.ledger := by
    intro f hf hmem
    rcases List.mem_append.1 hmem with hmem | hnew
    · exact hmem
    · obtain ⟨k, o, dsn, heq, -⟩ := hfacts f hnew
      exact absurd heq (hf k o dsn)
  have hsub : w.ledger ⊆ (w.record facts).ledger := List.subset_append_left _ _
  refine ⟨?_, ?_, ?_, ?_, ?_, ?_⟩
  · intro k o hd hf
    exact h.exclusive k o (hback (by simp) hd) (hback (by simp) hf)
  · intro id' k o hmem
    rcases h.covered id' k o (hback (by simp) hmem) with hpending | hd | hf
    · exact .inl hpending
    · exact .inr (.inl (hsub hd))
    · exact .inr (.inr (hsub hf))
  · intro k o dsn hmem
    rcases List.mem_append.1 hmem with hmem | hnew
    · exact hsub (h.bounced k o dsn hmem)
    · obtain ⟨k', o', dsn', heq, hf⟩ := hfacts _ hnew
      obtain ⟨rfl, rfl, rfl⟩ := Fact.bounced.inj heq
      exact hsub hf
  · intro k o hmem
    exact h.deliveredYoung k o (hback (by simp) hmem)
  · intro k o hmem
    exact h.failedYoung k o (hback (by simp) hmem)
  · intro id' m hnot hentry hlive
    exact (h.entry id' m hnot hentry hlive).extend hsub
      (fun o _ hmem => hback (by simp) hmem) (fun o _ hmem => hback (by simp) hmem)

/-- A bounce about recipients of the held message that were not delivered. -/
theorem TidyBut.bounce {site : Site} {reason : Bytes} {handoffID : Option Bytes}
    {result : BounceResult} (h : TidyBut skipped w) (hheld : Held w msg.id m)
    (hb : Bounced cfg env site w msg rs reason handoffID result w')
    (hrs : ∀ o ∈ names rs, .delivered (w.serial msg.id) o ∉ w.ledger) :
    TidyBut (fun id' => id' = msg.id ∨ skipped id') w' ∧
      (∀ o, .delivered (w.serial msg.id) o ∈ w'.ledger →
        .delivered (w.serial msg.id) o ∈ w.ledger) ∧
      (∀ o, .failed (w.serial msg.id) o ∈ w'.ledger ↔
        .failed (w.serial msg.id) o ∈ w.ledger ∨ o ∈ names rs) := by
  have hnoted : TidyBut (fun id' => id' = msg.id ∨ skipped id')
      (w.record (failureFacts cfg.engine.host (w.serial msg.id) msg rs)) := by
    refine h.note hheld (fun f hf => failureFacts_isOutcome hf) ?_ ?_
    · intro o hmem
      exact absurd hmem delivered_not_mem_failureFacts
    · intro o hmem
      exact hrs o (failed_mem_failureFacts.1 hmem)
  have hdelivered : ∀ o, .delivered (w.serial msg.id) o ∈
      (w.record (failureFacts cfg.engine.host (w.serial msg.id) msg rs)).ledger →
        .delivered (w.serial msg.id) o ∈ w.ledger := by
    intro o hmem
    rcases List.mem_append.1 hmem with hmem | hmem
    · exact hmem
    · exact absurd hmem delivered_not_mem_failureFacts
  have hfailed : ∀ o, .failed (w.serial msg.id) o ∈
      (w.record (failureFacts cfg.engine.host (w.serial msg.id) msg rs)).ledger ↔
        .failed (w.serial msg.id) o ∈ w.ledger ∨ o ∈ names rs := by
    intro o
    show _ ∈ w.ledger ++ _ ↔ _
    rw [List.mem_append, failed_mem_failureFacts]
  cases hb with
  | skipped | failed => exact ⟨hnoted, hdelivered, hfailed⟩
  | generated original req bounced due enqueued =>
    -- neither the new entry nor the names in the DSN finish anybody
    have hother : ∀ f : Fact, (∀ id k o, f ≠ .accepted id k o) → (∀ k o dsn, f ≠ .bounced k o dsn) →
        (f ∈ (bounced.record (bounceFacts (w.serial msg.id) req rs)).ledger ↔
          f ∈ (w.record (failureFacts cfg.engine.host (w.serial msg.id) msg rs)).ledger) := by
      intro f haccepted hbounced
      have hnew : f ∉ bounceFacts (w.serial msg.id) req rs := by
        intro hmem
        obtain ⟨r, -, heq⟩ := List.mem_map.1 hmem
        exact hbounced _ _ _ heq.symm
      show f ∈ bounced.ledger ++ _ ↔ _
      rw [List.mem_append, enqueued.mem_ledger haccepted]
      exact ⟨fun hf => hf.resolve_right hnew, .inl⟩
    refine ⟨?_, ?_, ?_⟩
    · refine (hnoted.enqueued (Request.message_fresh req _) enqueued).recordBounced ?_
      intro f hf
      obtain ⟨r, hr, rfl⟩ := List.mem_map.1 hf
      refine ⟨_, _, _, rfl, ?_⟩
      have hmem : Fact.failed (w.serial msg.id) (Utf8.toValid r.occurrence) ∈
          (w.record (failureFacts cfg.engine.host (w.serial msg.id) msg rs)).ledger :=
        (hfailed _).2 (.inr (List.mem_map.2 ⟨r, (List.mem_filter.1 hr).1, rfl⟩))
      exact enqueued.ledger_subset hmem
    · intro o hmem
      exact hdelivered o ((hother _ (by simp) (by simp)).1 hmem)
    · intro o
      rw [hother _ (by simp) (by simp)]
      exact hfailed o

end

end Elemta.Queue

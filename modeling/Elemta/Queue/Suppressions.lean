import Elemta.Queue.Outcomes

/-!
# Offers to the suppression list

After an attempt `handleRecipientOutcomes` offers the recipients that failed for good to the
suppression list (`recordSuppressions` in `processor.go`). The status code of an offer is looked up
by address, and so is the diagnostic where the recipient has none.

The outcomes are indexed by address with the last one on top, so an occurrence of an address that
the envelope holds twice can be offered with what was said about the other one. A recipient whose
sender asked not to be told is counted as delivered, and is not offered at all.
-/

namespace Elemta.Queue

open Bytes

structure SuppressionOffer where
  address : Bytes
  code : Bytes
  diagnostic : Bytes
  deriving DecidableEq

/-- `RecipientOutcome{}`, which a map has for an address it does not hold. -/
def RecipientOutcome.zero : RecipientOutcome :=
  { recipient := [], status := .other [], enhancedStatusCode := [], diagnostic := [], route := [] }

/-- `byAddress[address]`; a later outcome has overwritten an earlier one. -/
def outcomeByAddress (outcomes : List RecipientOutcome) (address : Bytes) : RecipientOutcome :=
  (outcomes.reverse.find? fun o => o.recipient == address).getD .zero

def recordSuppressions (permanent : List DsnRecipient) (outcomes : List RecipientOutcome) :
    List SuppressionOffer :=
  permanent.map fun r =>
    let outcome := outcomeByAddress outcomes r.address
    { address := r.address
      code := outcome.enhancedStatusCode
      diagnostic := if r.diagnostic = [] then outcome.diagnostic else r.diagnostic }

def suppressionOffers (msg : Message) (outcomes : List RecipientOutcome) : List SuppressionOffer :=
  let d := classify msg.annotations ((recipientOccurrences msg).zip outcomes)
  -- nothing failed: `handleDeliverySuccess` and no more
  if d.temporaryR = [] ∧ d.permanentR = [] then []
  else recordSuppressions d.permanentR outcomes

def RecipientOutcome.offer (o : RecipientOutcome) : SuppressionOffer :=
  { address := o.recipient
    code := o.enhancedStatusCode
    diagnostic := o.diagnostic }

def SpeaksFor (outcomes : List RecipientOutcome) (o : RecipientOutcome) : Prop :=
  let found := outcomeByAddress outcomes o.recipient
  found.enhancedStatusCode = o.enhancedStatusCode ∧ (o.diagnostic = [] → found.diagnostic = [])

instance (outcomes : List RecipientOutcome) (o : RecipientOutcome) :
    Decidable (SpeaksFor outcomes o) :=
  inferInstanceAs (Decidable (_ ∧ _))

theorem map_filter_and_eq_iff {α β : Type} (l : List α) (p q : α → Bool) (f g : α → β) :
    (l.filter fun a => p a && q a).map f = (l.filter p).map g ↔
      ∀ a ∈ l, p a = true → q a = true ∧ f a = g a := by
  constructor
  · intro heq a ha hp
    -- the shorter list has the length of the longer one, so nothing was left out
    have hsub : (l.filter fun a => p a && q a).Sublist (l.filter p) :=
      List.monotone_filter_right l fun a h => (Bool.and_eq_true_iff.1 h).1
    have hlen : (l.filter fun a => p a && q a).length = (l.filter p).length := by
      simpa using congrArg List.length heq
    have hsame := hsub.eq_of_length hlen
    rw [hsame] at heq
    have hin : a ∈ l.filter p := List.mem_filter.2 ⟨ha, hp⟩
    refine ⟨?_, List.map_inj_left.1 heq a hin⟩
    rw [← hsame] at hin
    exact (Bool.and_eq_true_iff.1 (List.mem_filter.1 hin).2).2
  · intro hall
    have hsame : (l.filter fun a => p a && q a) = l.filter p := by
      refine List.filter_congr fun a ha => ?_
      cases hp : p a with
      | false => rfl
      | true => exact (hall a ha hp).1
    rw [hsame]
    refine List.map_congr_left fun a ha => ?_
    obtain ⟨hin, hp⟩ := List.mem_filter.1 ha
    exact (hall a hin hp).2

theorem offer_eq_iff (outcomes : List RecipientOutcome) (o : RecipientOutcome) :
    ({ address := o.recipient
       code := (outcomeByAddress outcomes o.recipient).enhancedStatusCode
       diagnostic := if o.diagnostic = [] then (outcomeByAddress outcomes o.recipient).diagnostic
         else o.diagnostic } : SuppressionOffer) = o.offer ↔ SpeaksFor outcomes o := by
  unfold SpeaksFor RecipientOutcome.offer
  by_cases hempty : o.diagnostic = []
  · simp [hempty]
  · simp [hempty]

/-- The early return for an attempt without failures changes nothing about the offers. -/
theorem suppressionOffers_eq (msg : Message) (outcomes : List RecipientOutcome) :
    suppressionOffers msg outcomes = recordSuppressions
      (classify msg.annotations ((recipientOccurrences msg).zip outcomes)).permanentR outcomes := by
  unfold suppressionOffers
  dsimp only
  split
  · next hnone =>
    rw [hnone.2]
    rfl
  · rfl

/-- Whatever the handler answers, the offers are those of the permanently failed occurrences, each
with its own code and diagnostic, exactly when no such occurrence has NOTIFY=NEVER and the last
outcome under its address can stand for it. -/
theorem suppressionOffers_own_iff (msg : Message) (result : Option DeliveryResult)
    (err : Option GoError) :
    let outcomes := (normalizeDeliveryResult msg.rcptTo result err).1.recipientOutcomes
    suppressionOffers msg outcomes =
        (outcomes.filter fun o => o.status == .permanentFailure).map RecipientOutcome.offer ↔
      ∀ p ∈ (recipientOccurrences msg).zip outcomes, p.2.status = .permanentFailure →
        notifyNeverForOccurrence msg.annotations (outcomeRecipient p.1 p.2) = false ∧
          SpeaksFor outcomes p.2 := by
  intro outcomes
  have hlen : outcomes.length ≤ (recipientOccurrences msg).length := by
    rw [length_recipientOccurrences,
      ← normalizeDeliveryResult_recipient msg.rcptTo result err, List.length_map]
  have hsnd : ((recipientOccurrences msg).zip outcomes).map Prod.snd = outcomes :=
    List.map_snd_zip hlen
  rw [suppressionOffers_eq, recordSuppressions]
  generalize (recipientOccurrences msg).zip outcomes = ps at hsnd ⊢
  have hexpected : (outcomes.filter fun o => o.status == .permanentFailure).map
      RecipientOutcome.offer =
        (ps.filter fun p => p.2.status == .permanentFailure).map fun p => p.2.offer := by
    rw [← hsnd, List.filter_map, List.map_map]
    rfl
  rw [(classify_groups msg.annotations ps).1, List.map_map, hexpected, map_filter_and_eq_iff]
  refine forall₂_congr fun p _ => ?_
  rw [beq_iff_eq, Bool.not_eq_true']
  exact imp_congr_right fun _ => and_congr_right fun _ => offer_eq_iff outcomes p.2

def doubledMessage : Message :=
  newEnqueueMessage (lit "1-a") (lit "s@x.org") [lit "a@y.org", lit "a@y.org"] (lit "hi") 4
    .normal 5 5

def doubledResult : DeliveryResult :=
  { success := true
    error := none
    recipientOutcomes :=
      [{ recipient := lit "a@y.org"
         status := .permanentFailure
         enhancedStatusCode := lit "5.2.2"
         diagnostic := lit "mailbox full"
         route := [] },
       { recipient := lit "a@y.org"
         status := .delivered
         enhancedStatusCode := lit "2.0.0"
         diagnostic := []
         route := [] }]
    deliveryMethod := lit "smtp" }

/-- The refused occurrence is offered with the code of the one that was taken, and with
NOTIFY=NEVER it is not offered. -/
theorem doubledMessage_offers :
    let outcomes :=
      (normalizeDeliveryResult doubledMessage.rcptTo (some doubledResult) none).1.recipientOutcomes
    let silent :=
      { doubledMessage with annotations := [(lit "dsn_notify:a@y.org", lit "NEVER")] }
    outcomes = doubledResult.recipientOutcomes ∧
      suppressionOffers doubledMessage outcomes =
        [{ address := lit "a@y.org", code := lit "2.0.0", diagnostic := lit "mailbox full" }] ∧
      suppressionOffers silent outcomes = [] := by
  decide +kernel

end Elemta.Queue

import Elemta.Foundation.Slots
import Elemta.Queue.DeliveryError

/-!
# Recipient outcomes

What a delivery handler reports for each recipient, how
`normalizeDeliveryResult` matches the reports to the envelope, and how
`handleRecipientOutcomes` sorts the envelope's occurrences by outcome
(`processor.go`). Whatever a handler reports, every occurrence of the envelope
ends up in exactly one of the three groups.
-/

namespace Elemta.Queue

open Bytes

inductive DeliveryStatus where
  | delivered
  | temporaryFailure
  | permanentFailure
  | other (status : Bytes)
  deriving DecidableEq

def DeliveryStatus.known : DeliveryStatus → Bool
  | .other _ => false
  | _ => true

structure RecipientOutcome where
  recipient : Bytes
  status : DeliveryStatus
  enhancedStatusCode : Bytes
  diagnostic : Bytes
  route : Bytes
  deriving DecidableEq

structure DeliveryResult where
  success : Bool
  error : Option GoError
  recipientOutcomes : List RecipientOutcome
  deliveryMethod : Bytes
  deriving DecidableEq

/-- `&DeliveryResult{}`. -/
def DeliveryResult.empty : DeliveryResult :=
  { success := false
    error := none
    recipientOutcomes := []
    deliveryMethod := [] }

/-! ## Normalization -/

def unsuccessfulWithoutError : GoError :=
  .plain (lit "delivery handler returned an unsuccessful result without an error")

/-- A report counts when it names an envelope recipient, has a known status and is not
surplus: an address is reported at most as often as the envelope holds it. -/
def keepsOutcome (rcptTo : List Bytes) (kept : List RecipientOutcome)
    (o : RecipientOutcome) : Bool :=
  o.recipient != [] && rcptTo.count o.recipient != 0 &&
    decide ((kept.filter fun k => k.recipient == o.recipient).length <
      rcptTo.count o.recipient) && o.status.known

def keepOutcomes (rcptTo : List Bytes) :
    List RecipientOutcome → List RecipientOutcome → List RecipientOutcome
  | kept, [] => kept
  | kept, o :: rest =>
    if keepsOutcome rcptTo kept o then keepOutcomes rcptTo (kept ++ [o]) rest
    else keepOutcomes rcptTo kept rest

def unreported (recipient : Bytes) : RecipientOutcome :=
  { recipient := recipient
    status := .temporaryFailure
    enhancedStatusCode := []
    diagnostic := []
    route := [] }

def assignOutcomes : List Bytes → List RecipientOutcome → List RecipientOutcome
  | [], _ => []
  | r :: rest, kept =>
    match kept.find? fun k => k.recipient == r with
    | some o => o :: assignOutcomes rest (kept.eraseP fun k => k.recipient == r)
    | none => unreported r :: assignOutcomes rest kept

def normalizeDeliveryResult (rcptTo : List Bytes) (result : Option DeliveryResult)
    (deliveryErr : Option GoError) : DeliveryResult × Option GoError :=
  let result := result.getD DeliveryResult.empty
  let err := deliveryErr.or result.error
  let err := if err.isNone && !result.success then some unsuccessfulWithoutError else err
  let normalized := assignOutcomes rcptTo (keepOutcomes rcptTo [] result.recipientOutcomes)
  ({ result with recipientOutcomes := normalized, error := err }, err)

variable (rcptTo : List Bytes)

theorem assignOutcomes_recipient (kept : List RecipientOutcome) :
    (assignOutcomes rcptTo kept).map RecipientOutcome.recipient = rcptTo := by
  fun_induction assignOutcomes rcptTo kept with
  | case1 => rfl
  | case2 r rest kept o hfind ih =>
    have hsame : o.recipient = r := by
      simpa using List.find?_some hfind
    simp [hsame, ih]
  | case3 r rest kept hfind ih => simp [unreported, ih]

theorem keepOutcomes_known (kept reports : List RecipientOutcome)
    (hkept : ∀ o ∈ kept, o.status.known = true) :
    ∀ o ∈ keepOutcomes rcptTo kept reports, o.status.known = true := by
  fun_induction keepOutcomes rcptTo kept reports with
  | case1 => exact hkept
  | case2 kept o rest hkeep ih =>
    have hknown : o.status.known = true := by
      simp only [keepsOutcome, Bool.and_eq_true] at hkeep
      exact hkeep.2
    exact ih (Slots.forall_concat hkept hknown)
  | case3 kept o rest _ ih => exact ih hkept

theorem assignOutcomes_known (kept : List RecipientOutcome)
    (hkept : ∀ o ∈ kept, o.status.known = true) :
    ∀ o ∈ assignOutcomes rcptTo kept, o.status.known = true := by
  intro o ho
  fun_induction assignOutcomes rcptTo kept with
  | case1 => cases ho
  | case2 r rest kept first hfind ih =>
    rcases List.mem_cons.1 ho with rfl | hrest
    · exact hkept o (List.mem_of_find?_eq_some hfind)
    · exact ih (fun k hk => hkept k (List.mem_of_mem_eraseP hk)) hrest
  | case3 r rest kept hfind ih =>
    rcases List.mem_cons.1 ho with rfl | hrest
    · rfl
    · exact ih hkept hrest

/-- The normalized outcomes are one known outcome for each envelope recipient, in order. -/
theorem normalizeDeliveryResult_recipient (result : Option DeliveryResult) (err : Option GoError) :
    (normalizeDeliveryResult rcptTo result err).1.recipientOutcomes.map
      RecipientOutcome.recipient = rcptTo :=
  assignOutcomes_recipient rcptTo _

theorem normalizeDeliveryResult_known (result : Option DeliveryResult) (err : Option GoError) :
    ∀ o ∈ (normalizeDeliveryResult rcptTo result err).1.recipientOutcomes,
      o.status.known = true :=
  assignOutcomes_known rcptTo _ (keepOutcomes_known rcptTo [] _ (by simp))

/-! ## NOTIFY -/

abbrev Annotations := List (Bytes × Bytes)

/-- NOTIFY of an occurrence; the key of its address is the fallback. -/
def notifyNeverForOccurrence (annotations : Annotations) (r : DsnRecipient) : Bool :=
  let value :=
    match annotations.lookup (lit "dsn_notify_occurrence:" ++ r.occurrence) with
    | some v => v
    | none => (annotations.lookup (lit "dsn_notify:" ++ r.address)).getD []
  (value.splitOn 44).any fun token => equalFold (trimSpace token) (lit "NEVER")

def keepsAnnotation (recipients : List DsnRecipient) (key : Bytes) : Bool :=
  if hasPrefix key (lit "dsn_notify:") then
    recipients.any fun r => r.address == key.drop (lit "dsn_notify:").length
  else if hasPrefix key (lit "dsn_orcpt:") then
    recipients.any fun r => r.address == key.drop (lit "dsn_orcpt:").length
  else true

def dsnAnnotationsForRecipients (annotations : Annotations) (recipients : List DsnRecipient) :
    Annotations :=
  annotations.filter fun kv => keepsAnnotation recipients kv.1

/-! ## Dispositions -/

/-- The loop variables of `handleRecipientOutcomes`. `deliveredR` also holds the permanent
failures whose sender asked not to be told. -/
structure Dispositions where
  delivered : List Bytes
  deliveredR : List DsnRecipient
  temporaryR : List DsnRecipient
  permanentR : List DsnRecipient
  firstPermanent : Option RecipientOutcome
  deriving DecidableEq

def outcomeRecipient (occurrence : Bytes) (o : RecipientOutcome) : DsnRecipient :=
  { occurrence := occurrence
    address := o.recipient
    diagnostic := o.diagnostic }

def classify (annotations : Annotations) : List (Bytes × RecipientOutcome) → Dispositions
  | [] =>
    { delivered := []
      deliveredR := []
      temporaryR := []
      permanentR := []
      firstPermanent := none }
  | (occurrence, o) :: rest =>
    let d := classify annotations rest
    let r := outcomeRecipient occurrence o
    match o.status with
    | .delivered =>
      { d with delivered := o.recipient :: d.delivered, deliveredR := r :: d.deliveredR }
    | .temporaryFailure => { d with temporaryR := r :: d.temporaryR }
    | .permanentFailure =>
      if notifyNeverForOccurrence annotations r then { d with deliveredR := r :: d.deliveredR }
      else { d with permanentR := r :: d.permanentR, firstPermanent := some o }
    | .other _ => d

theorem classify_perm (annotations : Annotations) (ps : List (Bytes × RecipientOutcome))
    (hknown : ∀ p ∈ ps, p.2.status.known = true) :
    ((classify annotations ps).permanentR ++ (classify annotations ps).temporaryR ++
      (classify annotations ps).deliveredR).Perm
      (ps.map fun p => outcomeRecipient p.1 p.2) := by
  induction ps with
  | nil => simp [classify]
  | cons p rest ih =>
    obtain ⟨occurrence, o⟩ := p
    have hrest := ih fun q hq => hknown q (List.mem_cons_of_mem _ hq)
    have hhead := hknown (occurrence, o) List.mem_cons_self
    simp only [classify, List.map_cons]
    cases hstatus : o.status with
    | delivered => exact List.perm_middle.trans (hrest.cons _)
    | temporaryFailure =>
      simp only [List.append_assoc, List.cons_append] at hrest ⊢
      exact List.perm_middle.trans (hrest.cons _)
    | permanentFailure =>
      dsimp only
      split
      · exact List.perm_middle.trans (hrest.cons _)
      · exact hrest.cons _
    | other s => simp [hstatus, DeliveryStatus.known] at hhead

/-- The three groups, each as the outcomes that belong to it. -/
theorem classify_groups (annotations : Annotations) (ps : List (Bytes × RecipientOutcome)) :
    (classify annotations ps).permanentR =
        (ps.filter fun p => p.2.status == .permanentFailure &&
          !notifyNeverForOccurrence annotations (outcomeRecipient p.1 p.2)).map
            (fun p => outcomeRecipient p.1 p.2) ∧
      (classify annotations ps).temporaryR =
        (ps.filter fun p => p.2.status == .temporaryFailure).map
          (fun p => outcomeRecipient p.1 p.2) ∧
      (classify annotations ps).deliveredR =
        (ps.filter fun p => p.2.status == .delivered || (p.2.status == .permanentFailure &&
          notifyNeverForOccurrence annotations (outcomeRecipient p.1 p.2))).map
            (fun p => outcomeRecipient p.1 p.2) := by
  induction ps with
  | nil => exact ⟨rfl, rfl, rfl⟩
  | cons p rest ih =>
    obtain ⟨occurrence, o⟩ := p
    obtain ⟨hpermanent, htemporary, hdelivered⟩ := ih
    cases hstatus : o.status with
    | permanentFailure =>
      by_cases hnever : notifyNeverForOccurrence annotations (outcomeRecipient occurrence o) = true
      · simp [classify, hstatus, hnever, hpermanent, htemporary, hdelivered]
      · simp [classify, hstatus, hnever, hpermanent, htemporary, hdelivered]
    | _ => simp [classify, hstatus, hpermanent, htemporary, hdelivered]

section

variable {annotations : Annotations} {ps : List (Bytes × RecipientOutcome)} {r : DsnRecipient}

theorem mem_permanentR (hr : r ∈ (classify annotations ps).permanentR) :
    ∃ p ∈ ps, r = outcomeRecipient p.1 p.2 ∧ p.2.status = .permanentFailure := by
  rw [(classify_groups annotations ps).1] at hr
  obtain ⟨p, hp, rfl⟩ := List.mem_map.1 hr
  obtain ⟨hin, hstatus⟩ := List.mem_filter.1 hp
  exact ⟨p, hin, rfl, by simp_all⟩

theorem mem_temporaryR (hr : r ∈ (classify annotations ps).temporaryR) :
    ∃ p ∈ ps, r = outcomeRecipient p.1 p.2 ∧ p.2.status = .temporaryFailure := by
  rw [(classify_groups annotations ps).2.1] at hr
  obtain ⟨p, hp, rfl⟩ := List.mem_map.1 hr
  obtain ⟨hin, hstatus⟩ := List.mem_filter.1 hp
  exact ⟨p, hin, rfl, by simpa using hstatus⟩

theorem mem_deliveredR (hr : r ∈ (classify annotations ps).deliveredR) :
    ∃ p ∈ ps, r = outcomeRecipient p.1 p.2 ∧ (p.2.status = .delivered ∨
      (p.2.status = .permanentFailure ∧ notifyNeverForOccurrence annotations r = true)) := by
  rw [(classify_groups annotations ps).2.2] at hr
  obtain ⟨p, hp, rfl⟩ := List.mem_map.1 hr
  obtain ⟨hin, hstatus⟩ := List.mem_filter.1 hp
  exact ⟨p, hin, rfl, by simpa using hstatus⟩

end

end Elemta.Queue

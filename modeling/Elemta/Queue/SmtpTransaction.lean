import Elemta.Queue.Handlers
import Mathlib.Data.List.Dedup

/-!
# Deliveries over SMTP

How the SMTP handler of `delivery_handler.go` comes to its report: a transaction with a mail
server, the servers of a domain one after the other, and the domains of a message. What the
servers reply is an input.

Every recipient of a domain has one outcome, and a temporary one makes the error of its domain,
and so that of the message, temporary. A recipient without exactly one `@` is in no domain, and
nothing is reported for it.
-/

namespace Elemta.Queue

open Bytes

/-- What comes of a mail server: an error before the first recipient, marked when the destination
guard refused the server, or the replies to the recipients and to the data. -/
structure MailServer where
  mxHost : Bytes
  /-- The remote address of the connection, without the port. -/
  deliveryHost : Bytes
  connect : Option (Bool × GoError)
  rcpt : Nat → Option GoError
  data : Option GoError

def smtpFailureOutcome (route recipient : Bytes) (err : GoError) : RecipientOutcome :=
  let permanent := err.replyCode.any fun code => decide (500 ≤ code ∧ code < 600)
  lmtpOutcome route recipient (if permanent then .permanentFailure else .temporaryFailure)
    (enhancedStatus err.text) err.text

variable (server : MailServer) (domain : Bytes)

/-- The outcomes after the recipients; an accepted one is delivered until the data fails. -/
def rcptOutcomes (recipients : List Bytes) : List RecipientOutcome :=
  recipients.zipIdx.map fun (recipient, i) =>
    match server.rcpt i with
    | some err => smtpFailureOutcome server.mxHost recipient err
    | none => lmtpOutcome server.mxHost recipient .delivered [] []

def dataOutcomes (outcomes : List RecipientOutcome) : List RecipientOutcome :=
  match server.data with
  | none => outcomes
  | some err => outcomes.map fun o =>
    if o.status = .delivered then smtpFailureOutcome o.route o.recipient err else o

def outcomesError (outcomes : List RecipientOutcome) : Option GoError :=
  if outcomes.any fun o => o.status == .temporaryFailure then
    some (.temporary (lit "one or more SMTP recipients temporarily failed"))
  else if outcomes.any fun o => o.status == .permanentFailure then
    some (.permanent (lit "all SMTP recipients permanently failed"))
  else
    none

def deliverToAddress (recipients : List Bytes) : DomainAnswer :=
  match server.connect with
  | some (_, err) => { host := [], outcomes := [], err := some err }
  | none =>
    let outcomes := dataOutcomes server (rcptOutcomes server recipients)
    { host := server.deliveryHost, outcomes := outcomes, err := outcomesError outcomes }

/-- There is only one port to try. -/
def attemptDeliveryToHost (recipients : List Bytes) : DomainAnswer :=
  let answer := deliverToAddress server recipients
  match answer.outcomes, answer.err with
  | [], some err =>
    let text := lit "delivery failed to all ports for host " ++ server.mxHost ++ lit ": "
    { host := [], outcomes := [], err := some (.wrapped (text ++ err.text) err) }
  | _, _ => answer

/-- The servers in the order of their preference, with the last error and whether it and all
before it were refusals of the guard. -/
def tryServers (domain : Bytes) (recipients : List Bytes) :
    Option (Bool × GoError) → Bool → List MailServer → DomainAnswer
  | last, refusedAll, [] =>
    let text := lit "delivery failed to all MX hosts for domain " ++ domain ++ lit ": "
    let err := match last with
      | none => GoError.plain (lit "no MX records found for domain " ++ domain)
      | some (refused, err) =>
        if !refusedAll && refused then .temporary (text ++ err.text)
        else .wrapped (text ++ err.text) err
    { host := [], outcomes := [], err := some err }
  | _, refusedAll, server :: rest =>
    let answer := attemptDeliveryToHost server recipients
    match answer.outcomes, answer.err with
    | [], some err =>
      let refused := (server.connect.map Prod.fst).getD false
      tryServers domain recipients (some (refused, err)) (refusedAll && refused) rest
    | _, _ => answer

/-- How a domain is reached: the error of the sending pool, of a pause, of the lookup or of the
connection slots, or the servers that the lookup gave. -/
abbrev DomainRoute := Except GoError (List MailServer)

def deliverToDomain (route : Bytes → DomainRoute) (domain : Bytes)
    (recipients : List Bytes) : DomainAnswer :=
  match route domain with
  | .error err => { host := [], outcomes := [], err := some err }
  | .ok servers => tryServers domain recipients none true servers

/-! ## One domain -/

/-- The report of a domain: nothing or one outcome for each recipient, and a temporary one only
with an error that is temporary. -/
structure EachReported (recipients : List Bytes) (answer : DomainAnswer) : Prop where
  each : answer.outcomes = [] ∨ answer.outcomes.map RecipientOutcome.recipient = recipients
  temporary : ∀ o ∈ answer.outcomes, o.status = .temporaryFailure →
    isTemporaryFailure answer.err = true

variable {recipients : List Bytes}

theorem EachReported.of_error (host : Bytes) (err : Option GoError) :
    EachReported recipients { host := host, outcomes := [], err := err } :=
  ⟨.inl rfl, nofun⟩

theorem rcptOutcomes_recipient :
    (rcptOutcomes server recipients).map RecipientOutcome.recipient = recipients := by
  have hone : ∀ entry : Bytes × Nat,
      RecipientOutcome.recipient (match server.rcpt entry.2 with
        | some err => smtpFailureOutcome server.mxHost entry.1 err
        | none => lmtpOutcome server.mxHost entry.1 .delivered [] []) = entry.1 := by
    intro entry
    cases server.rcpt entry.2 <;> rfl
  unfold rcptOutcomes
  rw [List.map_map]
  exact (List.map_congr_left fun entry _ => hone entry).trans (List.zipIdx_map_fst 0 recipients)

theorem dataOutcomes_recipient (outcomes : List RecipientOutcome) :
    (dataOutcomes server outcomes).map RecipientOutcome.recipient =
      outcomes.map RecipientOutcome.recipient := by
  unfold dataOutcomes
  cases server.data with
  | none => rfl
  | some err =>
    rw [List.map_map]
    refine List.map_congr_left fun o _ => ?_
    simp only [Function.comp_apply]
    split_ifs <;> rfl

theorem eachReported_deliverToAddress :
    EachReported recipients (deliverToAddress server recipients) := by
  unfold deliverToAddress
  split
  · exact .of_error _ _
  refine ⟨.inr ?_, fun o ho htemp => ?_⟩
  · exact (dataOutcomes_recipient server _).trans (rcptOutcomes_recipient server)
  · have hany : ((dataOutcomes server (rcptOutcomes server recipients)).any fun o =>
        o.status == .temporaryFailure) = true :=
      List.any_eq_true.mpr ⟨o, ho, by simp [htemp]⟩
    simp only [outcomesError, hany, if_true]
    rfl

theorem eachReported_attemptDeliveryToHost :
    EachReported recipients (attemptDeliveryToHost server recipients) := by
  unfold attemptDeliveryToHost
  dsimp only
  split
  · exact .of_error _ _
  · exact eachReported_deliverToAddress server

theorem eachReported_tryServers (servers : List MailServer) :
    ∀ last refusedAll, EachReported recipients
      (tryServers domain recipients last refusedAll servers) := by
  intro last refusedAll
  fun_induction tryServers domain recipients last refusedAll servers with
  | case1 => exact .of_error _ _
  | case2 => assumption
  | case3 _ _ server => exact eachReported_attemptDeliveryToHost server

theorem eachReported_deliverToDomain (route : Bytes → DomainRoute) (domain : Bytes) :
    EachReported recipients (deliverToDomain route domain recipients) := by
  unfold deliverToDomain
  split
  · exact .of_error _ _
  · exact eachReported_tryServers _ _ _ _

variable {answer : DomainAnswer}

/-- Recipients that the report leaves out are filled in. -/
theorem domainOutcomes_recipient (h : EachReported recipients answer) :
    (domainOutcomes domain recipients answer).map RecipientOutcome.recipient = recipients := by
  have hfilled : ∀ rest : List Bytes, ∀ (route diagnostic : Bytes) status,
      (rest.map fun r => lmtpOutcome route r status [] diagnostic).map
        RecipientOutcome.recipient = rest := by
    intro rest route diagnostic status
    simp [lmtpOutcome, Function.comp_def]
  unfold domainOutcomes
  have hrest : ∀ filled : List RecipientOutcome,
      filled.map RecipientOutcome.recipient = recipients.drop answer.outcomes.length →
      (answer.outcomes ++ filled).map RecipientOutcome.recipient = recipients := by
    intro filled hdrop
    rw [List.map_append, hdrop]
    rcases h.each with hnone | hall
    · simp [hnone]
    · have hlength : recipients.length ≤ answer.outcomes.length := by
        rw [← hall, List.length_map]
      rw [hall, List.drop_eq_nil_of_le hlength, List.append_nil]
  apply hrest
  split
  · exact hfilled _ _ _ _
  · exact hfilled _ _ _ _

theorem domainOutcomes_temporary (h : EachReported recipients answer)
    {o : RecipientOutcome} (ho : o ∈ domainOutcomes domain recipients answer)
    (htemp : o.status = .temporaryFailure) : isTemporaryFailure answer.err = true := by
  rcases List.mem_append.mp ho with hreported | hfilled
  · exact h.temporary o hreported htemp
  cases herr : answer.err with
  | none =>
    rw [herr] at hfilled
    obtain ⟨r, -, rfl⟩ := List.mem_map.mp hfilled
    exact absurd htemp (by simp [lmtpOutcome])
  | some err =>
    rw [herr] at hfilled
    obtain ⟨r, -, rfl⟩ := List.mem_map.mp hfilled
    by_contra hperm
    exact absurd htemp (by simp [lmtpOutcome, hperm])

/-! ## All domains of a message -/

/-- Grouping by a key loses nothing when every key of the list has its group. -/
theorem perm_flatMap_filter {α β : Type} [BEq β] [LawfulBEq β] (key : α → Option β)
    (items : List α) {keys : List β} (hnodup : keys.Nodup) :
    (keys.flatMap fun k => items.filter fun x => key x == some k).Perm
      (items.filter fun x => (key x).any keys.contains) := by
  induction keys with
  | nil =>
    have hnone : ∀ x, (key x).any ([] : List β).contains = false := by
      intro x
      cases key x <;> rfl
    simp [hnone]
  | cons k keys ih =>
    obtain ⟨hk, hkeys⟩ := List.nodup_cons.mp hnodup
    -- the items of the first key, and then those of the others
    have hsplit := List.filter_append_perm (fun x => key x == some k)
      (items.filter fun x => (key x).any (k :: keys).contains)
    rw [List.filter_filter, List.filter_filter] at hsplit
    refine .trans ?_ hsplit
    refine .append (.of_eq (List.filter_congr fun x _ => ?_))
      ((ih hkeys).trans (.of_eq (List.filter_congr fun x _ => ?_)))
    · cases key x with
      | none => rfl
      | some k' =>
        by_cases hsame : k' = k <;> simp [hsame]
    · cases key x with
      | none => rfl
      | some k' =>
        by_cases hsame : k' = k
        · simp [hsame, hk]
        · simp [hsame]

theorem groupRecipientsByDomain_perm (recipients : List Bytes) :
    ((groupRecipientsByDomain recipients).flatMap Prod.snd).Perm
      (recipients.filter fun r => (smtpDomain r).isSome) := by
  unfold groupRecipientsByDomain
  rw [List.flatMap_map]
  have hsorted := List.mergeSort_perm (recipients.filterMap smtpDomain).dedup leBytes
  refine (perm_flatMap_filter smtpDomain recipients
    (hsorted.nodup_iff.mpr (List.nodup_dedup _))).trans (.of_eq (List.filter_congr ?_))
  intro r hr
  cases hdomain : smtpDomain r with
  | none => rfl
  | some domain =>
    rw [Option.any_some, Option.isSome_some, List.contains_iff_mem, hsorted.mem_iff, List.mem_dedup]
    exact List.mem_filterMap.mpr ⟨r, hr, hdomain⟩

/-- A temporary failure of one domain makes the error of the message temporary. -/
theorem isTemporaryFailure_aggregate {failures : List (Bytes × GoError)} {failure : Bytes × GoError}
    (hmem : failure ∈ failures) (htemp : isTemporaryFailure (some failure.2) = true) :
    ∃ err, aggregateDomainFailures failures = some err ∧ isTemporaryFailure (some err) = true ∧
      ∀ text, isTemporaryFailure (some (.wrapped text err)) = true := by
  have hall : (failures.all fun entry => !isTemporaryFailure (some entry.2)) = false := by
    rw [List.all_eq_false]
    exact ⟨failure, hmem, by simp [htemp]⟩
  unfold aggregateDomainFailures
  rw [if_neg (List.ne_nil_of_mem hmem)]
  exact ⟨_, rfl, by rw [hall]; rfl, fun text => by rw [hall]; rfl⟩

theorem stamped_buildDeliveryResult (method : Bytes) (total delivered : Nat)
    (outcomes : List RecipientOutcome) (lastError : Option GoError) :
    ((stamped method (buildDeliveryResult total delivered outcomes lastError)).1.map
      DeliveryResult.recipientOutcomes).getD [] = outcomes := by
  unfold buildDeliveryResult
  split_ifs <;> rfl

theorem buildDeliveryResult_temporary {total delivered : Nat} {outcomes : List RecipientOutcome}
    {last err : GoError} (htemp : isTemporaryFailure (some last) = true)
    (hwrapped : ∀ text, isTemporaryFailure (some (.wrapped text last)) = true)
    (herr : (buildDeliveryResult total delivered outcomes (some last)).2 = some err) :
    isTemporaryFailure (some err) = true := by
  unfold buildDeliveryResult at herr
  split_ifs at herr
  · exact Option.some.inj herr ▸ hwrapped _
  · exact Option.some.inj herr ▸ htemp

/-- Each occurrence has one outcome exactly when every recipient has exactly one `@`; and the error
is permanent only when no outcome is temporary. -/
theorem smtp_outcomes (route : Bytes → DomainRoute) (msg : Message) :
    let answer := smtpHandler none (deliverToDomain route) msg
    let outcomes := (answer.1.map DeliveryResult.recipientOutcomes).getD []
    ((outcomes.map RecipientOutcome.recipient).Perm msg.rcptTo ↔
      ∀ r ∈ msg.rcptTo, (smtpDomain r).isSome) ∧
    ∀ err, answer.2 = some err → isTemporaryFailure (some err) = false →
      ∀ o ∈ outcomes, o.status ≠ .temporaryFailure := by
  intro answer outcomes
  have houtcomes : outcomes = (groupRecipientsByDomain msg.rcptTo).flatMap fun group =>
      domainOutcomes group.1 group.2 (deliverToDomain route group.1 group.2) :=
    stamped_buildDeliveryResult _ _ _ _ _
  constructor
  · have heach : ∀ group ∈ groupRecipientsByDomain msg.rcptTo,
        (domainOutcomes group.1 group.2 (deliverToDomain route group.1 group.2)).map
          RecipientOutcome.recipient = group.2 := fun group _ =>
      domainOutcomes_recipient group.1 (eachReported_deliverToDomain route group.1)
    rw [houtcomes, List.map_flatMap, List.flatMap_congr heach]
    have hgrouped := groupRecipientsByDomain_perm msg.rcptTo
    refine ⟨fun hperm => ?_, fun hdomains => ?_⟩
    · exact List.length_filter_eq_length_iff.mp (hgrouped.symm.trans hperm).length_eq
    · rwa [List.filter_eq_self.mpr hdomains] at hgrouped
  · intro err herr hperm o ho htemp
    rw [houtcomes, List.mem_flatMap] at ho
    obtain ⟨⟨domain, rs⟩, hgroup, hmem⟩ := ho
    have hdomain := domainOutcomes_temporary domain (eachReported_deliverToDomain route domain)
      hmem htemp
    cases hfailed : (deliverToDomain route domain rs).err with
    | none => simp [hfailed, isTemporaryFailure] at hdomain
    | some failed =>
      rw [hfailed] at hdomain
      have hfailure : (domain, failed) ∈ (groupRecipientsByDomain msg.rcptTo).filterMap fun group =>
          (deliverToDomain route group.1 group.2).err.map fun e => (group.1, e) :=
        List.mem_filterMap.mpr ⟨(domain, rs), hgroup, by simp [hfailed]⟩
      obtain ⟨last, hlast, hlastTemp, hwrapped⟩ := isTemporaryFailure_aggregate hfailure hdomain
      have hbuilt : (smtpDeliver none (deliverToDomain route) msg).2 = some err := herr
      simp only [smtpDeliver, hlast] at hbuilt
      rw [buildDeliveryResult_temporary hlastTemp hwrapped hbuilt] at hperm
      cases hperm

def accepting : MailServer :=
  { mxHost := lit "mx", deliveryHost := lit "192.0.2.1", connect := none,
    rcpt := fun _ => none, data := none }

/-- An address whose local part is quoted because of its `@` is delivered to no domain, and
nothing is reported for it. -/
theorem quoted_at_unreported :
    let msg := newEnqueueMessage [] [] [lit "\"a@b\"@c.d"] [] 0 .normal 0 0
    let answer := smtpHandler none (deliverToDomain fun _ => .ok [accepting]) msg
    (answer.1.map DeliveryResult.recipientOutcomes) = some [] := by
  decide +kernel

/-- Two occurrences of an address have two outcomes. -/
theorem smtp_outcomes_twice :
    let msg := newEnqueueMessage [] [] [lit "a@b", lit "a@b"] [] 0 .normal 0 0
    let answer := smtpHandler none (deliverToDomain fun _ => .ok [accepting]) msg
    (((answer.1.map DeliveryResult.recipientOutcomes).getD []).map
      RecipientOutcome.recipient).Perm [lit "a@b", lit "a@b"] :=
  (smtp_outcomes (fun _ => .ok [accepting])
    (newEnqueueMessage [] [] [lit "a@b", lit "a@b"] [] 0 .normal 0 0)).1.2 (by decide +kernel)

end Elemta.Queue

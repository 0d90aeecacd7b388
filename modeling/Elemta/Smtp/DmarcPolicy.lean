import Elemta.Smtp.AuthResults
import Elemta.Smtp.Verdict

/-!
# Forged senders of a domain with a policy

A domain that asks for rejection gets it: where the front of a message can be read as a
header with one From field of one address, and neither SPF nor DKIM passes for a domain
that aligns with it, the message is not accepted. A front that cannot be read names no
domain, so there is no policy to apply and the message goes through.
-/

namespace Elemta.Smtp

open Bytes MailHeader AuthResults

/-- The answer to the message is the one that the verifier gives on its front. -/
def JudgedBy (o : Outside) (c : AuthResults.Config) (env : DeliveryEnv) (st : SessionState)
    (content : Bytes) : Prop :=
  env.dmarcRejects =
    decide (check o c.new st.heloName st.mailFrom (content.take defaultHeadSize) = .reject)

/-- A forged sender: the front of the message names one author, whose domain asks for rejection,
and nothing that aligns with the domain has passed. -/
def Forged (o : Outside) (st : SessionState) (content : Bytes) : Prop :=
  ∃ header field address, readMessage (content.take defaultHeadSize) = some header ∧
    header.values (lit "From") = [field] ∧ o.parseAddressList field = .ok [address] ∧
    trimDot (domainOf address) ≠ [] ∧
    ∃ record, lookupDMARC o (trimDot (domainOf address)) = .ok record ∧ record.policy = .reject ∧
      spfAligned o (checkSPF o st.heloName st.mailFrom) (trimDot (domainOf address)) record = false ∧
      dkimAligned o o.dkim (trimDot (domainOf address)) record = false

theorem Forged.check {o : Outside} {st : SessionState} {content : Bytes}
    (h : Forged o st content) {c : AuthResults.Config} (hactive : c.enabled = true)
    (hdmarc : c.dmarcEnabled = true) (henforce : c.enforceDMARC = true) :
    check o c st.heloName st.mailFrom (content.take defaultHeadSize) = .reject := by
  obtain ⟨header, field, address, hread, hfrom, hparse, hne, record, hlookup, hpolicy, hspf,
    hdkim⟩ := h
  have hauthors := authorDomains_single hread hfrom hparse rfl hne
  -- a check that is switched off has not passed either
  have hspf' : spfAligned o (if c.spfEnabled then checkSPF o st.heloName st.mailFrom
      else { value := .none, domain := [], reason := lit "SPF plugin disabled" })
      (trimDot (domainOf address)) record = false := by
    split
    · exact hspf
    · rfl
  have hdkim' : dkimAligned o (if c.dkimEnabled then o.dkim else [])
      (trimDot (domainOf address)) record = false := by
    split
    · exact hdkim
    · rfl
  have hverdict := evaluateDMARC_fail hne hlookup hspf' hdkim'
  simp only [AuthResults.check, Config.active, hactive, hdmarc, hauthors, decideDMARC, hverdict,
    hpolicy, applyPolicy, henforce]
  simp

/-- With enforcement on, a forged message of someone who is not signed in is not answered with 250
and the queue stays as it was, unless the content analysis turns it down in silence. -/
theorem forged_sender_refused (cfg : Config) (o : Outside) (c : AuthResults.Config) (a : Answers)
    {s : Session} (hend : s.EndsMessage) (content : Bytes)
    (hcontent : s.received cfg a = some content) (hguest : s.state.authenticated = false)
    (hactive : c.enabled = true) (hdmarc : c.new.dmarcEnabled = true)
    (henforce : c.enforceDMARC = true) (hjudged : JudgedBy o c a.delivery s.state content)
    (hforged : Forged o s.state content)
    (hheard : ¬RefusedInSilence cfg a.delivery s.state content) :
    (s.turn cfg a).replies ≠ s.replies ++ [Session.accepted] ∧ (s.turn cfg a).store = s.store := by
  have hnew : c.new.enabled = true ∧ c.new.enforceDMARC = true := by
    unfold Config.new
    split
    · exact ⟨hactive, henforce⟩
    · exact ⟨hactive, henforce⟩
  have hrejects : a.delivery.dmarcRejects = true := by
    rw [hjudged, hforged.check hnew.1 hdmarc hnew.2]
    rfl
  have hverdict := Session.turn_verdict cfg a hend
  rw [hcontent] at hverdict
  cases hverdict with
  | unreadable _ hstore hreplies _ => exact ⟨hreplies, hstore⟩
  | refused _ e mode st _ hstore hreplies => exact ⟨hreplies, hstore⟩
  | accepted _ mode st processed _ _ =>
    exfalso
    rcases processMessage_of_none processed with ⟨-, hverify, -⟩ | ⟨hsilent, -⟩
    · simp [verifyAuthentication, hguest, hrejects] at hverify
    · exact hheard ((refusedInSilence_congr content.length mode).1 hsilent)

/-! ## A forger with and without a broken line -/

namespace Bank

def server : Config :=
  { Config.plain none with
    checks :=
      { headerModeText := lit "off"
        bodyModeText := lit "off"
        strictAddressHeaders := false
        rejectInvalidUTF8 := false } }

def verifier : AuthResults.Config :=
  { enabled := true
    spfEnabled := true
    dkimEnabled := true
    dmarcEnabled := true
    arcEnabled := false
    enforceDMARC := true }

/-- The peer may not send for the bank, which asks for rejection, and nothing is signed. -/
def outside : Outside :=
  { clientIP := some (lit "192.0.2.1")
    checkHost := fun _ _ _ => (.fail, [])
    dkim := []
    parseAddressList := fun field => .ok [field]
    registrable := fun _ => none
    lookup := fun domain =>
      if domain = lit "bank.example" then
        .ok { policy := .reject, subdomainPolicy := none, strictSPF := false, strictDKIM := false }
      else .error .noPolicy }

def sender : Bytes := lit "a@bank.example"

def session (above : Bytes) : Session :=
  (Session.start server 0 (arrives (lit "EHLO c.example\r\nMAIL FROM:<a@bank.example>\r\n" ++
    lit "RCPT TO:<b@here.example>\r\nDATA\r\n" ++ above ++ lit "From: " ++ sender ++
    lit "\r\n\r\nhi\r\n.\r\n")) .empty).run server (List.replicate 4 (.calm 0 (lit "m1")))

def content (above : Bytes) : Bytes :=
  above ++ lit "From: " ++ sender ++ lit "\r\n\r\nhi\r\n"

def answers (above : Bytes) : Answers :=
  { Answers.calm 0 (lit "m1") with
    delivery := { DeliveryEnv.calm (lit "m1") with
      dmarcRejects := decide (check outside verifier.new (session above).state.heloName
        (session above).state.mailFrom ((content above).take defaultHeadSize) = .reject) } }

end Bank

open Bank in
theorem forged_sender_refused_bank :
    ((session []).turn server (answers [])).replies ≠ (session []).replies ++ [Session.accepted] ∧
      ((session []).turn server (answers [])).store = (session []).store := by
  refine forged_sender_refused server outside verifier (answers []) (.inl ?_) (content [])
    ?_ ?_ rfl rfl rfl rfl ?_ ?_
  · decide +kernel
  · decide +kernel
  · decide +kernel
  · refine ⟨[(lit "From", sender)], sender, sender, ?_, ?_, rfl, ?_,
      { policy := .reject, subdomainPolicy := none, strictSPF := false, strictDKIM := false },
      ?_, rfl, ?_, rfl⟩ <;> decide +kernel
  · intro hsilent
    exact absurd hsilent.2.2.2.2.2 (by decide +kernel)

open Bank in
/-- One line without a colon above the From field, and the forged message is accepted. -/
theorem forged_sender_accepted :
    let above := lit "forward\r\n"
    ((extractHeaders (content above)).filter fun h => toLower h.1 == lit "from") =
        [(lit "From", sender)] ∧
      (session above).received server (answers above) = some (content above) ∧
      ((session above).turn server (answers above)).replies =
        (session above).replies ++ [Session.accepted] ∧
      (((session above).turn server (answers above)).store.entries (lit "m1")).isSome = true := by
  decide +kernel

end Elemta.Smtp

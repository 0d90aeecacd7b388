import Elemta.Smtp.Effects

/-!
# When a message is in the queue

What `processMessage` has done when it reports no error. The reply to a message is
decided by that report alone, so it is truthful exactly when every message without
an error has been saved. The one way around the save is a scan that did not pass
and that no virus or spam report explains: `handleSecurityThreat` has no answer for
it, and the message is dropped with a 250.
-/

namespace Elemta.Smtp

open Bytes BufferedReader

/-! ## The entry -/

/-- Sender and recipients are text, as the command validator leaves them. -/
structure SessionState.IsText (st : SessionState) : Prop where
  mailFrom : Utf8.valid st.mailFrom = true
  rcptTo : ∀ r ∈ st.rcptTo, Utf8.valid r = true

variable {id subject prefix_ body : Bytes} {cfg : Config} {env : DeliveryEnv}
  {m : Queue.Message} {s s' : Queue.Store} {st : SessionState}

theorem SessionState.IsText.map_toValid (h : st.IsText) :
    st.rcptTo.map Utf8.toValid = st.rcptTo := by
  calc st.rcptTo.map Utf8.toValid = st.rcptTo.map id :=
        List.map_congr_left fun r hr => Utf8.toValid_eq_self_iff.2 (h.rcptTo r hr)
    _ = st.rcptTo := List.map_id _

/-- Exactly one queue entry was created: it has the envelope of the session, its content is a
header block of this server in front of `body`, and every other entry is what it was. -/
structure CreatedOne (st : SessionState) (id body : Bytes) (s s' : Queue.Store) : Prop where
  fresh : s.entries id = none
  entry : ∃ m, s'.entries = Function.update s.entries id (some m) ∧ m.mailFrom = st.mailFrom ∧
    m.rcptTo = st.rcptTo ∧ m.queueType = .active
  content : ∃ header, s'.contents id = some (header ++ body)
  others : ∀ other, other ≠ id → s'.contents other = s.contents other

variable (ok : Nat → Queue.Call → Bool) (now : Queue.Time)

open Queue.Manager in
theorem annotateAll_keeps (i : Nat)
    (notes : List (Bytes × Bytes)) (hs : s.WF) (hentry : s.entries id = some m) :
    Keeps s id m (· = m.queueType) (annotateAll ok now id i notes s) := by
  induction notes generalizing i s m with
  | nil => exact ⟨m, Rewrites.refl hs hentry, rfl, rfl⟩
  | cons note rest ih =>
    obtain ⟨m₁, hstep, henv, hqueue⟩ :=
      setAnnotationAt_keeps (ok i) now hs hentry note.1 note.2
    have hentry₁ : (setAnnotationAt (ok i) now s id note.1 note.2).entries id = some m₁ := by
      rw [hstep.entries, Function.update_self]
    obtain ⟨m₂, hrest, henv₂, hqueue₂⟩ := ih (i + 1) hstep.wf hentry₁
    exact ⟨m₂, hstep.trans hrest, henv₂.trans henv, hqueue₂.trans hqueue⟩

theorem createdOne_of_saveMessage (hs : s.WF) (hid : s.Unused env.id) (htext : st.IsText)
    (h : saveMessage env st subject prefix_ body s = some s') : CreatedOne st env.id body s s' := by
  unfold saveMessage at h
  split at h
  · simp at h
  rename_i header signedFor _
  dsimp only at h
  split at h
  · generalize hmsg : Queue.newEnqueueMessage env.id st.mailFrom st.rcptTo subject
      (header.length + st.dataSize) .normal env.receivedAt env.now = msg at h
    have hmid : msg.id = env.id := by rw [← hmsg]; rfl
    have hunused : s.Unused msg.id := hmid ▸ hid
    have hcreate := hunused.createMessageIfAbsent (header ++ body)
    rw [hcreate] at h
    have hwf := hs.createMessageIfAbsent hcreate
    have hentry : ((s.putEntry msg).putContent msg.id (header ++ body)).entries env.id =
        some (Queue.Store.recorded msg) := by
      simp [Queue.Store.putContent, Queue.Store.putEntry, hmid]
    obtain ⟨m, hrw, henv, hqueue⟩ := annotateAll_keeps env.ok env.now 1
      (dsnAnnotations st ++ if signedFor = [] then [] else [(lit "dkim_signed", signedFor)])
      hwf hentry
    have hs' := Option.some.inj h
    rw [hs'] at hrw
    obtain ⟨-, hfrom, hto, -⟩ := Queue.Envelope.mk.inj henv
    refine ⟨hid.entry, ⟨m, ?_, ?_, ?_, ?_⟩, ⟨header, ?_⟩, ?_⟩
    · rw [hrw.entries]
      simp [Queue.Store.putContent, Queue.Store.putEntry, hmid]
    · rw [hfrom, ← hmsg]
      exact Utf8.toValid_eq_self_iff.2 htext.mailFrom
    · rw [hto, ← hmsg]
      exact htext.map_toValid
    · rw [hqueue, ← hmsg]
      rfl
    · rw [hrw.body m rfl]
      simp [Queue.Store.putContent, hmid]
    · intro other hne
      rw [hrw.contents other hne]
      simp [Queue.Store.putContent, Queue.Store.putEntry, hmid, hne]
  · simp at h

open Queue.Manager in
theorem annotateAll_of_absent (i : Nat) (notes : List (Bytes × Bytes)) (h : s.entries id = none) :
    annotateAll ok now id i notes s = s := by
  induction notes generalizing i with
  | nil => rfl
  | cons note rest ih =>
    have hsame : setAnnotationAt (ok i) now s id note.1 note.2 = s := by
      simp [setAnnotationAt, getMessage_of_absent (ok i) h]
    simp only [annotateAll, hsame]
    exact ih (i + 1)

theorem annotateAll_entry (key : Bytes) (i : Nat) (notes : List (Bytes × Bytes)) (hs : s.WF)
    (h : (annotateAll ok now key i notes s).entries id = some m) :
    ∃ m₀, s.entries id = some m₀ ∧ m.envelope = m₀.envelope := by
  cases hentry : s.entries key with
  | none =>
    rw [annotateAll_of_absent ok now i notes hentry] at h
    exact ⟨m, h, rfl⟩
  | some m₀ =>
    obtain ⟨m', hrw, henv, -⟩ := annotateAll_keeps ok now i notes hs hentry
    rw [hrw.entries] at h
    by_cases hid : id = key
    · subst hid
      rw [Function.update_self] at h
      cases h
      exact ⟨m₀, hentry, henv⟩
    · rw [Function.update_of_ne hid] at h
      exact ⟨m, h, rfl⟩

theorem wf_annotateAll (i : Nat) (notes : List (Bytes × Bytes)) (hs : s.WF) :
    (annotateAll ok now id i notes s).WF := by
  cases hentry : s.entries id with
  | none =>
    rw [annotateAll_of_absent ok now i notes hentry]
    exact hs
  | some m =>
    obtain ⟨m', hrw, -⟩ := annotateAll_keeps ok now i notes hs hentry
    exact hrw.wf

theorem wf_of_saveMessage (hs : s.WF) (h : saveMessage env st subject prefix_ body s = some s') :
    s'.WF := by
  revert h
  fun_cases saveMessage env st subject prefix_ body s with
  | case3 _ _ _ _ _ created _ hcreate =>
    rintro ⟨⟩
    exact wf_annotateAll _ _ _ _ (hs.createMessageIfAbsent hcreate)
  | _ => nofun

theorem rcptTo_of_saveMessage (hs : s.WF) (htext : st.IsText)
    (h : saveMessage env st subject prefix_ body s = some s') (hnew : s'.entries id = some m)
    (hold : s.entries id = none) : m.rcptTo = st.rcptTo := by
  unfold saveMessage at h
  split at h
  · simp at h
  rename_i header signedFor _
  dsimp only at h
  split at h
  · split at h
    · simp at h
    · rename_i created s₁ hcreate
      cases h
      obtain ⟨m₀, hentry, henv⟩ :=
        annotateAll_entry _ _ _ _ _ (hs.createMessageIfAbsent hcreate) hnew
      rw [(Queue.Envelope.mk.inj henv).2.2.1]
      rw [Queue.Store.entries_of_createMessageIfAbsent hs hcreate] at hentry
      split at hentry
      · by_cases hid : id = env.id
        · have hm₀ : m₀ = Queue.Store.recorded (Queue.newEnqueueMessage env.id st.mailFrom
              st.rcptTo subject (header.length + st.dataSize) .normal env.receivedAt env.now) := by
            simpa [hid, Queue.newEnqueueMessage] using hentry.symm
          rw [hm₀]
          exact htext.map_toValid
        · simp [Queue.newEnqueueMessage, hid, hold] at hentry
      · rw [hold] at hentry
        cases hentry
  · simp at h

/-! ## The scan -/

def ScannerAnswer.reports {α : Type} (finding : α → Bool) : ScannerAnswer α → Bool
  | .reported results => results.any finding
  | _ => false

def ScannerAnswer.isPanic {α : Type} : ScannerAnswer α → Bool
  | .panicked => true
  | _ => false

def DeliveryEnv.reportsVirus (env : DeliveryEnv) : Bool :=
  env.virus.reports fun r => !r.clean

def DeliveryEnv.reportsSpam (env : DeliveryEnv) : Bool :=
  env.spam.reports fun r => !r.clean

/-- The content analysis turns the message down: a header that the validator refuses, or an
attachment of a dangerous type, where the mode of the check is to reject. -/
def contentRefused (cfg : Config) (env : DeliveryEnv) (head : Bytes) : Bool :=
  !cfg.isInternal &&
    ((decide (cfg.checks.headerMode = .reject) && separateHeaders head != [] &&
        (env.validators.headerParameter (separateHeaders head)).isSome) ||
      (decide (cfg.checks.bodyMode = .reject) && dangerousAttachments head != []))

theorem foldl_addVirusReport (results : List VirusReport) (r : SecurityScanResult) :
    (results.foldl addVirusReport r).virusFound = (r.virusFound || results.any fun x => !x.clean) ∧
    (results.foldl addVirusReport r).passed =
      (r.passed && !results.any fun x => !x.clean) ∧
    (results.foldl addVirusReport r).spamDetected = r.spamDetected := by
  induction results generalizing r with
  | nil => simp
  | cons report rest ih =>
    obtain ⟨hvirus, hpassed, hspam⟩ := ih (addVirusReport r report)
    rw [List.foldl_cons, hvirus, hpassed, hspam]
    cases hclean : report.clean <;> simp [addVirusReport, hclean]

variable {r : SecurityScanResult} {content : Bytes}

/-- The antivirus result says what the engines reported. -/
theorem performAntivirusScan_spec {answer : ScannerAnswer VirusReport}
    (h : performAntivirusScan answer = some r) :
    r.virusFound = answer.reports (fun x => !x.clean) ∧
      r.passed = !answer.reports (fun x => !x.clean) ∧ r.spamDetected = false := by
  cases answer with
  | absent | failed =>
    cases h
    exact ⟨rfl, rfl, rfl⟩
  | panicked => simp [performAntivirusScan] at h
  | reported results =>
    cases h
    simpa [ScannerAnswer.reports, SecurityScanResult.fresh] using
      foldl_addVirusReport results .fresh

/-- A message that no engine calls spam passes the antispam scan. -/
theorem performSpamScan_spec {rejectOnSpam canQuarantine : Bool} {answer : ScannerAnswer SpamReport}
    (h : performSpamScan rejectOnSpam canQuarantine answer = some r) :
    r.spamDetected = answer.reports (fun x => !x.clean) ∧ r.virusFound = false ∧
      (answer.reports (fun x => !x.clean) = false → r.passed = true) := by
  revert h
  fun_cases performSpamScan rejectOnSpam canQuarantine answer with
  | case1 | case2 =>
    rintro ⟨⟩
    exact ⟨rfl, rfl, fun _ => rfl⟩
  | case3 => nofun
  | case9 results _ _ _ result hspam =>
    intro h
    rw [← Option.some.inj h]
    exact ⟨(eq_false_of_ne_true hspam).symm, rfl, fun _ => rfl⟩
  | case4 results _ _ _ _ hspam | case5 results _ _ _ _ hspam | case6 results _ _ _ _ hspam
  | case7 results _ _ _ _ hspam | case8 results _ _ _ _ hspam =>
    -- every strength of the disposition marks the message as spam
    intro h
    rw [← Option.some.inj h]
    exact ⟨hspam.symm, rfl, fun hclean => absurd (hspam.symm.trans hclean) (by decide)⟩

/-- The content analysis keeps the findings of the engines and adds its own refusal. -/
theorem performContentAnalysis_spec (cfg : Config) (env : DeliveryEnv) (head : Bytes)
    (r : SecurityScanResult) :
    let r' := performContentAnalysis cfg.isInternal cfg.checks env.validators.headerParameter head r
    r'.virusFound = r.virusFound ∧ r'.spamDetected = r.spamDetected ∧
      r'.passed = (r.passed && !contentRefused cfg env head) := by
  have hheaders : ∀ r : SecurityScanResult,
      (analyseHeaders cfg.checks env.validators.headerParameter head r).virusFound =
        r.virusFound ∧
      (analyseHeaders cfg.checks env.validators.headerParameter head r).spamDetected =
        r.spamDetected ∧
      (analyseHeaders cfg.checks env.validators.headerParameter head r).passed =
        (r.passed && !(decide (cfg.checks.headerMode = .reject) && separateHeaders head != [] &&
          (env.validators.headerParameter (separateHeaders head)).isSome)) := by
    intro r
    unfold analyseHeaders
    dsimp only
    split
    · rename_i hskip
      rcases hskip with hnil | hoff
      · simp [hnil]
      · simp [hoff]
    rename_i hskip
    have hne : separateHeaders head ≠ [] := fun h => hskip (.inl h)
    split
    · rename_i hvalid
      simp [hvalid]
    · rename_i message hvalid
      by_cases hmode : cfg.checks.headerMode = .reject <;> simp [hvalid, hmode, hne]
  have hbody : ∀ r : SecurityScanResult,
      (analyseBody cfg.checks head r).virusFound = r.virusFound ∧
      (analyseBody cfg.checks head r).spamDetected = r.spamDetected ∧
      (analyseBody cfg.checks head r).passed =
        (r.passed && !(decide (cfg.checks.bodyMode = .reject) &&
          dangerousAttachments head != [])) := by
    intro r
    unfold analyseBody
    split
    · rename_i hoff
      simp [hoff]
    · by_cases hmode : cfg.checks.bodyMode = .reject <;>
        by_cases hatt : dangerousAttachments head = [] <;> simp [hmode, hatt]
  unfold performContentAnalysis contentRefused
  cases cfg.isInternal with
  | true => simp
  | false =>
    obtain ⟨hv, hs, hp⟩ := hheaders r
    obtain ⟨hv', hs', hp'⟩ := hbody (analyseHeaders cfg.checks env.validators.headerParameter head r)
    refine ⟨hv'.trans hv, hs'.trans hs, ?_⟩
    simp [hp', hp, Bool.and_assoc]

/-- What a scan says of a message, from what the engines and the content checks say. -/
theorem performSecurityScan_spec {head : Bytes} {scan : SecurityScanResult}
    (h : performSecurityScan cfg env st head = some scan) :
    scan.virusFound = env.reportsVirus ∧ scan.spamDetected = env.reportsSpam ∧
      (env.reportsVirus = false → env.reportsSpam = false →
        scan.passed = !contentRefused cfg env head) := by
  unfold performSecurityScan at h
  split at h
  · rename_i virus spam hvirus hspam
    obtain ⟨hv, hvp, hvs⟩ := performAntivirusScan_spec hvirus
    obtain ⟨hs, hsv, hsp⟩ := performSpamScan_spec hspam
    obtain ⟨h1, h2, h3⟩ := performContentAnalysis_spec cfg env head
      ((SecurityScanResult.fresh.merge virus).merge spam)
    cases h
    refine ⟨?_, ?_, ?_⟩
    · rw [h1]
      simp [SecurityScanResult.merge, SecurityScanResult.fresh, hv, hsv, DeliveryEnv.reportsVirus]
    · rw [h2]
      simp [SecurityScanResult.merge, SecurityScanResult.fresh, hs, hvs, DeliveryEnv.reportsSpam]
    · intro hnovirus hnospam
      have hvirusPassed : virus.passed = true := by
        rw [hvp]
        exact congrArg (!·) hnovirus
      rw [h3]
      simp [SecurityScanResult.merge, SecurityScanResult.fresh, hvirusPassed, hsp hnospam]
  · simp at h

theorem performSecurityScan_isSome (cfg : Config) (env : DeliveryEnv) (st : SessionState)
    (head : Bytes) :
    (performSecurityScan cfg env st head).isSome = (!env.virus.isPanic && !env.spam.isPanic) := by
  have hvirus : (performAntivirusScan env.virus).isSome = !env.virus.isPanic := by
    cases env.virus <;> rfl
  have hspam : (performSpamScan cfg.rejectOnSpam (canQuarantine cfg st) env.spam).isSome =
      !env.spam.isPanic := by
    fun_cases performSpamScan cfg.rejectOnSpam (canQuarantine cfg st) env.spam <;>
      simp_all [ScannerAnswer.isPanic]
  unfold performSecurityScan
  rw [← hvirus, ← hspam]
  cases performAntivirusScan env.virus <;>
    cases performSpamScan cfg.rejectOnSpam (canQuarantine cfg st) env.spam <;> rfl

/-! ## The verdict -/

/-- The message gets past every check that has an error of its own, and the content analysis
turns it down. -/
def RefusedInSilence (cfg : Config) (env : DeliveryEnv) (st : SessionState)
    (content : Bytes) : Prop :=
  checkBeforeScan cfg env st (content.take defaultHeadSize) = none ∧
    env.virus.isPanic = false ∧ env.spam.isPanic = false ∧
    env.reportsVirus = false ∧ env.reportsSpam = false ∧
    contentRefused cfg env (content.take defaultHeadSize) = true

/-- A message without an error is saved, or it was refused in silence and nothing happened. -/
theorem processMessage_of_none {st' : SessionState}
    (h : processMessage cfg env st content s = (none, st', s')) :
    (¬RefusedInSilence cfg env st content ∧ verifyAuthentication env st = none ∧
      ∃ subject header, saveMessage env st subject header (storedBody cfg content) s = some s') ∨
    (RefusedInSilence cfg env st content ∧ s' = s) := by
  revert h
  fun_cases processMessage cfg env st content s with
  | case1 | case2 => rintro ⟨⟩
  | case3 hbefore scan hscan hpass =>
    obtain ⟨-, -, hpassed⟩ := performSecurityScan_spec hscan
    fun_cases acceptScanned cfg env st content scan s with
    | case1 | case2 => rintro ⟨⟩
    | case3 hverify s'' hsave =>
      rintro ⟨⟩
      refine .inl ⟨?_, hverify, _, _, hsave⟩
      rintro ⟨-, -, -, hv, hs, hrefused⟩
      have hboth := hpassed hv hs
      rw [hpass, hrefused] at hboth
      simp at hboth
  | case4 hbefore scan hscan hfail =>
    intro h
    have hpanic := performSecurityScan_isSome cfg env st (content.take defaultHeadSize)
    obtain ⟨hvirus, hspam, hpassed⟩ := performSecurityScan_spec hscan
    rw [hscan] at hpanic
    have hpanics : env.virus.isPanic = false ∧ env.spam.isPanic = false := by
      simpa using hpanic.symm
    have hthreat := (Prod.mk.inj h).1
    rw [handleSecurityThreat_eq_none, hvirus, hspam] at hthreat
    have hrefused : contentRefused cfg env (content.take defaultHeadSize) = true := by
      have hboth := hpassed hthreat.1 hthreat.2
      simpa [hfail] using hboth
    exact .inr ⟨⟨hbefore, hpanics.1, hpanics.2, hthreat.1, hthreat.2, hrefused⟩,
      ((Prod.mk.inj (Prod.mk.inj h).2).2).symm⟩

theorem RefusedInSilence.processMessage (h : RefusedInSilence cfg env st content)
    (s : Queue.Store) : processMessage cfg env st content s = (none, st, s) := by
  obtain ⟨hbefore, hvp, hsp, hv, hs, hrefused⟩ := h
  have hsome : (performSecurityScan cfg env st (content.take defaultHeadSize)).isSome = true := by
    rw [performSecurityScan_isSome, hvp, hsp]
    rfl
  obtain ⟨scan, hscan⟩ := Option.isSome_iff_exists.1 hsome
  obtain ⟨hvirus, hspam, hpassed⟩ := performSecurityScan_spec hscan
  have hfail : scan.passed = false := by
    rw [hpassed hv hs, hrefused]
    rfl
  have hthreat : handleSecurityThreat scan = none :=
    handleSecurityThreat_eq_none.2 ⟨hvirus.trans hv, hspam.trans hs⟩
  simp [Smtp.processMessage, hbefore, hscan, hfail, hthreat]

end Elemta.Smtp

import Elemta.Smtp.Enqueue

/-!
# The envelope along a session

Invariants of the envelope over every run of the command loop: its addresses are
text, and each recipient in it was accepted for a reason. Both follow from the list
of effects of a turn.
-/

namespace Elemta.Smtp

open Bytes BufferedReader

/-! ## Addresses are text -/

theorem isInfix_splitCommand (line : Bytes) : (splitCommand line).2 <:+: line := by
  fun_cases splitCommand line with
  | case1 cmd args hsplit =>
    unfold splitN at hsplit
    split at hsplit
    · rename_i before after hcut
      obtain ⟨-, hafter⟩ := List.cons.inj hsplit
      obtain rfl : after = args := (List.cons.inj hafter).1
      have hargs : after <:+: trimSpace line := by
        rw [eq_of_cut hcut]
        exact (List.suffix_append _ _).isInfix
      exact ((isInfix_trimSpace after).trans hargs).trans (isInfix_trimSpace line)
    · simp at hsplit
  | case2 => exact List.nil_infix

variable {addr key content id : Bytes} {params : List Bytes} {maxSize : Int}
  {value : Option Bytes} {p : RcptToParams} {s : Session} {env : DeliveryEnv}
  {s' : Queue.Store} {st' : SessionState} {m : Queue.Message}

theorem eq_of_closePath {quoted escaped : Bool} {s tail : Bytes}
    (h : closePath quoted escaped s = some (addr, tail)) : s = addr ++ 62 :: tail := by
  fun_induction closePath quoted escaped s generalizing addr tail with
  | case1 => cases h
  | case5 quoted escaped b r _ _ _ hclose =>
    cases h
    simp only [Bool.and_eq_true, beq_iff_eq] at hclose
    simp [hclose.1]
  | case2 | case3 | case4 | case6 =>
    rename_i ih
    obtain ⟨parts, hparts, heq⟩ := Option.map_eq_some_iff.1 h
    cases heq
    simp [ih _ _ hparts]

variable {a : Answers} {line address : Bytes} {parseIP : Bytes → Option IpFamily}
  {cfg : Config} {c c' : Core} {input : Option (Bytes × Tape Fault)} {st : SessionState}

theorem valid_of_parseSMTPPath {args keyword : Bytes} {allowNull : Bool}
    (hline : Utf8.valid line = true) (hargs : args <:+: line)
    (h : parseSMTPPath parseIP args keyword allowNull = some (addr, params)) :
    Utf8.valid addr = true := by
  revert h
  fun_cases parseSMTPPath parseIP args keyword allowNull with
  | case5 _ rest hrest addr' _ _ hclose | case6 _ rest hrest addr' _ _ b tail _ hclose =>
    rintro ⟨⟩
    have hinfix : 60 :: rest <:+: line := by
      rw [← hrest]
      exact (List.drop_suffix _ _).isInfix.trans hargs
    rw [eq_of_closePath hclose] at hinfix
    exact Utf8.valid_of_bracketed (by decide) (by decide) hline hinfix
  | _ => nofun

theorem eachParameter_keeps {α β : Type*} (f : α → β)
    {parameter : α → Bytes → Option Bytes → Except Bytes α}
    (hkeep : ∀ p key value p', parameter p key value = .ok p' → f p' = f p)
    {seen : List Bytes} {p p' : α} (h : eachParameter parameter seen p params = .ok p') :
    f p' = f p := by
  fun_induction eachParameter parameter seen p params with
  | case1 =>
    cases h
    rfl
  | case2 | case3 => cases h
  | case4 seen p field rest key value _ _ p₁ hp ih => exact (ih h).trans (hkeep p _ _ p₁ hp)

theorem mailParameter_addr {p p' : MailFromParams}
    (h : mailParameter maxSize p key value = .ok p') : p'.addr = p.addr := by
  unfold mailParameter at h
  repeat' split at h
  all_goals first
    | (obtain rfl := Except.ok.inj h; rfl)
    | simp at h

theorem rcptParameter_addr {p' : RcptToParams} (h : rcptParameter p key value = .ok p') :
    p'.addr = p.addr := by
  unfold rcptParameter at h
  repeat' split at h
  all_goals first
    | (obtain rfl := Except.ok.inj h; rfl)
    | simp at h

theorem valid_of_parseMailFromParams {tlsActive : Bool} {p : MailFromParams}
    (hline : Utf8.valid line = true)
    (h : parseMailFromParams parseIP maxSize tlsActive (splitCommand line).2 = .ok p) :
    Utf8.valid p.addr = true := by
  revert h
  fun_cases parseMailFromParams parseIP maxSize tlsActive (splitCommand line).2 with
  | case4 addr params hpath start p' hparams =>
    rintro ⟨⟩
    have haddr : p.addr = addr :=
      eachParameter_keeps MailFromParams.addr (fun _ _ _ _ => mailParameter_addr) hparams
    rw [haddr]
    exact valid_of_parseSMTPPath hline (isInfix_splitCommand line) hpath
  | _ => nofun

theorem valid_of_parseRCPTEnvelope (hline : Utf8.valid line = true)
    (h : parseRCPTEnvelope parseIP (splitCommand line).2 = .ok p) : Utf8.valid p.addr = true := by
  unfold parseRCPTEnvelope at h
  split at h
  · simp at h
  rename_i addr params hpath
  have haddr : p.addr = addr :=
    eachParameter_keeps RcptToParams.addr (fun _ _ _ _ => rcptParameter_addr) h
  rw [haddr]
  exact valid_of_parseSMTPPath hline (isInfix_splitCommand line) hpath

theorem valid_of_mem_splitN {c : UInt8} (hc : c ≤ 0x7F) {n : Nat} {s part : Bytes}
    (hs : Utf8.valid s = true) (h : part ∈ splitN [c] n s) : Utf8.valid part = true := by
  fun_induction splitN [c] n s with
  | case1 => cases h
  | case2 | case4 =>
    obtain rfl := List.mem_singleton.1 h
    exact hs
  | case3 n s before after hcut ih =>
    have hparts := (Utf8.valid_append_ascii hc before after).1 (by
      rw [eq_of_cut hcut] at hs
      simpa using hs)
    rcases List.mem_cons.1 h with rfl | hrest
    · exact hparts.1
    · exact ih hparts.2 hrest

theorem valid_of_reverse {r : Srs.Rewriter} {now : Nat} {sender : Bytes}
    (haddress : Utf8.valid address = true) (h : r.reverse now address = some sender) :
    Utf8.valid sender = true := by
  have hpart {user domain : Bytes} (hcut : Srs.cutAddress address = some (user, domain))
      {n : Nat} {parts : List Bytes} (hsplit : splitN (lit "=") n user = parts)
      {part : Bytes} (h : part ∈ parts) : Utf8.valid part = true := by
    rw [Srs.eq_of_cutAddress hcut] at haddress
    exact valid_of_mem_splitN (by decide)
      ((Utf8.valid_append_ascii (by decide) user domain).1 haddress).1 (hsplit ▸ h)
  revert h
  fun_cases Srs.Rewriter.reverse r now address with
  | case3 user domain hcut _ _ head hash forwarder rest hsplit =>
    rintro ⟨⟩
    have hrest : Utf8.valid rest = true := hpart hcut hsplit (by simp)
    have hforwarder : Utf8.valid forwarder = true := hpart hcut hsplit (by simp)
    have hfront : Utf8.valid (lit "SRS0" ++ rest) = true :=
      (Utf8.valid_append_ascii (by decide) [83, 82, 83] rest).2 ⟨by decide, hrest⟩
    rw [List.append_assoc]
    exact (Utf8.valid_append_ascii (by decide) _ _).2 ⟨hfront, hforwarder⟩
  | case9 user domain hcut _ _ head hash stamp domain original hsplit =>
    rintro ⟨⟩
    rw [List.append_assoc]
    exact (Utf8.valid_append_ascii (by decide) _ _).2
      ⟨hpart hcut hsplit (by simp), hpart hcut hsplit (by simp)⟩
  | _ => rintro ⟨⟩

/-! ## Why a recipient is accepted -/

/-- `address` is an SRS address of a bounce that comes home: it is at a domain of this server,
the sender is null, and `r` is where its reversal leads. -/
structure BouncesTo (cfg : Config) (now : Nat) (st : SessionState) (address r : Bytes) :
    Prop where
  form : Srs.isSRS address = true
  home : inLocalDomains cfg.localDomains address = true
  nullSender : st.mailFrom = []
  reversal : ∃ rewriter, cfg.srs = some rewriter ∧ rewriter.reverse now address = some r

theorem resolveRecipient_cases {now : Nat} {r : Bytes} {isBounce : Bool}
    (h : Session.resolveRecipient cfg now st address = .ok (r, isBounce)) :
    (r = address ∧ (st.authenticated = true ∨ inLocalDomains cfg.localDomains r = true ∨
      cfg.relayAllowed = true)) ∨ BouncesTo cfg now st address r := by
  revert h
  fun_cases Session.resolveRecipient cfg now st address with
  | case2 bounceFor hreverse hne =>
    rintro ⟨⟩
    revert hreverse
    fun_cases Session.reverseSRS cfg now st address with
    | case1 | case2 => exact fun heq => absurd (Except.ok.inj heq).symm hne
    | case3 | case4 => nofun
    | case5 rewriter hsrs hform hnull sender hsender =>
      rintro ⟨⟩
      simp only [Bool.or_eq_true, not_or, Bool.not_eq_false, decide_eq_true_eq] at hform
      exact .inr ⟨by simpa using hform.1, by simpa using hform.2, not_not.1 hnull,
        rewriter, hsrs, hsender⟩
  | case3 bounceFor _ _ hpermitted =>
    rintro ⟨⟩
    unfold Session.relayPermitted at hpermitted
    simp only [Bool.or_eq_true] at hpermitted
    exact .inl ⟨rfl, or_assoc.1 hpermitted⟩
  | _ => nofun

/-- The ways a recipient may come into an envelope: its own address may be relayed to, or it is
the reversal of an SRS address that is not too old. -/
def Permitted (unexpired : Nat → Bytes → Bool) (cfg : Config) (now : Nat) (st : SessionState)
    (address r : Bytes) : Prop :=
  (r = address ∧ (st.authenticated = true ∨ inLocalDomains cfg.localDomains r = true ∨
    cfg.relayAllowed = true)) ∨
  (BouncesTo cfg now st address r ∧ unexpired now address = true)

/-- The address that the RCPT command on the next line gives. -/
def Session.rcptAddress (cfg : Config) (s : Session) : Option Bytes :=
  match s.heard with
  | none => none
  | some (line, _) =>
    if (splitCommand line).1 = lit "RCPT" then
      match parseRCPTEnvelope cfg.parseIP (splitCommand line).2 with
      | .ok p => some p.addr
      | .error _ => none
    else none

/-! ## One turn -/

namespace SessionState

theorem IsText.congr (h : st.IsText) (hfrom : st'.mailFrom = st.mailFrom)
    (hto : st'.rcptTo = st.rcptTo) : st'.IsText :=
  ⟨hfrom ▸ h.mailFrom, hto ▸ h.rcptTo⟩

end SessionState

/-- The envelope after a turn: empty, that of a new sender, one recipient longer, or as before. -/
theorem Effect.envelope (h : Effect cfg a input c c') :
    (c'.state.mailFrom = c.state.mailFrom ∧ c'.state.rcptTo = c.state.rcptTo) ∨
    (c'.state.mailFrom = [] ∧ c'.state.rcptTo = []) ∨
    (∃ line rest p, Command input c.state (lit "MAIL") line rest ∧
      parseMailFromParams cfg.parseIP cfg.maxSize c.state.tlsActive (splitCommand line).2 = .ok p ∧
      c'.state.mailFrom = p.addr ∧ c'.state.rcptTo = []) ∨
    (∃ line rest p r isBounce, Command input c.state (lit "RCPT") line rest ∧
      parseRCPTEnvelope cfg.parseIP (splitCommand line).2 = .ok p ∧
      Session.resolveRecipient cfg a.now c.state p.addr = .ok (r, isBounce) ∧
      c'.state.mailFrom = c.state.mailFrom ∧ c'.state.rcptTo = c.state.rcptTo ++ [r]) := by
  cases h with
  | keep | attempt | login | begin | chunk | dropChunks | loseData => exact .inl ⟨rfl, rfl⟩
  | greet | reset | tls | deliverChunks | deliverData | refuseData => exact .inr (.inl ⟨rfl, rfl⟩)
  | sender line rest p st command parsed accepted =>
    obtain rfl := SessionState.acceptMail_eq accepted
    exact .inr (.inr (.inl ⟨line, rest, p, command, parsed, rfl, rfl⟩))
  | recipient line rest p r isBounce st command parsed resolved added =>
    obtain rfl := SessionState.addRecipient_eq added
    refine .inr (.inr (.inr ⟨line, rest, p, r, isBounce, command, parsed, resolved, ?_, ?_⟩))
    · split <;> rfl
    · split <;> rfl
  | data st nonempty fits set =>
    obtain ⟨st₁, hmode, hphase⟩ := Option.bind_eq_some_iff.1 set
    obtain ⟨-, rfl⟩ := SessionState.setDataTransferMode_eq hmode
    obtain rfl := SessionState.setPhase_eq hphase
    exact .inl ⟨rfl, rfl⟩
  | quit st set =>
    obtain rfl := SessionState.setPhase_eq set
    exact .inl ⟨rfl, rfl⟩

theorem Effect.isText (h : Effect cfg a input c c') (hc : c.state.IsText) : c'.state.IsText := by
  obtain ⟨hfrom, hto⟩ | ⟨hfrom, hto⟩ | ⟨line, rest, p, command, parsed, hfrom, hto⟩ |
    ⟨line, rest, p, r, isBounce, command, parsed, resolved, hfrom, hto⟩ := h.envelope
  · exact hc.congr hfrom hto
  · exact ⟨by rw [hfrom]; rfl, by simp [hto]⟩
  · refine ⟨?_, by simp [hto]⟩
    rw [hfrom]
    exact valid_of_parseMailFromParams command.valid parsed
  · refine ⟨hfrom ▸ hc.mailFrom, ?_⟩
    have haddr := valid_of_parseRCPTEnvelope command.valid parsed
    have hr : Utf8.valid r = true := by
      rcases resolveRecipient_cases resolved with ⟨rfl, -⟩ | ⟨-, -, -, rewriter, -, hreverse⟩
      · exact haddr
      · exact valid_of_reverse haddr hreverse
    intro x hx
    rw [hto] at hx
    rcases List.mem_append.1 hx with hold | hnew
    · exact hc.rcptTo x hold
    · exact List.mem_singleton.1 hnew ▸ hr

theorem isText_run (cfg : Config) (hs : s.state.IsText) (answers : List Answers) :
    (s.run cfg answers).state.IsText :=
  Machine.run_invariant (fun s => s.state.IsText)
    (fun s a h => (Session.turn_effect cfg s a).isText h) hs answers

/-- The turn takes `r` into the envelope, where it was not before, for the address of its RCPT
command and for a permitted reason. -/
def Takes (unexpired : Nat → Bytes → Bool) (cfg : Config) (s : Session) (a : Answers)
    (r : Bytes) : Prop :=
  r ∉ s.state.rcptTo ∧ r ∈ (s.turn cfg a).state.rcptTo ∧
    ∃ address, s.rcptAddress cfg = some address ∧ Permitted unexpired cfg a.now s.state address r

theorem takes_of_mem (s : Session) (a : Answers) (r : Bytes)
    (h : r ∈ (Session.turn cfg s a).state.rcptTo) :
    r ∈ s.state.rcptTo ∨ Takes Srs.ownUnexpired cfg s a r := by
  by_cases hbefore : r ∈ s.state.rcptTo
  · exact .inl hbefore
  refine .inr ⟨hbefore, h, ?_⟩
  have henvelope := (Session.turn_effect cfg s a).envelope
  change r ∈ (Session.turn cfg s a).core.state.rcptTo at h
  obtain ⟨-, hto⟩ | ⟨-, hto⟩ | ⟨line, rest, p, -, -, -, hto⟩ |
    ⟨line, rest, p, r', isBounce, command, parsed, resolved, -, hto⟩ := henvelope
  · rw [hto] at h
    exact absurd h hbefore
  · simp [hto] at h
  · simp [hto] at h
  · rw [hto] at h
    rcases List.mem_append.1 h with hold | hnew
    · exact absurd hold hbefore
    obtain rfl := List.mem_singleton.1 hnew
    refine ⟨p.addr, ?_, ?_⟩
    · simp [Session.rcptAddress, command.read, command.named, parsed]
    · rcases resolveRecipient_cases resolved with hown | hbounce
      · exact .inl hown
      · obtain ⟨rewriter, -, hreverse⟩ := hbounce.reversal
        exact .inr ⟨hbounce, Srs.ownUnexpired_of_reverse hreverse⟩

/-! ## Whole sessions -/

theorem wf_of_processMessage {s : Queue.Store} (hs : s.WF)
    (h : processMessage cfg env st content s = (none, st', s')) : s'.WF := by
  rcases processMessage_of_none h with ⟨-, -, subject, header, hsave⟩ | ⟨-, rfl⟩
  · exact wf_of_saveMessage hs hsave
  · exact hs

theorem rcptTo_of_processMessage {s : Queue.Store} (hs : s.WF) (htext : st.IsText)
    (h : processMessage cfg env st content s = (none, st', s')) (hnew : s'.entries id = some m)
    (hold : s.entries id = none) : m.rcptTo = st.rcptTo := by
  rcases processMessage_of_none h with ⟨-, -, subject, header, hsave⟩ | ⟨-, rfl⟩
  · exact rcptTo_of_saveMessage hs htext hsave hnew hold
  · simp [hold] at hnew

theorem Effect.wf (h : Effect cfg a input c c') (hc : c.store.WF) : c'.store.WF := by
  cases h with
  | deliverChunks _ _ _ _ _ _ _ _ _ processed => exact wf_of_processMessage hc processed
  | deliverData _ _ _ _ processed => exact wf_of_processMessage hc processed
  | _ => exact hc

theorem Effect.newEntry (h : Effect cfg a input c c') (hc : c.store.WF) (htext : c.state.IsText)
    (hnew : c'.store.entries id = some m) (hold : c.store.entries id = none) :
    m.rcptTo = c.state.rcptTo := by
  cases h with
  | deliverChunks _ _ _ _ _ _ _ _ _ processed =>
    refine (rcptTo_of_processMessage hc ?_ processed hnew hold).trans rfl
    exact htext.congr rfl rfl
  | deliverData _ _ _ _ processed =>
    refine (rcptTo_of_processMessage hc ?_ processed hnew hold).trans rfl
    exact htext.congr rfl rfl
  | _ =>
    have hsame : c.store.entries id = some m := hnew
    simp [hold] at hsame

theorem wf_run (hs : s.store.WF) (answers : List Answers) : (s.run cfg answers).store.WF :=
  Machine.run_invariant (fun s => s.store.WF) (fun s a h => (Session.turn_effect cfg s a).wf h) hs
    answers

/-- In every session, each recipient of a message that comes into the queue was taken into the
envelope by an earlier RCPT command for a permitted reason and has been in it ever since. -/
theorem enqueued_recipients_permitted (cfg : Config) (now : Nat) (conn : List (Arrival Fault))
    {store : Queue.Store} (hstore : store.WF) (answers : List Answers) (a : Answers)
    {id r : Bytes} {m : Queue.Message}
    (hnew : (((Session.start cfg now conn store).run cfg answers).turn cfg a).store.entries id =
      some m)
    (hold : ((Session.start cfg now conn store).run cfg answers).store.entries id = none)
    (hr : r ∈ m.rcptTo) :
    ∃ before b after, answers = before ++ b :: after ∧
      Takes Srs.ownUnexpired cfg ((Session.start cfg now conn store).run cfg before) b r ∧
      ∀ first, first <+: after →
        r ∈ ((Session.start cfg now conn store).run cfg (before ++ b :: first)).state.rcptTo := by
  have htext : ((Session.start cfg now conn store).run cfg answers).state.IsText :=
    isText_run cfg ⟨rfl, by simp [Session.start, SessionState.new]⟩ answers
  have hwf : ((Session.start cfg now conn store).run cfg answers).store.WF :=
    wf_run hstore answers
  have hmem : r ∈ ((Session.start cfg now conn store).run cfg answers).state.rcptTo := by
    rw [(Session.turn_effect cfg _ a).newEntry hwf htext hnew hold] at hr
    exact hr
  rcases Machine.run_since (fun s r => r ∈ s.state.rcptTo) (Takes Srs.ownUnexpired cfg)
      takes_of_mem hmem with hstart | htaken
  · have hnone := hstart [] List.nil_prefix
    simp [Session.start, SessionState.new] at hnone
  · exact htaken

def signingServer : Config :=
  .plain (some ⟨lit "k", []⟩)

/-- A bounce for mail that `fwd.example` and then this server had forwarded. The stamp `aa` in the
address is that of day 0. -/
def bounceHome : Bytes :=
  lit "EHLO c.example\r\nMAIL FROM:<>\r\n" ++
    lit "RCPT TO:<SRS1=2nnjs3=fwd.example==abcdef=aa=orig.example=user@here.example>\r\nDATA\r\n" ++
    lit "From: a@c.example\r\nDate: Mon, 1 Jan 2024 00:00:00 +0000\r\n\r\nhi\r\n.\r\n"

def bounceSession : Session :=
  Session.start signingServer 0 (arrives bounceHome) .empty

def bounceRecipient : Bytes :=
  lit "SRS0=abcdef=aa=orig.example=user@fwd.example"

def day500 : Answers :=
  .calm (500 * 86400) (lit "m1")

theorem bounce_enqueued :
    ∃ m, ((bounceSession.run signingServer (List.replicate 4 day500)).turn signingServer
        day500).store.entries (lit "m1") = some m ∧
      (bounceSession.run signingServer (List.replicate 4 day500)).store.entries (lit "m1") = none ∧
      bounceRecipient ∈ m.rcptTo := by
  have hto : (((bounceSession.run signingServer (List.replicate 4 day500)).turn signingServer
      day500).store.entries (lit "m1")).map (·.rcptTo) = some [bounceRecipient] := by
    decide +kernel
  obtain ⟨m, hm, hrcpt⟩ := Option.map_eq_some_iff.1 hto
  exact ⟨m, hm, by decide +kernel, by simp [hrcpt]⟩

/-- The recipient theorem on a session whose message comes into the queue. -/
theorem bounce_recipient_permitted :
    ∃ before b after, List.replicate 4 day500 = before ++ b :: after ∧
      Takes Srs.ownUnexpired signingServer (bounceSession.run signingServer before) b
        bounceRecipient ∧
      ∀ first, first <+: after →
        bounceRecipient ∈
          (bounceSession.run signingServer (before ++ b :: first)).state.rcptTo := by
  obtain ⟨m, hnew, hold, hr⟩ := bounce_enqueued
  unfold bounceSession at hnew hold ⊢
  exact enqueued_recipients_permitted signingServer 0 (arrives bounceHome) .empty
    (List.replicate 4 day500) day500 hnew hold hr

/-- The message above is accepted although the stamp in its recipient is 500 days old: the age of
an SRS1 address is left to the first forwarder. -/
theorem srs1_accepted_when_expired :
    (∃ m, ((bounceSession.run signingServer (List.replicate 4 day500)).turn signingServer
        day500).store.entries (lit "m1") = some m ∧
      (bounceSession.run signingServer (List.replicate 4 day500)).store.entries (lit "m1") = none ∧
      bounceRecipient ∈ m.rcptTo) ∧
    ∀ before b after, List.replicate 4 day500 = before ++ b :: after →
      ¬Takes Srs.unexpired signingServer (bounceSession.run signingServer before) b
        bounceRecipient := by
  refine ⟨bounce_enqueued, ?_⟩
  rintro before b after hsplit ⟨-, -, address, hgiven, hpermitted⟩
  have hreplicate := List.append_eq_replicate_iff.1 hsplit.symm
  have hbefore : before = List.replicate before.length day500 := hreplicate.2.1
  have hb : b = day500 := by
    have hmem : b ∈ List.replicate (b :: after).length day500 := by
      rw [← hreplicate.2.2]
      exact List.mem_cons_self
    exact List.eq_of_mem_replicate hmem
  have hlen : before.length < 4 := by
    have htotal := hreplicate.1
    simp only [List.length_cons] at htotal
    omega
  -- the third turn is the only one with an RCPT command
  have hgivens : ∀ k < 4, (bounceSession.run signingServer (List.replicate k day500)).rcptAddress
      signingServer = if k = 2 then
        some (lit "SRS1=2nnjs3=fwd.example==abcdef=aa=orig.example=user@here.example") else none := by
    decide +kernel
  rw [hbefore, hgivens _ hlen] at hgiven
  split at hgiven
  · cases hgiven
    rcases hpermitted with ⟨hsame, -⟩ | ⟨-, hstamp⟩
    · exact absurd hsame (by decide +kernel)
    · rw [hb] at hstamp
      exact absurd hstamp (by decide +kernel)
  · simp at hgiven

end Elemta.Smtp

import Elemta.Smtp.ChunkTotals
import Elemta.Smtp.CommandLines

/-!
# Mail transactions

Phase, transfer mode and envelope of a session change together. The phase says how far a
transaction has come: outside of one nothing of an envelope is there, so a new MAIL finds
an empty state whatever the session has been through. A session that is still running is
in the recipient phase while it takes chunks, and in the data phase with DATA only.
-/

namespace Elemta.Smtp

open Bytes BufferedReader SessionState

/-! ## States in order -/

namespace SessionState

structure Orderly (st : SessionState) : Prop where
  known : st.phase ≠ .auth ∧ st.phase ≠ .tls
  greeted : st.phase = .mail ∨ st.phase = .rcpt ∨ st.phase = .data → st.greeted = true
  data : st.phase = .data → st.rcptTo ≠ [] ∧ st.dataTransferMode = .data
  bdat : st.dataTransferMode = .bdat → st.phase = .rcpt ∨ st.phase = .quit
  /-- There is nothing to reset outside of a transaction. -/
  idle : st.phase = .init ∨ st.phase = .mail → st.reset = st

structure Declared where
  mailFrom : Bytes
  size : Int
  smtpUTF8 : Bool
  dsn : Option DSNParams
  requireTLS : Bool
  deriving DecidableEq

def declared (st : SessionState) : Declared :=
  ⟨st.mailFrom, st.declaredSize, st.smtputf8, st.dsnParams, st.requireTLS⟩

structure OpenedBy (d : Declared) (st : SessionState) : Prop where
  phase : st.phase = .rcpt ∨ st.phase = .data
  declares : st.declared = d

theorem reset_phase (st : SessionState) : st.reset.phase = .init ∨ st.reset.phase = .mail := by
  cases h : st.greeted <;> simp [reset, h]

theorem orderly_reset (st : SessionState) : st.reset.Orderly where
  known := by rcases st.reset_phase with h | h <;> simp [h]
  greeted := by
    intro hphase
    change st.greeted = true
    by_contra hnot
    simp [reset, hnot] at hphase
  data := by
    intro hphase
    rcases st.reset_phase with h | h <;> simp [h] at hphase
  bdat := by
    intro hmode
    cases hmode
  idle _ := rfl

variable {st : SessionState}

theorem orderly_of_rcpt (hphase : st.phase = .rcpt) (hgreeted : st.greeted = true) :
    st.Orderly := by
  refine ⟨?_, fun _ => hgreeted, ?_, fun _ => .inl hphase, ?_⟩ <;> simp [hphase]

theorem not_openedBy_reset {d : Declared} : ¬ st.reset.OpenedBy d := by
  intro hopened
  rcases st.reset_phase with h | h <;> rcases hopened.phase with hphase | hphase <;>
    · rw [h] at hphase
      cases hphase

end SessionState

def MailFromParams.declared (p : MailFromParams) : SessionState.Declared :=
  ⟨p.addr, p.size, p.smtpUTF8, if p.hasDSN then some p.dsn else none, p.requireTLS⟩

theorem Effect.orderly {cfg : Config} {a : Answers} {input : Option (Bytes × Tape Fault)}
    {c c' : Core} (h : Effect cfg a input c c') (hc : c.state.Orderly) : c'.state.Orderly := by
  cases h with
  | keep => exact hc
  | greet | reset | tls | deliverChunks | deliverData | refuseData =>
    exact orderly_reset _
  | attempt =>
    refine ⟨hc.known, hc.greeted, hc.data, hc.bdat, fun h => ?_⟩
    exact congrArg (fun st : SessionState => { st with
      authAttempts := c.state.authAttempts + 1 }) (hc.idle h)
  | login username password =>
    refine ⟨hc.known, hc.greeted, hc.data, hc.bdat, fun h => ?_⟩
    exact congrArg (fun st : SessionState => { st with
      authAttempts := c.state.authAttempts + 1, authenticated := true, username := username })
      (hc.idle h)
  | sender line rest p st command parsed accepted =>
    obtain rfl := acceptMail_eq accepted
    have hphase : c.state.phase = .mail :=
      (phase_of_mail command.allowed).resolve_right hc.known.2
    exact orderly_of_rcpt rfl (hc.greeted (.inl hphase))
  | recipient line rest p r isBounce st command parsed resolved added =>
    obtain rfl := addRecipient_eq added
    have hphase := phase_of_rcpt command.allowed
    have hgreeted := hc.greeted (.inr (.inl hphase))
    split <;> exact orderly_of_rcpt rfl hgreeted
  | data st nonempty fits set =>
    obtain ⟨st₁, hset, hphase⟩ := Option.bind_eq_some_iff.1 set
    obtain ⟨-, rfl⟩ := setDataTransferMode_eq hset
    obtain rfl := setPhase_eq hphase
    have hrcpt := phase_of_canAcceptDataCommand fits
    have hgreeted := hc.greeted (.inr (.inl hrcpt))
    exact ⟨by simp, fun _ => hgreeted, fun _ => ⟨nonempty, rfl⟩, fun h => (by cases h), by simp⟩
  | quit st set =>
    obtain rfl := setPhase_eq set
    exact ⟨by simp, by simp, fun h => (by cases h), fun _ => .inr rfl, by simp⟩
  | begin rest size isLast takes command =>
    exact orderly_of_rcpt takes.phase (hc.greeted (.inr (.inl takes.phase)))
  | chunk rest rest' size body takes command read =>
    exact orderly_of_rcpt takes.phase (hc.greeted (.inr (.inl takes.phase)))
  | dropChunks rest size isLast dataSize takes command =>
    exact orderly_of_rcpt takes.phase (hc.greeted (.inr (.inl takes.phase)))
  | loseData size phase =>
    exact ⟨hc.known, hc.greeted, hc.data, hc.bdat, fun h => by simp [phase] at h⟩

namespace Session

variable {cfg : Config} {a : Answers} {s : Session}

def QuitEnds (s : Session) : Prop :=
  s.state.phase = .quit → s.live = false

theorem quitEnds_close : s.close.QuitEnds :=
  fun _ => rfl

theorem quitEnds_endTurn : (s.endTurn a).QuitEnds := by
  fun_cases endTurn a s with
  | case1 | case2 => exact quitEnds_close
  | case3 hphase => exact fun hquit => absurd hquit hphase

theorem quitEnds_finish (o : Outcome) : (finish a o).QuitEnds := by
  fun_cases finish a o with
  | case1 s | case4 s => exact quitEnds_endTurn
  | case2 s hdead => exact fun _ => eq_false_of_ne_true hdead
  | case3 => exact quitEnds_close

theorem quitEnds_dataTurn : (s.dataTurn cfg a).QuitEnds := by
  have hreset (t : Session) (st : SessionState) : ({ t with state := st.reset } : Session).QuitEnds := by
    intro hquit
    rcases st.reset_phase with h | h <;> simp [h] at hquit
  fun_cases dataTurn cfg a s with
  | case1 => exact quitEnds_close
  | case2 | case3 => exact hreset _ _

theorem QuitEnds.turn (h : s.QuitEnds) (cfg : Config) (a : Answers) : (s.turn cfg a).QuitEnds := by
  apply turn_cases
  case same => exact h
  case closed => exact fun _ _ => quitEnds_close
  case data => exact fun _ => quitEnds_dataTurn
  case command => exact fun _ _ _ _ => quitEnds_finish _

/-! ## The turn of a MAIL command -/

def senderOk : Bytes :=
  lit "250 2.1.0 Sender OK"

theorem errorReply_ne_senderOk (e : Bytes) : errorReply e ≠ senderOk := by
  intro h
  exact errorReply_head e (by rw [h]; decide)

/-- The turn hears MAIL with these declarations and answers that the sender is accepted. -/
structure AcceptsMail (cfg : Config) (a : Answers) (s : Session) (d : SessionState.Declared) :
    Prop where
  attends : s.attends a = true
  command : ∃ line rest p, s.heard = some (line, rest) ∧ (splitCommand line).1 = lit "MAIL" ∧
    parseMailFromParams cfg.parseIP cfg.maxSize s.state.tlsActive (splitCommand line).2 = .ok p ∧
    p.declared = d
  reply : (s.turn cfg a).replies = s.replies ++ [senderOk]

/-- MAIL is refused and changes nothing, or it is accepted and installs its envelope. -/
theorem turn_mail (hattends : s.attends a = true) {line : Bytes} {rest : Tape Fault}
    (hheard : s.heard = some (line, rest)) (hname : (splitCommand line).1 = lit "MAIL") :
    ((s.turn cfg a).state = s.state ∧ (s.turn cfg a).replies ≠ s.replies ++ [senderOk]) ∨
    ∃ p st, s.state.canAcceptCommand (lit "MAIL") = true ∧
      parseMailFromParams cfg.parseIP cfg.maxSize s.state.tlsActive (splitCommand line).2 = .ok p ∧
      s.state.acceptMail p.addr p.size p.smtpUTF8 (if p.hasDSN then some p.dsn else none)
        p.requireTLS = some st ∧
      (s.turn cfg a).core = { s.core with state := st } ∧
      (s.turn cfg a).replies = s.replies ++ [senderOk] := by
  obtain ⟨r, -, hturn⟩ := turn_of_heard cfg hattends hheard
  rw [hturn]
  have hrefused (e : Bytes) (t : Session) (hstate : t.state = s.state)
      (hreplies : t.replies = s.replies) : (finish a (t, some e)).state = s.state ∧
      (finish a (t, some e)).replies ≠ s.replies ++ [senderOk] := by
    refine ⟨(congrArg Core.state (core_finish a _)).trans hstate, ?_⟩
    rw [replies_finish_error, hreplies]
    intro heq
    exact errorReply_ne_senderOk e (List.singleton_inj.1 (List.append_cancel_left heq))
  obtain ⟨e, reader, lost, hres⟩ | ⟨-, hplace, hres⟩ :=
    processCommand_cases cfg a { s with reader := r } line
  · rw [hres]
    exact .inl (hrefused e _ rfl rfl)
  rw [hname] at hplace
  rw [hres, hname, (dispatch_named _ _ _ _ _).1]
  rcases handleMAIL_cases cfg a { s with reader := r } (splitCommand line).2 with
    ⟨e, h⟩ | ⟨p, st, hparse, haccept, h⟩
  · rw [h]
    exact .inl (hrefused e _ rfl rfl)
  · rw [h]
    exact .inr ⟨p, st, hplace, hparse, haccept, core_finish a _, replies_finish_none a _⟩

theorem state_of_not_attends (h : s.attends a = false)
    (hphase : s.state.phase ≠ .data) : (s.turn cfg a).state = s.state := by
  apply turn_cases (P := fun t => t.state = s.state)
  case same => rfl
  case closed => exact fun _ _ => rfl
  case data => exact fun hdata => absurd hdata hphase
  case command => exact fun _ _ hattends _ => absurd hattends (by simp [h])

/-- A transaction that is open was open before, or the turn began it. -/
theorem openedBy_turn (cfg : Config) (s : Session) (a : Answers) (d : SessionState.Declared)
    (h : (s.turn cfg a).state.OpenedBy d) : s.state.OpenedBy d ∨ s.AcceptsMail cfg a d := by
  have heffect := turn_effect cfg s a
  have hsame (hstate : (s.turn cfg a).state = s.state) : s.state.OpenedBy d := hstate ▸ h
  generalize hc : (s.turn cfg a).core = c at heffect
  have hstate : (s.turn cfg a).state = c.state := congrArg Core.state hc
  rw [hstate] at h
  cases heffect with
  | keep => exact .inl h
  | greet | reset | tls | deliverChunks | deliverData | refuseData =>
    exact absurd h not_openedBy_reset
  | attempt | login | begin | chunk | dropChunks | loseData => exact .inl ⟨h.phase, h.declares⟩
  | sender line rest q st command parsed accepted =>
    cases hattends : s.attends a with
    | false =>
      have hphase : s.state.phase ≠ .data := by
        rcases phase_of_mail command.allowed with h | h <;>
          · change s.state.phase = _ at h
            simp [h]
      exact .inl (hsame (state_of_not_attends hattends hphase))
    | true =>
      rcases turn_mail hattends command.read command.named with
        ⟨hnone, -⟩ | ⟨p, st', -, hparse, haccept, hcore, hreply⟩
      · exact .inl (hsame hnone)
      refine .inr ⟨hattends, ⟨line, rest, p, command.read, command.named, hparse, ?_⟩, hreply⟩
      have hdeclares := h.declares
      have hstate' : (s.turn cfg a).state = st' := congrArg Core.state hcore
      rw [← hstate, hstate', acceptMail_eq haccept] at hdeclares
      exact hdeclares
  | recipient line rest q r isBounce st command parsed resolved added =>
    obtain rfl := addRecipient_eq added
    have hphase := phase_of_rcpt command.allowed
    refine .inl ⟨.inl hphase, ?_⟩
    have hdeclares := h.declares
    split at hdeclares <;> exact hdeclares
  | data st nonempty fits set =>
    obtain ⟨st₁, hset, hphase⟩ := Option.bind_eq_some_iff.1 set
    obtain ⟨-, rfl⟩ := setDataTransferMode_eq hset
    obtain rfl := setPhase_eq hphase
    exact .inl ⟨.inl (phase_of_canAcceptDataCommand fits), h.declares⟩
  | quit st set =>
    obtain rfl := setPhase_eq set
    rcases h.phase with hphase | hphase <;> cases hphase

/-! ## Sessions -/

/-- Along these turns MAIL with the declarations of the envelope was accepted, and the transaction
has been open ever since. -/
def SenderAccepted (cfg : Config) (s : Session) (answers : List Answers) : Prop :=
  ∃ before a after d, answers = before ++ a :: after ∧ (run cfg s before).AcceptsMail cfg a d ∧
    ∀ first, first <+: after → (run cfg s (before ++ a :: first)).state.OpenedBy d

/-- Only what its own MAIL declared is there: no recipients and no size, and no chunks. -/
structure Begins (d : SessionState.Declared) (s : Session) : Prop where
  opened : s.state.OpenedBy d
  rcptTo : s.state.rcptTo = []
  dsn : s.state.dsnRecipientParams = []
  size : s.state.dataSize = 0
  mode : s.state.dataTransferMode = .none
  chunks : s.bdatSpool = none ∧ s.bdatBytesReceived = 0 ∧ s.bdatChunkCount = 0

/-- What holds of every session that a connection can lead to. -/
structure Kept (s : Session) : Prop where
  orderly : s.state.Orderly
  idle : s.core.Idle
  quit : s.QuitEnds

theorem kept_run (cfg : Config) (now : Nat) (conn : List (Arrival Fault)) (store : Queue.Store)
    (answers : List Answers) : (run cfg (start cfg now conn store) answers).Kept := by
  refine Machine.run_invariant Kept (fun s a h => ?_) ?_ answers
  · have heffect := turn_effect cfg s a
    exact ⟨heffect.orderly h.orderly, heffect.idle h.idle, h.quit.turn cfg a⟩
  · exact ⟨orderly_reset .new, ⟨fun _ => ⟨rfl, rfl, rfl⟩, fun h => by cases h⟩,
      fun h => by cases h⟩

theorem senderAccepted_of_opened (cfg : Config) (now : Nat) (conn : List (Arrival Fault))
    (store : Queue.Store) (answers : List Answers)
    (h : (run cfg (start cfg now conn store) answers).state.phase = .rcpt ∨
      (run cfg (start cfg now conn store) answers).state.phase = .data) :
    SenderAccepted cfg (start cfg now conn store) answers := by
  rcases Machine.run_since (fun (s : Session) d => s.state.OpenedBy d)
      (fun s a d => s.AcceptsMail cfg a d) (openedBy_turn cfg)
      (⟨h, rfl⟩ : (run cfg (start cfg now conn store) answers).state.OpenedBy _) with
    hall | ⟨before, a, after, hsplit, haccepts, hopen⟩
  · rcases (hall [] (List.nil_prefix)).phase with hphase | hphase <;> cases hphase
  · exact ⟨before, a, after, _, hsplit, haccepts, hopen⟩

/-- MAIL finds nothing of an earlier transaction. -/
theorem Kept.begins (h : s.Kept) {d : SessionState.Declared} (haccepts : s.AcceptsMail cfg a d) :
    (s.turn cfg a).Begins d := by
  obtain ⟨line, rest, p, hheard, hname, hparse, rfl⟩ := haccepts.command
  rcases turn_mail haccepts.attends hheard hname with
    ⟨-, hreply⟩ | ⟨q, st, hplace, hparse', haccept, hcore, -⟩
  · exact absurd haccepts.reply hreply
  obtain rfl : p = q := Except.ok.inj (hparse.symm.trans hparse')
  -- the phase is that of a session without a transaction, which has nothing to reset
  have hphase : s.state.phase = .mail :=
    (phase_of_mail hplace).resolve_right h.orderly.known.2
  have hclean := h.orderly.idle (.inr hphase)
  have hmode : s.state.dataTransferMode = .none := congrArg dataTransferMode hclean.symm
  have hspool := h.idle.spool (by change s.state.dataTransferMode ≠ _; rw [hmode]; decide)
  have hstate : (s.turn cfg a).state = st := congrArg Core.state hcore
  rw [acceptMail_eq haccept] at hstate
  refine ⟨⟨by rw [hstate]; exact .inl rfl, by rw [hstate]; rfl⟩, by rw [hstate], by rw [hstate], ?_,
    by rw [hstate]; exact hmode, ?_⟩
  · rw [hstate]
    exact congrArg dataSize hclean.symm
  · exact ⟨(congrArg Core.spool hcore).trans hspool.1,
      (congrArg Core.bytesReceived hcore).trans hspool.2.1,
      (congrArg Core.chunkCount hcore).trans hspool.2.2⟩

/-- The data phase of a session comes with a greeting, an accepted sender, recipients and the mode
of DATA, and a MAIL that is accepted begins with its own declarations only; as long as the session
is running, its chunked transfer comes with the recipient phase, and its recipients with an accepted
sender. -/
theorem running_sessions_consistent (cfg : Config) (now : Nat) (conn : List (Arrival Fault))
    (store : Queue.Store) (answers : List Answers) :
    let s := run cfg (start cfg now conn store) answers
    (s.state.phase = .data →
      s.state.greeted = true ∧ SenderAccepted cfg (start cfg now conn store) answers ∧
        s.state.rcptTo ≠ [] ∧ s.state.dataTransferMode = .data) ∧
    (s.live = true → s.state.dataTransferMode = .bdat → s.state.phase = .rcpt) ∧
    (s.live = true → s.state.rcptTo ≠ [] → SenderAccepted cfg (start cfg now conn store) answers) ∧
    ∀ a d, s.AcceptsMail cfg a d → (s.turn cfg a).Begins d := by
  have hkept := kept_run cfg now conn store answers
  have hopened := senderAccepted_of_opened cfg now conn store answers
  generalize run cfg (start cfg now conn store) answers = s at hkept hopened
  have horderly := hkept.orderly
  have hrunning (hlive : s.live = true) : s.state.phase ≠ .quit := fun hquit => by
    rw [hkept.quit hquit] at hlive
    cases hlive
  refine ⟨fun hphase => ?_, fun hlive hmode => ?_, fun hlive hrcpt => hopened ?_,
    fun a d => hkept.begins⟩
  · obtain ⟨hrcpt, hmode⟩ := horderly.data hphase
    exact ⟨horderly.greeted (.inr (.inr hphase)), hopened (.inr hphase), hrcpt, hmode⟩
  · exact (horderly.bdat hmode).resolve_right (hrunning hlive)
  · -- recipients are there in two phases only
    have hidle (hphase : s.state.phase = .init ∨ s.state.phase = .mail) : False :=
      hrcpt (congrArg rcptTo (horderly.idle hphase).symm)
    obtain ⟨hauth, htls⟩ := horderly.known
    cases hphase : s.state.phase with
    | init => exact (hidle (.inl hphase)).elim
    | mail => exact (hidle (.inr hphase)).elim
    | rcpt => exact .inl rfl
    | data => exact .inr rfl
    | auth => exact absurd hphase hauth
    | tls => exact absurd hphase htls
    | quit => exact absurd hphase (hrunning hlive)

end Session

def greetedClient (lines : Bytes) (turns : Nat) : Session :=
  Session.run (.plain none)
    (Session.start (.plain none) 0 (arrives (lit "EHLO c.example\r\n" ++ lines)) .empty)
    (List.replicate turns (.calm 0 (lit "m1")))

theorem running_sessions_consistent_data :
    Session.SenderAccepted (.plain none)
      (Session.start (.plain none) 0 (arrives (lit "EHLO c.example\r\n" ++
        lit "MAIL FROM:<a@c.example>\r\nRCPT TO:<b@here.example>\r\nDATA\r\n")) .empty)
      (List.replicate 4 (.calm 0 (lit "m1"))) ∧
    (greetedClient (lit "MAIL FROM:<a@c.example>\r\nRCPT TO:<b@here.example>\r\nDATA\r\n")
      4).state.dataTransferMode = .data := by
  obtain ⟨hdata, -⟩ := Session.running_sessions_consistent (.plain none) 0
    (arrives (lit "EHLO c.example\r\n" ++
      lit "MAIL FROM:<a@c.example>\r\nRCPT TO:<b@here.example>\r\nDATA\r\n")) .empty
    (List.replicate 4 (.calm 0 (lit "m1")))
  obtain ⟨-, haccepted, -, hmode⟩ := hdata (by decide +kernel)
  exact ⟨haccepted, hmode⟩

/-- QUIT between two chunks leaves the mode as it is. -/
theorem quit_keeps_mode :
    (greetedClient
      (lit "MAIL FROM:<a@c.example>\r\nRCPT TO:<b@here.example>\r\nBDAT 2\r\nhiQUIT\r\n")
      5).state.dataTransferMode = .bdat ∧
    (greetedClient
      (lit "MAIL FROM:<a@c.example>\r\nRCPT TO:<b@here.example>\r\nBDAT 2\r\nhiQUIT\r\n")
      5).state.phase = .quit := by
  decide +kernel

end Elemta.Smtp

import Elemta.Smtp.Verdict

/-!
# Chunked messages

Beside the session runs a record of the transfer that only the proofs look at: the
chunks that were accepted since the last MAIL, and whether one was refused. As long
as no chunk of the transaction was refused, the spool holds exactly the recorded
chunks. A refusal empties the spool and ends the transfer mode but keeps the
envelope, so a later chunk starts a message of its own.
-/

namespace Elemta.Smtp

open Bytes BufferedReader Session

/-! ## Lines that announce a chunk -/

def decimalSize : Bytes → Option Nat
  | 43 :: digits => if isDecimal digits then some (decimalValue digits) else none
  | digits => if isDecimal digits then some (decimalValue digits) else none

def Validator.declaredChunk (line : Bytes) : Option Nat :=
  let (cmd, args) := parseCommand (canonicalizeCommand line)
  if cmd = lit "BDAT" then (fields args).head?.bind decimalSize else none

def handledChunk (line : Bytes) : Option (Int × Bool) :=
  if (splitCommand line).1 = lit "BDAT" then
    match Session.parseBDAT (splitCommand line).2 with
    | .ok chunk => some chunk
    | .error _ => none
  else none

variable {a : Answers} {isLast : Bool} {line : Bytes} {cfg : Config} {c : Core} {size : Int}
  {s : Session} {rest : Tape Fault}

theorem Session.parseBDAT_size {args : Bytes}
    (h : parseBDAT args = .ok (size, isLast)) : 0 ≤ size ∧ size < 2 ^ 63 := by
  revert h
  fun_cases parseBDAT args with
  | case5 word n hparse hsign | case6 word n hparse hsign =>
    rintro ⟨⟩
    exact ⟨Int.not_lt.1 hsign, lt_of_parseInt64 hparse⟩
  | _ => nofun

theorem handledChunk_eq_some :
    handledChunk line = some (size, isLast) ↔ (splitCommand line).1 = lit "BDAT" ∧
      parseBDAT (splitCommand line).2 = .ok (size, isLast) := by
  unfold handledChunk
  by_cases hname : (splitCommand line).1 = lit "BDAT"
  · cases parseBDAT (splitCommand line).2 with
    | ok chunk => simp [hname]
    | error e => simp
  · simp [hname]

namespace Session

def answersOk (s s' : Session) : Bool :=
  (s'.replies.drop s.replies.length).head?.any fun r => r.head? == some 50

end Session

/-! ## The record of a transfer -/

structure Transfer where
  chunks : List Bytes
  refused : Bool
  deriving DecidableEq

namespace Transfer

def fresh : Transfer :=
  { chunks := [], refused := false }

/-- The record after a turn. An accepted MAIL starts a new one; a chunk that the handler does not
recognise as one is refused as well. -/
def next (cfg : Config) (t : Transfer) (s : Session) (a : Answers) : Transfer :=
  if s.attends a then
    match s.heard with
    | none => t
    | some (line, rest) =>
      if (splitCommand line).1 = lit "MAIL" ∧ s.state.phase ≠ .rcpt ∧
          (s.turn cfg a).state.phase = .rcpt then fresh
      else
        match handledChunk line with
        | some (size, _) =>
          if s.answersOk (s.turn cfg a) then
            { t with chunks := t.chunks ++ [(rest.full size.toNat).1] }
          else { t with refused := true }
        | none => if (Validator.declaredChunk line).isSome then { t with refused := true } else t
  else t

end Transfer

abbrev Recorded := Session × Transfer

def Recorded.turn (cfg : Config) (r : Recorded) (a : Answers) : Recorded :=
  (r.1.turn cfg a, r.2.next cfg r.1 a)

/-! ## Replies to a chunk -/

namespace Session

variable {a : Answers} {cfg : Config} {s t : Session}

variable {s' : Session}

theorem answersOk_errorReply {e : Bytes} (h : s'.replies = s.replies ++ [errorReply e]) :
    s.answersOk s' = false := by
  unfold answersOk
  rw [h]
  simpa using errorReply_head e

theorem answersOk_same (h : s'.replies = s.replies) : s.answersOk s' = false := by
  simp [answersOk, h]

end Session

/-! ## The spool outside of a transfer -/

structure Core.Idle (c : Core) : Prop where
  spool : c.state.dataTransferMode ≠ .bdat →
    c.spool = none ∧ c.bytesReceived = 0 ∧ c.chunkCount = 0
  data : c.state.phase = .data → c.state.dataTransferMode ≠ .bdat

theorem Core.takesChunk.phase (h : c.takesChunk) : c.state.phase = .rcpt :=
  SessionState.phase_of_canAcceptDataCommand h.2

variable {c' : Core} {input : Option (Bytes × Tape Fault)} {st : SessionState}

theorem Effect.idle (h : Effect cfg a input c c') (hc : c.Idle) : c'.Idle := by
  cases h with
  | keep => exact hc
  | greet name idle => exact ⟨fun _ => hc.spool idle, fun _ => by simp⟩
  | attempt | login | loseData => exact ⟨hc.spool, hc.data⟩
  | sender line rest p st command parsed accepted =>
    obtain rfl := SessionState.acceptMail_eq accepted
    exact ⟨hc.spool, fun h => by cases h⟩
  | recipient line rest p r isBounce st command parsed resolved added =>
    obtain rfl := SessionState.addRecipient_eq added
    split <;> exact ⟨hc.spool, fun h => by cases h⟩
  | data st nonempty fits set =>
    obtain ⟨st₁, hset, hphase⟩ := Option.bind_eq_some_iff.1 set
    obtain ⟨hfree, rfl⟩ := SessionState.setDataTransferMode_eq hset
    obtain rfl := SessionState.setPhase_eq hphase
    refine ⟨fun _ => hc.spool ?_, fun _ => by simp⟩
    rcases hfree with hfree | hfree <;> simp [hfree]
  | reset | dropChunks | deliverChunks =>
    exact ⟨fun _ => ⟨rfl, rfl, rfl⟩, fun _ => by simp [Core.noChunks]⟩
  | quit st set =>
    obtain rfl := SessionState.setPhase_eq set
    exact ⟨hc.spool, fun h => by cases h⟩
  | tls idle => exact ⟨fun _ => hc.spool idle, fun _ => by simp⟩
  | begin rest size isLast takes command =>
    exact ⟨fun h => absurd rfl h, fun h => by simp [takes.phase] at h⟩
  | chunk rest rest' size body takes command read =>
    exact ⟨fun h => absurd rfl h, fun h => by simp [takes.phase] at h⟩
  | deliverData content st store phase processed =>
    exact ⟨fun _ => hc.spool (hc.data phase), fun _ => by simp⟩
  | refuseData size phase => exact ⟨fun _ => hc.spool (hc.data phase), fun _ => by simp⟩

/-! ## The record is what the spool holds -/

/-- The spool holds the recorded chunks of a transaction in which none was refused. -/
def Recorded.Whole (r : Recorded) : Prop :=
  r.1.state.phase = .rcpt → r.2.refused = false → r.1.bdatSpool.getD [] = r.2.chunks.flatten

structure Recorded.Inv (r : Recorded) : Prop where
  idle : r.1.core.Idle
  whole : r.Whole

theorem not_chunkCommand {rest' : Tape Fault} (h : handledChunk line = none) :
    ¬ChunkCommand (some (line, rest)) st rest' size isLast := by
  rintro ⟨line', hcommand, hparse⟩
  obtain ⟨rfl, -⟩ := Prod.mk.inj (Option.some.inj hcommand.read)
  simp [handledChunk, hcommand.named, hparse] at h

/-- A turn without a chunk leaves the spool as it was, as far as a chunk could still follow. -/
theorem Effect.spool_of_other (h : Effect cfg a input c c')
    (hchunk : ∀ {rest size isLast}, ¬ChunkCommand input c.state rest size isLast)
    (hphase : c'.state.phase = .rcpt) :
    c'.spool = c.spool ∧ (c.state.phase = .rcpt ∨
      ∃ line rest, Command input c.state (lit "MAIL") line rest) := by
  cases h with
  | keep | attempt | login => exact ⟨rfl, .inl hphase⟩
  | greet | reset | tls | deliverData | refuseData =>
    exact absurd hphase (SessionState.reset_phase_ne)
  | sender line rest p st command parsed accepted => exact ⟨rfl, .inr ⟨line, rest, command⟩⟩
  | recipient line rest p r isBounce st command parsed resolved added =>
    exact ⟨rfl, .inl (SessionState.phase_of_rcpt command.allowed)⟩
  | data st nonempty fits set =>
    obtain ⟨st₁, hset, hphase'⟩ := Option.bind_eq_some_iff.1 set
    obtain rfl := SessionState.setPhase_eq hphase'
    cases hphase
  | quit st set =>
    obtain rfl := SessionState.setPhase_eq set
    cases hphase
  | begin _ _ _ _ command => exact absurd command hchunk
  | chunk _ _ _ _ _ command => exact absurd command hchunk
  | dropChunks _ _ _ _ _ command => exact absurd command hchunk
  | deliverChunks _ _ _ _ _ _ _ command => exact absurd command hchunk
  | loseData size phase =>
    have hdata : c.state.phase = .rcpt := hphase
    rw [phase] at hdata
    cases hdata

theorem not_chunkCommand_none : ¬ChunkCommand none st rest size isLast := by
  rintro ⟨line, hcommand, -⟩
  cases hcommand.read

/-- A turn that reads no command leaves the spool of an open envelope alone. -/
theorem Effect.spool_of_none (h : Effect cfg a none c c') (hphase : c'.state.phase = .rcpt) :
    c'.spool = c.spool ∧ c.state.phase = .rcpt := by
  obtain ⟨hspool, hrcpt | ⟨line, rest, hcommand⟩⟩ := h.spool_of_other not_chunkCommand_none hphase
  · exact ⟨hspool, hrcpt⟩
  · cases hcommand.read

theorem Session.effect_of_not_attends (h : s.attends a = false) :
    Effect cfg a none s.core (s.turn cfg a).core := by
  apply turn_cases (P := fun t => Effect cfg a none s.core t.core)
  case same => exact .keep
  case closed => exact fun _ _ => .keep
  case data => exact dataTurn_effect
  case command => exact fun _ _ hattends _ => absurd hattends (by simp [h])

/-- A chunk with a positive reply is in the spool, or its message is done. -/
theorem Session.spool_of_answersOk (hattends : s.attends a = true)
    (hheard : s.heard = some (line, rest)) (hchunk : handledChunk line = some (size, isLast))
    (hok : s.answersOk (s.turn cfg a) = true) (hphase : (s.turn cfg a).state.phase = .rcpt) :
    s.state.phase = .rcpt ∧
      (s.turn cfg a).bdatSpool = some (s.bdatSpool.getD [] ++ (rest.full size.toNat).1) := by
  obtain ⟨r, rfl, hturn⟩ := turn_of_heard cfg hattends hheard
  rw [hturn] at hok hphase ⊢
  obtain ⟨hnamed, hparse⟩ := handledChunk_eq_some.1 hchunk
  -- any other way ends in an error, or nothing is said
  have herror (t : Session) (e : Bytes) (ht : t.replies = s.replies) :
      s.answersOk (finish a (t, some e)) ≠ true := by
    rw [answersOk_errorReply (by rw [replies_finish_error, ht])]
    decide
  obtain ⟨e, reader, lost, hout⟩ | ⟨-, -, hout⟩ :=
    processCommand_cases cfg a { s with reader := r } line
  · rw [hout] at hok
    exact absurd hok (herror _ e rfl)
  rw [hnamed, (dispatch_named _ _ _ _ _).2.2.1, handleBDAT, hparse] at hout
  rw [hout] at hok hphase ⊢
  have htransferred := transferred (s := { s with reader := r }) cfg a
    (live_of_attends hattends) size isLast
  dsimp only at hok hphase ⊢
  generalize transferChunk cfg a { s with reader := r } size isLast = o
    at htransferred hok hphase ⊢
  cases htransferred with
  | rejected e => exact absurd hok (herror _ e rfl)
  | failed e => exact absurd hok (herror _ e rfl)
  | dropped e => exact absurd hok (herror _ e rfl)
  | closed =>
    rw [answersOk_same] at hok
    · cases hok
    · exact replies_finish_none a _
  | spooled body reply reader takes fits read =>
    refine ⟨takes.phase, (congrArg Core.spool (core_finish a _)).trans ?_⟩
    rw [read]
    rfl
  | delivered body st =>
    change (finish a _).core.state.phase = .rcpt at hphase
    rw [core_finish] at hphase
    exact absurd hphase (SessionState.reset_phase_ne)

theorem Recorded.Inv.turn {r : Recorded} (hr : r.Inv) (a : Answers) : (r.turn cfg a).Inv := by
  obtain ⟨s, t⟩ := r
  have heffect := turn_effect cfg s a
  refine ⟨heffect.idle hr.idle, ?_⟩
  intro hphase hrefused
  change (t.next cfg s a).refused = false at hrefused
  change (s.turn cfg a).bdatSpool.getD [] = (t.next cfg s a).chunks.flatten
  have hkept (hspool : (s.turn cfg a).bdatSpool = s.bdatSpool) (hrcpt : s.state.phase = .rcpt)
      (hfine : t.refused = false) : (s.turn cfg a).bdatSpool.getD [] = t.chunks.flatten :=
    hspool ▸ hr.whole hrcpt hfine
  unfold Transfer.next at hrefused ⊢
  cases hattends : s.attends a with
  | false =>
    simp only [hattends, Bool.false_eq_true, if_false] at hrefused ⊢
    obtain ⟨hspool, hrcpt⟩ := (effect_of_not_attends hattends).spool_of_none hphase
    exact hkept hspool hrcpt hrefused
  | true =>
    simp only [hattends, if_true] at hrefused ⊢
    cases hheard : s.heard with
    | none =>
      simp only [hheard] at hrefused ⊢
      rw [hheard] at heffect
      obtain ⟨hspool, hrcpt⟩ := heffect.spool_of_none hphase
      exact hkept hspool hrcpt hrefused
    | some heard =>
      obtain ⟨line, rest⟩ := heard
      simp only [hheard] at hrefused ⊢
      rw [hheard] at heffect
      by_cases hmail : (splitCommand line).1 = lit "MAIL" ∧ s.state.phase ≠ .rcpt ∧
          (s.turn cfg a).state.phase = .rcpt
      · -- an accepted MAIL finds the spool empty
        rw [if_pos hmail]
        have hother : handledChunk line = none := by
          unfold handledChunk
          rw [hmail.1, if_neg (by decide)]
        obtain ⟨hspool, hrcpt | ⟨line', rest', hcommand⟩⟩ :=
          heffect.spool_of_other (not_chunkCommand hother) hphase
        · exact absurd hrcpt hmail.2.1
        have hempty := hr.idle.spool
          (SessionState.mode_ne_bdat_of_canAcceptCommand hcommand.allowed (by decide))
        have hnone : (s.turn cfg a).bdatSpool = none := hspool.trans hempty.1
        rw [hnone]
        rfl
      · rw [if_neg hmail] at hrefused ⊢
        cases hchunk : handledChunk line with
        | some chunk =>
          simp only [hchunk] at hrefused ⊢
          cases hok : s.answersOk (s.turn cfg a) with
          | false => simp [hok] at hrefused
          | true =>
            simp only [hok, if_true] at hrefused ⊢
            obtain ⟨hrcpt, hspool⟩ := spool_of_answersOk hattends hheard hchunk hok hphase
            rw [hspool, List.flatten_append, ← hr.whole hrcpt hrefused]
            simp
        | none =>
          simp only [hchunk] at hrefused ⊢
          cases hdeclared : (Validator.declaredChunk line).isSome with
          | true => simp [hdeclared] at hrefused
          | false =>
            simp only [hdeclared, Bool.false_eq_true, if_false] at hrefused ⊢
            obtain ⟨hspool, hrcpt | ⟨line', rest', hcommand⟩⟩ :=
              heffect.spool_of_other (not_chunkCommand hchunk) hphase
            · exact hkept hspool hrcpt hrefused
            · -- MAIL was accepted after all, since it is no command of the phase it leads to
              obtain ⟨rfl, -⟩ := Prod.mk.inj (Option.some.inj hcommand.read)
              refine absurd ⟨hcommand.named, fun hrcpt => ?_, hphase⟩ hmail
              rcases SessionState.phase_of_mail hcommand.allowed with h | h <;> cases hrcpt.symm.trans h

/-! ## Whole messages -/

/-- If the command of the turn is a chunk and a message is accepted with it, then no chunk of the
transaction was refused and the message is all of its chunks. -/
def Recorded.Sound (cfg : Config) (r : Recorded) (a : Answers) : Prop :=
  ∀ line rest size isLast, r.1.attends a = true → r.1.heard = some (line, rest) →
    handledChunk line = some (size, isLast) →
    ((r.1.turn cfg a).store ≠ r.1.store ∨
      isLast = true ∧ (r.1.turn cfg a).replies = r.1.replies ++ [Session.accepted]) →
    r.2.refused = false ∧ ∃ content mode st,
      content = (r.2.chunks ++ [(rest.full size.toNat).1]).flatten ∧
      processMessage cfg a.delivery
        { r.1.state with dataSize := content.length, dataTransferMode := mode } content r.1.store =
          (none, st, (r.1.turn cfg a).store)

/-- The client gives up on a transaction once a chunk of it was refused: it sends no last chunk. -/
def Recorded.GivesUp (r : Recorded) (a : Answers) : Prop :=
  r.2.refused = true → r.1.attends a = true → ¬r.1.LastChunkNext

theorem Session.received_of_chunk {content : Bytes} (hattends : s.attends a = true)
    (hheard : s.heard = some (line, rest)) (hchunk : handledChunk line = some (size, true))
    (h : s.received cfg a = some content) :
    s.state.phase = .rcpt ∧ content = s.bdatSpool.getD [] ++ (rest.full size.toNat).1 := by
  obtain ⟨hnamed, hparse⟩ := handledChunk_eq_some.1 hchunk
  simp only [attends, Bool.and_eq_true, Bool.not_eq_true', decide_eq_true_eq] at hattends
  unfold received at h
  rw [if_neg (by simp [hattends.1.1, hattends.1.2]), if_neg hattends.2] at h
  unfold heard at hheard
  rcases hline : s.reader.boundedLine readerSize commandLineLimit with
    ⟨_ | ⟨text, _ | stop⟩, r⟩ <;> rw [hline] at hheard h
  · simp at hheard
  · cases hheard
    dsimp only [commandMessage] at h
    split at h
    · simp at h
    rw [hparse] at h
    dsimp only [chunkMessage] at h
    split at h
    · simp at h
    rename_i htakes
    rw [not_or] at htakes
    have hphase := SessionState.phase_of_canAcceptDataCommand (eq_true_of_ne_false htakes.2)
    refine ⟨hphase, ?_⟩
    obtain ⟨e, spool, reader, lost, hres⟩ | hres | ⟨body, reader, -, hread, hres⟩ :=
      readBDATChunk_cases size
    · rw [hres] at h
      simp at h
    · rw [hres] at h
      simp [close] at h
    · rw [hres] at h
      have hfull : r.tape.full size.toNat = (body, none, reader.tape) := hread
      rw [hfull]
      dsimp only at h
      split at h
      · exact (Option.some.inj h).symm
      · simp at h
  · simp at hheard

theorem Session.store_of_chunk (hattends : s.attends a = true)
    (hheard : s.heard = some (line, rest)) (hchunk : handledChunk line = some (size, false)) :
    (s.turn cfg a).store = s.store := by
  have heffect := turn_effect cfg s a
  have hphase : s.core.state.phase ≠ .data := by
    simp only [attends, Bool.and_eq_true, decide_eq_true_eq] at hattends
    exact hattends.2
  change (s.turn cfg a).core.store = s.core.store
  generalize (s.turn cfg a).core = c' at heffect
  rw [hheard] at heffect
  cases heffect with
  | deliverChunks _ _ size' _ _ _ _ command =>
    obtain ⟨line', hcommand, hparse⟩ := command.command
    obtain ⟨rfl, -⟩ := Prod.mk.inj (Option.some.inj hcommand.read)
    rw [handledChunk_eq_some.2 ⟨hcommand.named, hparse⟩] at hchunk
    simp at hchunk
  | deliverData _ _ _ phase => exact absurd phase hphase
  | _ => rfl

/-- In every state that a session reaches, a client that gives up after a refusal gets whole
messages only. -/
theorem chunked_messages_whole (cfg : Config) (now : Nat) (conn : List (Arrival Fault))
    (store : Queue.Store) (answers : List Answers) (a : Answers)
    (hgives : (Machine.run (Recorded.turn cfg) (Session.start cfg now conn store, Transfer.fresh)
      answers).GivesUp a) :
    (Machine.run (Recorded.turn cfg) (Session.start cfg now conn store, Transfer.fresh)
      answers).Sound cfg a := by
  have hinv : (Machine.run (Recorded.turn cfg) (start cfg now conn store, Transfer.fresh)
      answers).Inv := by
    refine Machine.run_invariant Recorded.Inv (fun r a hr => hr.turn a) ?_ answers
    exact ⟨⟨fun _ => ⟨rfl, rfl, rfl⟩, fun h => by cases h⟩, fun h => by cases h⟩
  generalize Machine.run (Recorded.turn cfg) (start cfg now conn store, Transfer.fresh)
    answers = r at hgives hinv
  obtain ⟨s, t⟩ := r
  intro line rest size isLast hattends hheard hchunk haccepted
  cases isLast with
  | false =>
    rcases haccepted with hchanged | ⟨hlast, -⟩
    · exact absurd (store_of_chunk hattends hheard hchunk) hchanged
    · cases hlast
  | true =>
    obtain ⟨hnamed, hparse⟩ := handledChunk_eq_some.1 hchunk
    have hlast : s.LastChunkNext := ⟨line, rest, size, hheard, hnamed, hparse⟩
    have hrefused : t.refused = false := by
      by_contra hne
      exact hgives (by simpa using hne) hattends hlast
    refine ⟨hrefused, ?_⟩
    have hnot : (s.turn cfg a).store = s.store →
        (s.turn cfg a).replies ≠ s.replies ++ [accepted] → False := by
      intro hstore hreplies
      rcases haccepted with hchanged | ⟨-, hreply⟩
      · exact hchanged hstore
      · exact hreplies hreply
    have hverdict := turn_verdict cfg a (.inr hlast)
    generalize hmessage : s.received cfg a = message at hverdict
    cases hverdict with
    | incomplete hstore hreplies => exact (hnot hstore hreplies).elim
    | unreadable _ hstore hreplies => exact (hnot hstore hreplies).elim
    | refused _ _ _ _ _ hstore hreplies => exact (hnot hstore hreplies).elim
    | accepted content mode st processed =>
      obtain ⟨hphase, hcontent⟩ := received_of_chunk hattends hheard hchunk hmessage
      refine ⟨content, mode, st, ?_, processed⟩
      have hwhole : s.bdatSpool.getD [] = t.chunks.flatten := hinv.whole hphase hrefused
      rw [hcontent, hwhole]
      simp

/-! ## A transaction with a refused chunk -/

def smallServer : Config :=
  { Config.plain none with maxSize := 5 }

def transfer (chunks : Bytes) (turns : Nat) : Recorded :=
  Machine.run (Recorded.turn smallServer) (Session.start smallServer 0 (arrives
    (lit "EHLO c.example\r\nMAIL FROM:<a@c.example>\r\nRCPT TO:<b@here.example>\r\n" ++ chunks)) .empty,
      Transfer.fresh) (List.replicate turns (.calm 0 (lit "m1")))

/-- Two chunks that are both accepted. -/
theorem chunks_whole_two :
    (transfer (lit "BDAT 2\r\nhiBDAT 2 LAST\r\n\r\n") 4).Sound smallServer (.calm 0 (lit "m1")) := by
  refine chunked_messages_whole smallServer 0 _ .empty _ (.calm 0 (lit "m1")) ?_
  intro hrefused
  have hfalse : (transfer (lit "BDAT 2\r\nhiBDAT 2 LAST\r\n\r\n") 4).2.refused = false := by
    decide +kernel
  have htrue : (transfer (lit "BDAT 2\r\nhiBDAT 2 LAST\r\n\r\n") 4).2.refused = true := hrefused
  rw [hfalse] at htrue
  cases htrue

/-- The first chunk is too large and refused; the last chunk is accepted all the same, and the
message is in the queue without its first part. -/
theorem message_after_refused_chunk :
    ¬(transfer (lit "BDAT 8\r\n12345678BDAT 4 LAST\r\nhi\r\n") 4).Sound smallServer
      (.calm 0 (lit "m1")) := by
  generalize hr : transfer (lit "BDAT 8\r\n12345678BDAT 4 LAST\r\nhi\r\n") 4 = r
  intro hsound
  have hheard : r.1.heard = some (lit "BDAT 4 LAST\r\n", Tape.ofBytes (lit "hi\r\n")) := by
    subst hr
    decide +kernel
  have hreplies : (r.1.turn smallServer (.calm 0 (lit "m1"))).replies =
      r.1.replies ++ [accepted] := by
    subst hr
    decide +kernel
  have hrefused : r.2.refused = true := by
    subst hr
    decide +kernel
  have hattends : r.1.attends (.calm 0 (lit "m1")) = true := by
    subst hr
    decide +kernel
  obtain ⟨hnot, -⟩ := hsound _ _ 4 true hattends hheard (by decide +kernel) (.inr ⟨rfl, hreplies⟩)
  rw [hrefused] at hnot
  cases hnot

end Elemta.Smtp

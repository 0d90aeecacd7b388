import Elemta.Smtp.Loop

/-!
# What a turn can do

A turn of the command loop changes the envelope, the chunks and the queue in one of
a few ways. `turn_effect` lists them with the checks that the change has passed;
invariants of a session are proved from this list and not from the handlers.
-/

namespace Elemta.Smtp

open Bytes BufferedReader

/-- The part of a session that becomes queue entries. -/
structure Core where
  state : SessionState
  spool : Option Bytes
  bytesReceived : Int
  chunkCount : Nat
  store : Queue.Store

namespace Core

def withChunk (c : Core) (body : Bytes) : Bytes :=
  c.spool.getD [] ++ body

def takesChunk (c : Core) : Prop :=
  c.state.rcptTo ≠ [] ∧ c.state.canAcceptDataCommand .bdat = true

def noChunks (c : Core) (state : SessionState) : Core :=
  { c with state := state, spool := none, bytesReceived := 0, chunkCount := 0 }

end Core

def Session.core (s : Session) : Core :=
  { state := s.state
    spool := s.bdatSpool
    bytesReceived := s.bdatBytesReceived
    chunkCount := s.bdatChunkCount
    store := s.store }

/-- The next line is the command `name`: it is text, and its place in the session is right. -/
structure Command (input : Option (Bytes × Tape Fault)) (st : SessionState)
    (name line : Bytes) (rest : Tape Fault) : Prop where
  read : input = some (line, rest)
  valid : Utf8.valid line = true
  named : (splitCommand line).1 = name
  allowed : st.canAcceptCommand name = true

structure ChunkCommand (input : Option (Bytes × Tape Fault)) (st : SessionState)
    (rest : Tape Fault) (size : Int) (isLast : Bool) : Prop where
  command : ∃ line, Command input st (lit "BDAT") line rest ∧
    Session.parseBDAT (splitCommand line).2 = .ok (size, isLast)

inductive Effect (cfg : Config) (a : Answers) (input : Option (Bytes × Tape Fault))
    (c : Core) : Core → Prop where
  | keep : Effect cfg a input c c
  | greet (name : Bytes) (idle : c.state.dataTransferMode ≠ .bdat) :
    Effect cfg a input c
      { c with state := { c.state with heloName := name, greeted := true }.reset }
  | attempt : Effect cfg a input c
      { c with state := { c.state with authAttempts := c.state.authAttempts + 1 } }
  | login (username password : Bytes) (h : a.authenticate username password = true) :
    Effect cfg a input c { c with state := { c.state with
      authAttempts := c.state.authAttempts + 1, authenticated := true, username := username } }
  | sender (line : Bytes) (rest : Tape Fault) (p : MailFromParams) (st : SessionState)
    (command : Command input c.state (lit "MAIL") line rest)
    (parsed : parseMailFromParams cfg.parseIP cfg.maxSize c.state.tlsActive (splitCommand line).2 =
      .ok p)
    (accepted : c.state.acceptMail p.addr p.size p.smtpUTF8
      (if p.hasDSN then some p.dsn else none) p.requireTLS = some st) :
    Effect cfg a input c { c with state := st }
  | recipient (line : Bytes) (rest : Tape Fault) (p : RcptToParams) (rcptTo : Bytes)
    (isBounce : Bool) (st : SessionState) (command : Command input c.state (lit "RCPT") line rest)
    (parsed : parseRCPTEnvelope cfg.parseIP (splitCommand line).2 = .ok p)
    (resolved : Session.resolveRecipient cfg a.now c.state p.addr = .ok (rcptTo, isBounce))
    (added : c.state.addRecipient rcptTo = some st) :
    Effect cfg a input c { c with state :=
      if p.hasDSN then st.setDSNRecipientParams rcptTo p.dsn else st }
  | data (st : SessionState) (nonempty : c.state.rcptTo ≠ [])
    (fits : c.state.canAcceptDataCommand .data = true)
    (set : (c.state.setDataTransferMode .data).bind (fun st => st.setPhase .data) = some st) :
    Effect cfg a input c { c with state := st }
  | reset : Effect cfg a input c (c.noChunks c.state.reset)
  | quit (st : SessionState) (set : c.state.setPhase .quit = some st) :
    Effect cfg a input c { c with state := st }
  | tls (idle : c.state.dataTransferMode ≠ .bdat) : Effect cfg a input c
      { c with state := { c.state with tlsActive := true, greeted := false }.reset }
  /-- The server broke down while it made room for a chunk. -/
  | begin (rest : Tape Fault) (size : Int) (isLast : Bool) (takes : c.takesChunk)
    (command : ChunkCommand input c.state rest size isLast) :
    Effect cfg a input c { c with state := { c.state with dataTransferMode := .bdat } }
  | chunk (rest rest' : Tape Fault) (size : Int) (body : Bytes) (takes : c.takesChunk)
    (command : ChunkCommand input c.state rest size false)
    (read : rest.full size.toNat = (body, none, rest')) :
    Effect cfg a input c { c with
      state := { c.state with dataTransferMode := .bdat }
      spool := some (c.withChunk body)
      bytesReceived := Session.wrap64 (c.bytesReceived + size)
      chunkCount := c.chunkCount + 1 }
  | dropChunks (rest : Tape Fault) (size : Int) (isLast : Bool) (dataSize : Nat)
    (takes : c.takesChunk) (command : ChunkCommand input c.state rest size isLast) :
    Effect cfg a input c
      (c.noChunks { c.state with dataSize := dataSize, dataTransferMode := .none })
  | deliverChunks (rest rest' : Tape Fault) (size : Int) (body : Bytes) (st : SessionState)
    (store : Queue.Store) (takes : c.takesChunk) (command : ChunkCommand input c.state rest size true)
    (read : rest.full size.toNat = (body, none, rest'))
    (processed : processMessage cfg a.delivery
      { c.state with dataTransferMode := .bdat, dataSize := (c.withChunk body).length }
      (c.withChunk body) c.store = (none, st, store)) :
    Effect cfg a input c { c.noChunks st.reset with store := store }
  | deliverData (content : Bytes) (st : SessionState) (store : Queue.Store)
    (phase : c.state.phase = .data)
    (processed : processMessage cfg a.delivery { c.state with dataSize := content.length } content
      c.store = (none, st, store)) :
    Effect cfg a input c { c with state := st.reset, store := store }
  | refuseData (size : Nat) (phase : c.state.phase = .data) :
    Effect cfg a input c { c with state := { c.state with dataSize := size }.reset }
  /-- The position in the stream is lost in the middle of a message; the session ends. -/
  | loseData (size : Nat) (phase : c.state.phase = .data) :
    Effect cfg a input c { c with state := { c.state with dataSize := size } }

namespace Session

/-! ## Changes outside of the core -/

@[simp] theorem core_write (s : Session) (reply : Bytes) : (s.write reply).core = s.core := rfl

@[simp] theorem core_close (s : Session) : s.close.core = s.core := rfl

@[simp] theorem core_refuse (s : Session) (e : Bytes) : (s.refuse e).1.core = s.core := rfl

/-- Consuming a chunk moves the reader and nothing else. -/
theorem discardBDATChunk_form (a : Answers) (s : Session) (size : Int) :
    ∃ reader lost, s.discardBDATChunk a size =
      { s with reader := reader, dataSyncLost := lost } := by
  fun_cases discardBDATChunk a s size with
  | _ => exact ⟨_, _, rfl⟩

theorem discardRefusedBDAT_form (a : Answers) (s : Session) (args : Bytes) :
    ∃ reader lost, s.discardRefusedBDAT a args =
      { s with reader := reader, dataSyncLost := lost } := by
  fun_cases discardRefusedBDAT a s args with
  | case4 => exact discardBDATChunk_form a s _
  | _ => exact ⟨_, _, rfl⟩

@[simp] theorem core_finish (a : Answers) (o : Outcome) : (finish a o).core = o.1.core :=
  finish_keeps core (fun _ => rfl) (fun _ _ => rfl) a o

/-! ## Handlers -/

variable {cfg : Config} {a : Answers} {input : Option (Bytes × Tape Fault)}

theorem handleGreeting_effect (s : Session) (hidle : s.state.dataTransferMode ≠ .bdat)
    (name args : Bytes) {answer : Session → Session} (hanswer : ∀ t, (answer t).core = t.core) :
    Effect cfg a input s.core (s.handleGreeting cfg name args answer).1.core := by
  unfold handleGreeting
  split
  · exact .keep
  split
  · exact .keep
  · rw [hanswer]
    exact .greet args hidle

variable {line : Bytes} {rest : Tape Fault} {s : Session}

theorem handleMAIL_cases (cfg : Config) (a : Answers) (s : Session) (args : Bytes) :
    (∃ e, s.handleMAIL cfg a args = (s, some e)) ∨
    ∃ p st, parseMailFromParams cfg.parseIP cfg.maxSize s.state.tlsActive args = .ok p ∧
      s.state.acceptMail p.addr p.size p.smtpUTF8 (if p.hasDSN then some p.dsn else none)
        p.requireTLS = some st ∧
      s.handleMAIL cfg a args = (({ s with state := st }).write (lit "250 2.1.0 Sender OK"), none) := by
  fun_cases handleMAIL cfg a s args with
  | case5 _ p hparse _ st haccept => exact .inr ⟨p, st, hparse, haccept, rfl⟩
  | _ => exact .inl ⟨_, rfl⟩

theorem handleMAIL_effect (hcommand : Command input s.state (lit "MAIL") line rest) :
    Effect cfg a input s.core (s.handleMAIL cfg a (splitCommand line).2).1.core := by
  obtain ⟨e, h⟩ | ⟨p, st, hparse, haccept, h⟩ := handleMAIL_cases cfg a s (splitCommand line).2
  · rw [h]
    exact .keep
  · rw [h]
    exact .sender line rest p st hcommand hparse haccept

theorem acceptRecipient_effect {p : RcptToParams} {rcptTo : Bytes}
    {isBounce : Bool} (hcommand : Command input s.state (lit "RCPT") line rest)
    (hparse : parseRCPTEnvelope cfg.parseIP (splitCommand line).2 = .ok p)
    (hresolve : resolveRecipient cfg a.now s.state p.addr = .ok (rcptTo, isBounce)) :
    Effect cfg a input s.core (s.acceptRecipient rcptTo p).1.core := by
  unfold acceptRecipient
  split
  · exact .keep
  · rename_i st hadd
    exact .recipient line rest p rcptTo isBounce st hcommand hparse hresolve hadd

theorem handleRCPT_effect (hcommand : Command input s.state (lit "RCPT") line rest) :
    Effect cfg a input s.core (s.handleRCPT cfg a (splitCommand line).2).1.core := by
  fun_cases handleRCPT cfg a s (splitCommand line).2 with
  | case5 p hparse _ rcptTo isBounce hresolve =>
    exact acceptRecipient_effect hcommand hparse hresolve
  | _ => exact .keep

theorem handleDATA_effect : Effect cfg a input s.core (s.handleDATA a).1.core := by
  fun_cases handleDATA a s with
  | case4 hrcpt hfits st hset => exact .data st hrcpt (eq_true_of_ne_false hfits) hset
  | _ => exact .keep

theorem handleQUIT_effect : Effect cfg a input s.core (s.handleQUIT cfg a).1.core := by
  cases hset : s.state.setPhase .quit with
  | none =>
    have hsame : (s.handleQUIT cfg a).1.core = s.core := by
      simp [handleQUIT, hset]
    rw [hsame]
    exact .keep
  | some st =>
    have hquit : (s.handleQUIT cfg a).1.core = { s.core with state := st } := by
      simp [handleQUIT, hset]
      rfl
    rw [hquit]
    exact .quit st hset

theorem handleSTARTTLS_effect (hidle : s.state.dataTransferMode ≠ .bdat) :
    Effect cfg a input s.core (s.handleSTARTTLS cfg a).1.core := by
  fun_cases handleSTARTTLS cfg a s with
  | case5 => exact .tls hidle
  | _ => exact .keep

/-! ## AUTH -/

def LogsIn (a : Answers) (c c' : Core) : Prop :=
  c' = c ∨ ∃ username password, a.authenticate username password = true ∧
    c' = { c with state := { c.state with authenticated := true, username := username } }

theorem performAuthentication_logsIn (username password : Bytes) :
    LogsIn a s.core (s.performAuthentication a username password).1.core := by
  fun_cases performAuthentication a s username password with
  | case3 _ _ h => exact .inr ⟨username, password, h, rfl⟩
  | _ => exact .inl rfl

theorem core_of_promptLine {t : Session} {i : Nat} {prompt sending reading : Bytes}
    {r : Except Bytes Bytes} (h : s.promptLine a i prompt sending reading = (r, t)) :
    t.core = s.core := by
  unfold promptLine at h
  dsimp only at h
  split at h
  · cases h
    rfl
  split at h
  · cases h
    rfl
  · cases h
    rfl

theorem authPlainWith_logsIn (data : Bytes) : LogsIn a s.core (s.authPlainWith a data).1.core := by
  unfold authPlainWith
  split
  · exact performAuthentication_logsIn _ _
  · exact .inl rfl

theorem handleAuthPlain_logsIn (parts : List Bytes) :
    LogsIn a s.core (s.handleAuthPlain a parts).1.core := by
  unfold handleAuthPlain
  split
  · exact authPlainWith_logsIn _
  · split
    · rename_i t hprompt
      rw [← core_of_promptLine hprompt]
      exact authPlainWith_logsIn _
    · rename_i t hprompt
      exact .inl (core_of_promptLine hprompt)
  · exact .inl rfl

theorem authLoginWith_logsIn (user : Bytes) : LogsIn a s.core (s.authLoginWith a user).1.core := by
  unfold authLoginWith
  split
  · exact .inl rfl
  split
  · rename_i t hprompt
    exact .inl (core_of_promptLine hprompt)
  rename_i t hprompt
  split
  · exact .inl (core_of_promptLine hprompt)
  · rw [← core_of_promptLine hprompt]
    exact performAuthentication_logsIn _ _

theorem authLoginPrompt_logsIn : LogsIn a s.core (s.authLoginPrompt a).1.core := by
  unfold authLoginPrompt
  split
  · rename_i t hprompt
    rw [← core_of_promptLine hprompt]
    exact authLoginWith_logsIn _
  · rename_i t hprompt
    exact .inl (core_of_promptLine hprompt)

theorem handleAuthLogin_logsIn (parts : List Bytes) :
    LogsIn a s.core (s.handleAuthLogin a parts).1.core := by
  fun_cases handleAuthLogin a s parts with
  | case1 | case3 => exact authLoginPrompt_logsIn
  | case2 => exact authLoginWith_logsIn _

theorem LogsIn.effect {c : Core} (h : LogsIn a { s.core with state :=
      { s.state with authAttempts := s.state.authAttempts + 1 } } c) :
    Effect cfg a input s.core c := by
  obtain rfl | ⟨username, password, hauth, rfl⟩ := h
  · exact .attempt
  · exact .login username password hauth

theorem runMechanism_effect (s : Session) (method : Bytes) (parts : List Bytes) :
    Effect cfg a input s.core (s.runMechanism a method parts).1.core := by
  unfold runMechanism
  dsimp only
  split
  · exact .attempt
  · split
    · exact LogsIn.effect (handleAuthPlain_logsIn _)
    · exact LogsIn.effect (handleAuthLogin_logsIn _)

theorem handleAUTH_effect : Effect cfg a input s.core (s.handleAUTH cfg a line).1.core := by
  fun_cases handleAUTH cfg a s line with
  | case6 _ machine => exact runMechanism_effect { s with auth := machine } _ _
  | _ => exact .keep

/-! ## Chunks -/

theorem full_of_readFull {r r' : Reader Fault} {n : Nat} {body : Bytes}
    (h : r.readFull readerSize n = (body, none, r')) : r.tape.full n = (body, none, r'.tape) := by
  have heq := Reader.readFull_eq readerSize n r
  rw [h] at heq
  exact heq.symm

def withChunk (s : Session) (reader : Reader Fault) (size : Int) (body : Bytes) : Session :=
  { s with
    reader := reader
    bdatSpool := some (s.bdatSpool.getD [] ++ body)
    bdatBytesReceived := wrap64 (s.bdatBytesReceived + size)
    bdatChunkCount := s.bdatChunkCount + 1 }

/-- What reading a chunk comes to: an error, the end of the session, or a longer spool. -/
theorem readBDATChunk_cases (size : Int) :
    (∃ e spool reader lost, s.readBDATChunk cfg a size =
      ({ s with bdatSpool := spool, reader := reader, dataSyncLost := lost }, some e)) ∨
    s.readBDATChunk cfg a size = (s.close, none) ∨
    (∃ body reader, wrap64 (s.bdatBytesReceived + size) ≤ cfg.maxSize ∧
      s.reader.tape.full size.toNat = (body, none, reader.tape) ∧
      s.readBDATChunk cfg a size = (s.withChunk reader size body, none)) := by
  unfold readBDATChunk
  split
  · obtain ⟨reader, lost, hdiscard⟩ := discardBDATChunk_form a s size
    rw [hdiscard]
    exact .inl ⟨_, _, reader, lost, rfl⟩
  rename_i hfits
  split
  · exact .inr (.inl rfl)
  split
  · exact .inl ⟨_, _, _, _, rfl⟩
  rename_i body reader hread
  unfold spoolChunk
  split
  · exact .inr (.inr ⟨body, reader, Int.not_lt.1 hfits, full_of_readFull hread, rfl⟩)
  · exact .inl ⟨_, _, _, _, rfl⟩

end Session

theorem processMessage_of_error {cfg : Config} {env : DeliveryEnv} {st st' : SessionState}
    {content e : Bytes} {s s' : Queue.Store}
    (h : processMessage cfg env st content s = (some e, st', s')) : st' = st ∧ s' = s := by
  revert h
  fun_cases processMessage cfg env st content s with
  | case3 _ scan =>
    fun_cases acceptScanned cfg env st content scan s with
    | case1 | case2 =>
      rintro ⟨⟩
      exact ⟨rfl, rfl⟩
    | case3 => nofun
  | _ =>
    simp only [Prod.mk.injEq]
    rintro ⟨-, rfl, rfl⟩
    exact ⟨rfl, rfl⟩

namespace Session

variable {cfg : Config} {a : Answers} {input : Option (Bytes × Tape Fault)}

variable {s : Session} {line : Bytes}

/-- The spooled message is accepted, or it leaves the session as it was. -/
theorem processSpool_cases (cfg : Config) (a : Answers) (s : Session) (content : Bytes) :
    (∃ e, s.processSpool cfg a content = (s, some e)) ∨
    (∃ st store, processMessage cfg a.delivery s.state content s.store = (none, st, store) ∧
      s.processSpool cfg a content = ({ s with state := st, store := store }, none)) := by
  unfold processSpool
  by_cases hreads : a.headReads = false
  · rw [if_pos hreads]
    exact .inl ⟨_, rfl⟩
  rw [if_neg hreads]
  rcases hres : processMessage cfg a.delivery s.state content s.store with ⟨e, st, store⟩
  cases e with
  | none => exact .inr ⟨st, store, rfl, rfl⟩
  | some e =>
    obtain ⟨rfl, rfl⟩ := processMessage_of_error hres
    exact .inl ⟨e, rfl⟩

/-- The end of a chunked message: the message is accepted, or the chunks are dropped. -/
theorem completeChunks_cases {content : Bytes} (hspool : s.bdatSpool = some content) :
    (∃ e, s.completeChunks cfg a = ({ s.resetBDAT with
      state := { s.state with dataSize := content.length, dataTransferMode := .none } }, some e)) ∨
    (∃ st store, processMessage cfg a.delivery { s.state with dataSize := content.length } content
        s.store = (none, st, store) ∧
      s.completeChunks cfg a =
        ({ (s.resetBDAT.write accepted) with state := st.reset, store := store }, none)) := by
  have hprocess : s.processBDATMessage cfg a = processSpool cfg a
      { s.resetBDAT with state := { s.state with dataSize := content.length } } content := by
    simp only [processBDATMessage, hspool, processSpool, resetBDAT]
  unfold completeChunks
  rw [hprocess]
  obtain ⟨e, hdone⟩ | ⟨st, store, hproc, hdone⟩ := processSpool_cases cfg a _ content
  · rw [hdone]
    exact .inl ⟨e, rfl⟩
  · rw [hdone]
    exact .inr ⟨st, store, hproc, rfl⟩

/-- What a chunk command comes to. A chunk that cannot be read or kept takes the chunks before it
with it, and one that finds no buffer the session. -/
inductive Transferred (cfg : Config) (a : Answers) (s : Session) (size : Int) :
    Bool → Outcome → Prop where
  | rejected {isLast : Bool} (e : Bytes) (reader : Reader Fault) (lost : Bool) :
    Transferred cfg a s size isLast ({ s with reader := reader, dataSyncLost := lost }, some e)
  | failed {isLast : Bool} (e : Bytes) (reader : Reader Fault) (lost : Bool)
    (takes : s.core.takesChunk) :
    Transferred cfg a s size isLast
      ({ s.resetBDAT with
        state := s.state.clearDataTransferMode, reader := reader, dataSyncLost := lost }, some e)
  | closed {isLast : Bool} (takes : s.core.takesChunk) :
    Transferred cfg a s size isLast (s.beginChunk.close, none)
  | spooled (body reply : Bytes) (reader : Reader Fault) (takes : s.core.takesChunk)
    (fits : wrap64 (s.bdatBytesReceived + size) ≤ cfg.maxSize)
    (read : s.reader.tape.full size.toNat = (body, none, reader.tape)) :
    Transferred cfg a s size false ((s.beginChunk.withChunk reader size body).write reply, none)
  | dropped (e : Bytes) (n : Nat) (reader : Reader Fault) (takes : s.core.takesChunk) :
    Transferred cfg a s size true
      ({ s.resetBDAT with
        state := { s.state with dataSize := n, dataTransferMode := .none }, reader := reader },
        some e)
  | delivered (body : Bytes) (st : SessionState) (store : Queue.Store)
    (reader : Reader Fault) (takes : s.core.takesChunk)
    (read : s.reader.tape.full size.toNat = (body, none, reader.tape))
    (processed : processMessage cfg a.delivery
      { s.state with
        dataSize := (s.core.withChunk body).length, dataTransferMode := .bdat }
      (s.core.withChunk body) s.store = (none, st, store)) :
    Transferred cfg a s size true
      ({ (s.resetBDAT.write accepted) with state := st.reset, store := store, reader := reader },
        none)

theorem transferred (cfg : Config) (a : Answers) (hlive : s.live = true) (size : Int)
    (isLast : Bool) : Transferred cfg a s size isLast (s.transferChunk cfg a size isLast) := by
  have hreject (e : Bytes) : Transferred cfg a s size isLast (s.rejectChunk a size e) := by
    obtain ⟨reader, lost, hdiscard⟩ := discardBDATChunk_form a s size
    rw [rejectChunk, hdiscard]
    exact .rejected e reader lost
  unfold transferChunk
  split
  · exact hreject _
  rename_i hrcpt
  split
  · exact hreject _
  rename_i hmode
  have htakes : s.core.takesChunk := ⟨hrcpt, eq_true_of_ne_false hmode⟩
  obtain ⟨e, spool, reader, lost, hres⟩ | hres | ⟨body, reader, hfits, hread, hres⟩ :=
    readBDATChunk_cases size
  · rw [hres]
    exact .failed e reader lost htakes
  · rw [hres]
    exact .closed htakes
  · have hlive' : (s.beginChunk.withChunk reader size body).live = true := hlive
    rw [hres]
    simp only [chunkRead, hlive', Bool.true_eq_false, if_false]
    cases isLast with
    | false => exact .spooled body _ reader htakes hfits hread
    | true =>
      obtain ⟨e, hdone⟩ | ⟨st, store, hproc, hdone⟩ := completeChunks_cases
        (rfl : (s.beginChunk.withChunk reader size body).bdatSpool = _)
      · rw [hdone]
        exact .dropped e _ reader htakes
      · rw [hdone]
        exact .delivered body st store reader htakes hread hproc

theorem transferChunk_effect (s : Session) (hlive : s.live = true) {size : Int} {isLast : Bool}
    (hcommand : ChunkCommand input s.state s.reader.tape size isLast) :
    Effect cfg a input s.core (s.transferChunk cfg a size isLast).1.core := by
  have h := transferred cfg a hlive size isLast
  generalize s.transferChunk cfg a size isLast = o at h ⊢
  cases h with
  | rejected => exact .keep
  | failed e reader lost takes => exact .dropChunks _ _ _ s.state.dataSize takes hcommand
  | closed takes => exact .begin _ _ _ takes hcommand
  | spooled body reply reader takes fits read => exact .chunk _ _ size body takes hcommand read
  | dropped e n reader takes => exact .dropChunks _ _ _ n takes hcommand
  | delivered body st store reader takes read processed =>
    exact .deliverChunks _ _ size body st store takes hcommand read processed

/-! ## Messages of the data phase -/

theorem readMessage_cases (cfg : Config) (a : Answers) (s : Session) :
    (∃ content reader, s.readMessage cfg a = (.ok content, { s with
      reader := reader, state := { s.state with dataSize := content.length } })) ∨
    (∃ e reader lost,
      s.readMessage cfg a = (.error e, { s with reader := reader, dataSyncLost := lost })) := by
  unfold readMessage
  split
  · exact .inl ⟨_, _, rfl⟩
  · exact .inr ⟨_, _, _, rfl⟩
  · exact .inr ⟨_, _, _, rfl⟩

theorem dataTurn_effect (hphase : s.state.phase = .data) :
    Effect cfg a input s.core (s.dataTurn cfg a).core := by
  unfold dataTurn handleDataPhase
  obtain ⟨content, reader, hread⟩ | ⟨e, reader, lost, hread⟩ := readMessage_cases cfg a s
  · rw [hread]
    dsimp only
    obtain ⟨e, hspool⟩ | ⟨st, store, hproc, hdone⟩ := processSpool_cases cfg a
      { s with reader := reader, state := { s.state with dataSize := content.length } } content
    · rw [hspool]
      dsimp only
      split
      · exact .loseData content.length hphase
      · exact .refuseData content.length hphase
    · rw [hdone]
      exact .deliverData content st store hphase hproc
  · rw [hread]
    dsimp only [refuse]
    split
    · exact .loseData s.state.dataSize hphase
    · exact .refuseData s.state.dataSize hphase

/-! ## The turn -/

theorem dispatch_effect (hlive : s.live = true) {cmd : Bytes}
    (hcommand : Command input s.state cmd line s.reader.tape) :
    Effect cfg a input s.core (s.dispatch cfg a line cmd (splitCommand line).2).1.core := by
  have hidle : SessionState.bdatCommands.contains (toUpper (trimSpace cmd)) = false →
      s.state.dataTransferMode ≠ .bdat :=
    SessionState.mode_ne_bdat_of_canAcceptCommand hcommand.allowed
  apply dispatch_cases (P := fun o => Effect cfg a input s.core o.1.core)
  case helo =>
    exact fun h => handleGreeting_effect s (hidle (by rw [h]; decide)) _ _ fun _ => rfl
  case ehlo =>
    exact fun h => handleGreeting_effect s (hidle (by rw [h]; decide)) _ _ fun _ => rfl
  case mail => exact fun h => handleMAIL_effect (h ▸ hcommand)
  case rcpt => exact fun h => handleRCPT_effect (h ▸ hcommand)
  case data => exact handleDATA_effect
  case bdat =>
    intro h
    unfold handleBDAT
    split
    · exact .keep
    · rename_i size isLast hparse
      exact transferChunk_effect s hlive ⟨line, h ▸ hcommand, hparse⟩
  case rset => exact .reset
  case quit => exact handleQUIT_effect
  case auth => exact fun _ => handleAUTH_effect
  case starttls => exact fun h => handleSTARTTLS_effect (hidle (by rw [h]; decide))
  case xdebug =>
    unfold handleXDEBUG
    split <;> exact .keep
  all_goals exact .keep

theorem valid_of_validateCommand {parseIP : Bytes → Option IpFamily} {memoryOk : Bool}
    (h : Validator.validateCommand parseIP memoryOk line = none) : Utf8.valid line = true := by
  have htext := (Option.or_eq_none_iff.1 (Option.or_eq_none_iff.1 h).1).1
  have hvalid := (Option.or_eq_none_iff.1 htext).2
  unfold Validator.validateUTF8 at hvalid
  split at hvalid
  · assumption
  · simp at hvalid

/-- A line is refused before it is dispatched, or its handler gets it. -/
theorem processCommand_cases (cfg : Config) (a : Answers) (s : Session) (line : Bytes) :
    (∃ e reader lost, s.processCommand cfg a line =
      ({ s with reader := reader, dataSyncLost := lost }, some e)) ∨
    (Validator.validateCommand cfg.parseIP a.commandMemoryOk line = none ∧
      s.state.canAcceptCommand (splitCommand line).1 = true ∧
      s.processCommand cfg a line =
        s.dispatch cfg a line (splitCommand line).1 (splitCommand line).2) := by
  unfold processCommand
  split
  · exact .inl ⟨_, _, _, rfl⟩
  rename_i hvalid
  unfold processParsed
  split
  · split
    · obtain ⟨reader, lost, hdiscard⟩ := discardRefusedBDAT_form a s (splitCommand line).2
      rw [hdiscard]
      exact .inl ⟨_, reader, lost, rfl⟩
    · exact .inl ⟨_, _, _, rfl⟩
  · rename_i hallowed
    exact .inr ⟨hvalid, eq_true_of_ne_false hallowed, rfl⟩

theorem processCommand_effect (s : Session) (hlive : s.live = true)
    (hinput : input = some (line, s.reader.tape)) :
    Effect cfg a input s.core (s.processCommand cfg a line).1.core := by
  obtain ⟨e, reader, lost, hres⟩ | ⟨hvalid, hallowed, hres⟩ := processCommand_cases cfg a s line
  · rw [hres]
    exact .keep
  · rw [hres]
    exact dispatch_effect hlive ⟨hinput, valid_of_validateCommand hvalid, rfl, hallowed⟩

theorem turn_effect (cfg : Config) (s : Session) (a : Answers) :
    Effect cfg a s.heard s.core (turn cfg s a).core := by
  apply turn_cases (P := fun t => Effect cfg a s.heard s.core t.core)
  case same => exact .keep
  case closed => exact fun _ _ => .keep
  case data => exact dataTurn_effect
  case command =>
    intro line r hattends hheard
    rw [core_finish]
    exact processCommand_effect { s with reader := r } (live_of_attends hattends) hheard

end Session

end Elemta.Smtp

import Elemta.Smtp.ChunkTotals
import Elemta.Smtp.CommandChecks
import Elemta.Smtp.Transparency

/-!
# The size limit of the two transfers

One limit is announced for the server, and a message may be sent as DATA or in chunks. The
chunks are counted as they are, whatever the division, so the limit is one on the length of
the message. DATA counts the octets on the wire: the periods that were added and the line
that ends the message take part in the sum.
-/

namespace Elemta.Smtp

open Bytes BufferedReader

/-! ## Lines of BDAT -/

def chunkArguments (n : Nat) (isLast : Bool) : Bytes :=
  if isLast then itoa n ++ 32 :: lit "LAST" else itoa n

def chunkLine (n : Nat) (isLast : Bool) : Bytes :=
  Validator.commandLine (lit "BDAT") (chunkArguments n isLast)

theorem isAlnum_of_mem_itoa {n : Nat} {b : UInt8} (h : b ∈ itoa n) : isAlnum b = true := by
  rw [isAlnum, isDigit_of_mem_itoa h, Bool.or_true]

theorem Validator.blockedInCommand_itoa (n : Nat) : blockedInCommand (itoa n) = false := by
  -- every pattern has a character that is no digit
  have hwords : ∀ w ∈ sqlWords ++ scriptWords, ∃ b ∈ w, isDigit b = false := by decide
  have hchars : ∀ b : UInt8, isDigit b = true →
      isDigit (lowerByte b) = true ∧ b ≤ 127 ∧ b ∉ lit ";&|\x60$" ∧ controlChar b = false ∧
        b ≠ 46 := by
    have hmarks : ∀ b ∈ lit ";&|\x60$", isDigit b = false := forall_of_all (by decide)
    intro b hb
    refine ⟨?_, ?_, fun hmark => by simp [hmarks b hmark] at hb, ?_, fun hdot => ?_⟩
    all_goals unfold isDigit at *
    · unfold lowerByte
      grind
    · grind
    · unfold controlChar
      grind
    · grind
  have hdigits : ∀ b ∈ itoa n, isDigit b = true := fun b => isDigit_of_mem_itoa
  generalize itoa n = s at hdigits
  have hdot {q : Bytes} (hq : 46 ∈ q) : ¬ q <:+: s := fun hfound =>
    (hchars 46 (hdigits 46 (hfound.subset hq))).2.2.2.2 rfl
  refine blockedInCommand_eq_false_iff.2 ⟨fun w hw hfound => ?_, fun b hb => ?_, ?_, ?_⟩
  · obtain ⟨b, hb, hno⟩ := hwords w hw
    rw [foldCase_of_ascii fun b hb => (hchars b (hdigits b hb)).2.1] at hfound
    obtain ⟨d, hd, rfl⟩ := List.mem_map.1 (hfound.subset hb)
    rw [(hchars d (hdigits d hd)).1] at hno
    cases hno
  · exact ⟨(hchars b (hdigits b hb)).2.2.1, (hchars b (hdigits b hb)).2.2.2.1⟩
  · exact hdot (by decide)
  · exact hdot (by decide)

section ChunkLine

variable (n : Nat) (isLast : Bool)

theorem chunkArguments_ne_nil : chunkArguments n isLast ≠ [] := by
  unfold chunkArguments
  split
  · simp
  · exact itoa_ne_nil

variable {b : UInt8}

theorem mem_chunkArguments (h : b ∈ chunkArguments n isLast) : isAlnum b = true ∨ b = 32 := by
  unfold chunkArguments at h
  split at h
  · rcases List.mem_append.1 h with h | h
    · exact .inl (isAlnum_of_mem_itoa h)
    · rcases List.mem_cons.1 h with rfl | h
      · exact .inr rfl
      · have hword : ∀ b ∈ lit "LAST", isAlnum b = true := forall_of_all (by decide)
        exact .inl (hword b h)
  · exact .inl (isAlnum_of_mem_itoa h)

theorem chunkArguments_head (h : b ∈ (chunkArguments n isLast).head?) : Solid b := by
  have hhead : (chunkArguments n isLast).head? = (itoa n).head? := by
    obtain ⟨d, r, hcons⟩ := List.exists_cons_of_ne_nil (itoa_ne_nil)
    rw [chunkArguments, hcons]
    split <;> rfl
  rw [hhead] at h
  exact (Validator.isAlnum_spec (isAlnum_of_mem_itoa (List.mem_of_mem_head? h))).1

theorem chunkArguments_last (h : b ∈ (chunkArguments n isLast).getLast?) : Solid b := by
  unfold chunkArguments at h
  split at h
  · have hsolid : Solid 84 := by decide
    have hlast : (itoa n ++ 32 :: lit "LAST").getLast? = some 84 := by
      rw [List.getLast?_append]
      rfl
    rw [hlast] at h
    cases h
    exact hsolid
  · exact (Validator.isAlnum_spec (isAlnum_of_mem_itoa (List.mem_of_mem_getLast? h))).1

theorem collapseSpace_chunkArguments :
    Validator.collapseSpace false (chunkArguments n isLast) = chunkArguments n isLast := by
  have hplain : ∀ b ∈ itoa n, Validator.regexSpace b = false := fun b hb =>
    (Validator.isAlnum_spec (isAlnum_of_mem_itoa hb)).2.1
  have hnumber := Validator.collapseSpace_plain hplain (itoa_ne_nil) false
  have hword : Validator.collapseSpace false (32 :: lit "LAST") = 32 :: lit "LAST" := by decide
  unfold chunkArguments
  split
  · rw [hnumber, hword]
  · have hwhole := hnumber []
    rwa [List.append_nil, Validator.collapseSpace, List.append_nil] at hwhole

theorem blockedInCommand_chunkArguments :
    Validator.blockedInCommand (chunkArguments n isLast) = false := by
  have hascii : ∀ b ∈ chunkArguments n true, b ≤ 127 := by
    intro b hb
    rcases mem_chunkArguments n true hb with hb | rfl
    · exact (Validator.isAlnum_spec hb).2.2.1
    · decide
  have hnumber := Validator.blockedInCommand_itoa n
  have hword : Validator.blockedInCommand (lit "LAST") = false := by decide +kernel
  cases isLast with
  | true => exact Validator.blockedInCommand_blank hascii hnumber hword
  | false => exact hnumber

variable {n}

theorem length_chunkArguments_le (hn : n < 2 ^ 63) : (chunkArguments n isLast).length ≤ 24 := by
  have hnumber : (itoa n).length ≤ 19 := length_itoa_le (by decide) (Nat.lt_trans hn (by decide))
  have hword : (32 :: lit "LAST").length = 5 := by decide
  unfold chunkArguments
  split
  · rw [List.length_append]
    omega
  · omega

theorem parseBDAT_chunkArguments (hn : n < 2 ^ 63) :
    Session.parseBDAT (chunkArguments n isLast) = .ok (n, isLast) := by
  have hnumber := parseInt64_itoa hn
  have hsolid : ∀ b ∈ itoa n, Solid b := fun b hb =>
    (Validator.isAlnum_spec (isAlnum_of_mem_itoa hb)).1
  have hsign : ¬ ((n : Int) < 0) := by omega
  cases isLast with
  | true =>
    have hfields : fields (chunkArguments n true) = [itoa n, lit "LAST"] := by
      have hrest : fields (lit "LAST") = [lit "LAST"] := by decide +kernel
      rw [chunkArguments, if_pos rfl, fields_word hsolid (itoa_ne_nil), hrest]
    have hfold : equalFold (lit "LAST") (lit "LAST") = true := by decide
    simp [Session.parseBDAT, hfields, hnumber, hsign, hfold]
  | false =>
    have hfields : fields (chunkArguments n false) = [itoa n] :=
      fields_solid hsolid (itoa_ne_nil)
    simp [Session.parseBDAT, hfields, hnumber, hsign]

theorem splitCommand_chunkLine :
    splitCommand (chunkLine n isLast) = (lit "BDAT", chunkArguments n isLast) :=
  Validator.splitCommand_commandLine (forall_of_all (by decide)) (by decide)
    (chunkArguments_ne_nil n isLast) (fun _ => chunkArguments_head n isLast)
    fun _ => chunkArguments_last n isLast

theorem validateCommand_chunkLine {parseIP : Bytes → Option IpFamily} (hn : n < 2 ^ 63) :
    Validator.validateCommand parseIP true (chunkLine n isLast) = none := by
  have hall : (chunkArguments n isLast).all Validator.parameterChar = true := by
    refine List.all_eq_true.2 fun b hb => ?_
    rcases mem_chunkArguments n isLast hb with hb | rfl
    · simp [Validator.parameterChar, hb]
    · decide
  refine Validator.validateCommand_of_rule (by decide) (by decide) (chunkArguments_ne_nil n isLast)
    (fun _ => chunkArguments_head n isLast) (fun _ => chunkArguments_last n isLast)
    ((length_chunkArguments_le isLast hn).trans (by decide)) hall
    (blockedInCommand_chunkArguments n isLast) ?_
  rw [collapseSpace_chunkArguments, Validator.validateCommandParameters,
    if_neg (chunkArguments_ne_nil n isLast), hall, if_neg (by decide), if_neg (by decide),
    if_neg (by decide), if_neg (by decide), if_neg (by decide), if_neg (by decide)]

theorem crlfLine_chunkLine : CrlfLine (chunkLine n isLast) := by
  refine ⟨lit "BDAT" ++ 32 :: chunkArguments n isLast, fun hmem => ?_, ?_⟩
  · have hname : 10 ∉ lit "BDAT" := by decide
    rcases List.mem_append.1 hmem with h | h
    · exact hname h
    rcases List.mem_cons.1 h with h | h
    · cases h
    · rcases mem_chunkArguments n isLast h with h | h
      · cases h
      · cases h
  · have hcrlf : lit "\r\n" = [13, 10] := by decide
    rw [chunkLine, Validator.commandLine, hcrlf]

end ChunkLine

/-! ## One chunk -/

namespace Session

structure Answers.TakesChunks (a : Answers) : Prop where
  goesOn : a.stop = false
  flushes : a.flushes = true
  memory : a.commandMemoryOk = true
  allocates : ∀ n, a.allocates n = true
  writes : a.spoolWrites 0 = true

structure AwaitsChunk (s : Session) : Prop where
  live : s.live = true
  takes : s.core.takesChunk

variable {cfg : Config} {a : Answers} {s : Session}

theorem AwaitsChunk.phase (h : s.AwaitsChunk) : s.state.phase = .rcpt :=
  h.takes.phase

theorem AwaitsChunk.canAcceptCommand (h : s.AwaitsChunk) :
    s.state.canAcceptCommand (lit "BDAT") = true := by
  have hupper : toUpper (trimSpace (lit "BDAT")) = lit "BDAT" := by decide +kernel
  simp only [SessionState.canAcceptCommand, hupper, h.phase]
  split
  · decide
  · decide

variable {body : Bytes} {n : Nat} {rest : Tape Fault}

variable {isLast : Bool}

theorem boundedLine_chunkLine (hn : n < 2 ^ 63)
    (htape : s.reader.tape = Tape.ofBytes (chunkLine n isLast) ++ rest) :
    ∃ r, s.reader.boundedLine readerSize commandLineLimit = (.text (chunkLine n isLast) none, r) ∧
      r.tape = rest := by
  refine Reader.boundedLine_of_line (by decide)
    (by rw [htape, (crlfLine_chunkLine isLast).line_tape]) ?_
  have hlength := length_chunkArguments_le isLast hn
  have hsize : (lit "BDAT").length = 4 ∧ (lit "\r\n").length = 2 := by decide
  simp only [chunkLine, Validator.commandLine, List.length_append, List.length_cons, hsize,
    commandLineLimit]
  omega

theorem transferChunk_of_takes (cfg : Config) (a : Answers) (h : s.core.takesChunk) (size : Int)
    (isLast : Bool) : s.transferChunk cfg a size isLast =
      chunkRead cfg a size isLast (s.beginChunk.readBDATChunk cfg a size) := by
  have hrcpt : s.state.rcptTo ≠ [] := h.1
  have hmode : s.state.canAcceptDataCommand .bdat = true := h.2
  rw [transferChunk, if_neg hrcpt, if_neg (by simp [hmode])]

theorem turn_chunkLine (ha : Answers.TakesChunks a) (hs : s.AwaitsChunk)
    (hn : n < 2 ^ 63) (htape : s.reader.tape = Tape.ofBytes (chunkLine n isLast) ++ rest) :
    ∃ r : Reader Fault, r.tape = rest ∧ s.turn cfg a =
      finish a (chunkRead cfg a n isLast (({ s with reader := r }).beginChunk.readBDATChunk cfg a n)) := by
  obtain ⟨r, hline, hrest⟩ := boundedLine_chunkLine hn htape
  refine ⟨r, hrest, ?_⟩
  have hattends : s.attends a = true := by
    simp [attends, hs.live, ha.goesOn, hs.phase]
  have hprocess : processCommand cfg a { s with reader := r } (chunkLine n isLast) =
      transferChunk cfg a { s with reader := r } n isLast := by
    simp only [processCommand, ha.memory, validateCommand_chunkLine isLast hn,
      splitCommand_chunkLine, processParsed, hs.canAcceptCommand, dispatch_named, handleBDAT,
      parseBDAT_chunkArguments isLast hn]
    rfl
  rw [turn_of_attends hattends, commandTurn, hline]
  dsimp only
  rw [hprocess]
  exact congrArg (finish a) (transferChunk_of_takes (s := { s with reader := r }) cfg a hs.takes n isLast)

theorem received_chunkLine (cfg : Config) (ha : Answers.TakesChunks a) (hs : s.AwaitsChunk)
    (hn : n < 2 ^ 63) (htape : s.reader.tape = Tape.ofBytes (chunkLine n true) ++ rest) :
    ∃ r : Reader Fault, r.tape = rest ∧
      s.received cfg a = ({ s with reader := r }).chunkMessage cfg a n := by
  obtain ⟨r, hline, hrest⟩ := boundedLine_chunkLine hn htape
  refine ⟨r, hrest, ?_⟩
  have hopen : ¬ (s.live = false ∨ a.stop = true) := by
    simp [hs.live, ha.goesOn]
  have hphase : s.state.phase ≠ .data := by
    simp [hs.phase]
  rw [received, if_neg hopen, if_neg hphase, hline]
  simp only [commandMessage, ha.memory, validateCommand_chunkLine true hn,
    splitCommand_chunkLine, hs.canAcceptCommand, parseBDAT_chunkArguments true hn]
  simp

/-- A chunk that is on the tape is taken when its sum is within the limit. Otherwise it is skipped,
or the position in the stream is given up. -/
theorem readBDATChunk_body (cfg : Config) (ha : Answers.TakesChunks a)
    (htape : s.reader.tape = Tape.ofBytes body ++ rest) :
    (wrap64 (s.bdatBytesReceived + body.length) ≤ cfg.maxSize ∧ ∃ r : Reader Fault, r.tape = rest ∧
      s.readBDATChunk cfg a body.length = (s.withChunk r body.length body, none)) ∨
    (cfg.maxSize < wrap64 (s.bdatBytesReceived + body.length) ∧
      ∃ (r : Reader Fault) (lost : Bool) (e : Bytes), (lost = true ∨ r.tape = rest) ∧
        s.readBDATChunk cfg a body.length =
          ({ s with reader := r, dataSyncLost := lost }, some e)) := by
  obtain ⟨r, hread, hrest⟩ := Reader.readFull_of_tape readerSize htape
  have hnat : (body.length : Int).toNat = body.length := Int.toNat_natCast _
  unfold readBDATChunk
  by_cases hfits : cfg.maxSize < wrap64 (s.bdatBytesReceived + body.length)
  · refine .inr ⟨hfits, ?_⟩
    rw [if_pos hfits]
    unfold discardBDATChunk
    split
    · -- an empty chunk has nothing to skip
      obtain rfl : body = [] := List.length_eq_zero_iff.1 (by omega)
      exact ⟨s.reader, s.dataSyncLost, _, .inr htape, rfl⟩
    split
    · exact ⟨s.reader, true, _, .inl rfl, rfl⟩
    split
    · exact ⟨s.reader, true, _, .inl rfl, rfl⟩
    · rw [hnat, hread]
      exact ⟨r, s.dataSyncLost, _, .inr hrest, rfl⟩
  · refine .inl ⟨Int.not_lt.1 hfits, r, hrest, ?_⟩
    rw [if_neg hfits, hnat, ha.allocates, if_neg (by decide), hread]
    simp only [spoolChunk, ha.writes, if_true, withChunk]

theorem chunkRead_more (size : Int) (hlive : s.live = true) :
    chunkRead cfg a size false (s, none) =
      (s.write (lit "250 2.0.0 " ++ itoa size.toNat ++ lit " bytes received"), none) := by
  simp [chunkRead, hlive]

theorem chunkRead_refused (size : Int) (e : Bytes) :
    chunkRead cfg a size isLast (s, some e) =
      ({ s.resetBDAT with state := s.state.clearDataTransferMode }, some e) :=
  rfl

theorem endTurn_of_flushes (hflushes : a.flushes = true) (hphase : s.state.phase = .rcpt) :
    s.endTurn a = s := by
  simp [endTurn, hphase, hflushes]

theorem finish_refused (hflushes : a.flushes = true) (hphase : s.state.phase = .rcpt)
    (hsync : s.dataSyncLost = false) (e : Bytes) :
    finish a (s, some e) = s.write (errorReply e) := by
  have hwritten : (s.write (errorReply e)).dataSyncLost = false := hsync
  simp only [finish, hwritten]
  exact endTurn_of_flushes hflushes hphase

/-- One chunk of many: it is held, or it is not and the session ends or waits for another. -/
theorem turn_chunk (ha : Answers.TakesChunks a) (hs : s.AwaitsChunk)
    (hlength : body.length < 2 ^ 63)
    (htape : s.reader.tape = Tape.ofBytes (chunkLine body.length false ++ body) ++ rest) :
    (wrap64 (s.bdatBytesReceived + body.length) ≤ cfg.maxSize ∧
      (s.turn cfg a).bdatSpool = some (s.bdatSpool.getD [] ++ body) ∧
      (s.turn cfg a).AwaitsChunk ∧ (s.turn cfg a).reader.tape = rest) ∨
    (cfg.maxSize < wrap64 (s.bdatBytesReceived + body.length) ∧
      ((s.turn cfg a).live = false ∨ (s.turn cfg a).bdatSpool = none ∧
        (s.turn cfg a).AwaitsChunk ∧ (s.turn cfg a).reader.tape = rest)) := by
  rw [Tape.ofBytes_append, List.append_assoc] at htape
  obtain ⟨r, hrest, hturn⟩ := turn_chunkLine ha hs hlength htape
  have htakes {mode : DataTransferMode} (hmode : mode = .bdat ∨ mode = .none) {c : Core}
      (hc : c.state = { s.state with dataTransferMode := mode }) : c.takesChunk := by
    refine ⟨by rw [hc]; exact hs.takes.1, ?_⟩
    rcases hmode with rfl | rfl <;> simp [hc, SessionState.canAcceptDataCommand, hs.phase]
  have hbody : ({ s with reader := r } : Session).beginChunk.reader.tape =
      Tape.ofBytes body ++ rest := hrest
  rcases readBDATChunk_body cfg ha hbody with
    ⟨hfits, r', hrest', hread⟩ | ⟨hover, r', lost, e, hpos, hread⟩
  · refine .inl ⟨hfits, ?_⟩
    rw [hread, chunkRead_more] at hturn
    · have hdone := hturn.trans ((if_pos hs.live).trans (endTurn_of_flushes ha.flushes hs.phase))
      rw [hdone]
      exact ⟨rfl, ⟨hs.live, htakes (.inl rfl) rfl⟩, hrest'⟩
    · exact hs.live
  · refine .inr ⟨hover, ?_⟩
    rw [hread, chunkRead_refused] at hturn
    cases lost with
    | true =>
      refine .inl ?_
      rw [hturn]
      rfl
    | false =>
      rw [finish_refused ha.flushes] at hturn
      · rw [hturn]
        refine .inr ⟨rfl, ⟨hs.live, htakes (.inr rfl) rfl⟩, ?_⟩
        exact hpos.resolve_left (by decide)
      · exact hs.phase
      · rfl

/-! ## A message in chunks -/

def chunked : List Bytes → Bytes
  | [] => []
  | [body] => chunkLine body.length true ++ body
  | body :: rest => chunkLine body.length false ++ body ++ chunked rest

def assembled (cfg : Config) : Session → List Answers → Option Bytes
  | _, [] => none
  | s, [a] => s.received cfg a
  | s, a :: rest => assembled cfg (s.turn cfg a) rest

theorem assembled_of_closed (answers : List Answers) (h : s.live = false) :
    s.assembled cfg answers = none := by
  have hturn (a : Answers) : s.turn cfg a = s := by
    rw [turn, if_pos h]
  induction answers with
  | nil => rfl
  | cons a rest ih =>
    cases rest with
    | nil => rw [assembled, received, if_pos (.inl h)]
    | cons b rest => rw [assembled, hturn, ih]; simp

/-- The last chunk completes the message when its sum is within the limit. -/
theorem received_chunk (ha : Answers.TakesChunks a) (hs : s.AwaitsChunk)
    (hlength : body.length < 2 ^ 63)
    (htape : s.reader.tape = Tape.ofBytes (chunkLine body.length true ++ body) ++ rest) :
    s.received cfg a =
      if wrap64 (s.bdatBytesReceived + body.length) ≤ cfg.maxSize then
        some (s.bdatSpool.getD [] ++ body)
      else none := by
  rw [Tape.ofBytes_append, List.append_assoc] at htape
  obtain ⟨r, hrest, hreceived⟩ := received_chunkLine cfg ha hs hlength htape
  have htakes : ¬ (s.state.rcptTo = [] ∨ s.state.canAcceptDataCommand .bdat = false) := by
    have hmode : s.state.canAcceptDataCommand .bdat = true := hs.takes.2
    rintro (hnone | hmode')
    · exact hs.takes.1 hnone
    · rw [hmode] at hmode'
      cases hmode'
  rw [hreceived, chunkMessage, if_neg htakes]
  have hbody : ({ s with reader := r } : Session).beginChunk.reader.tape =
      Tape.ofBytes body ++ rest := hrest
  rcases readBDATChunk_body cfg ha hbody with
    ⟨hfits, r', -, hread⟩ | ⟨hover, r', lost, e, -, hread⟩
  · have hwithin : wrap64 (s.bdatBytesReceived + body.length) ≤ cfg.maxSize := hfits
    rw [hread, if_pos hwithin]
    exact if_pos hs.live
  · have hbeyond : cfg.maxSize < wrap64 (s.bdatBytesReceived + body.length) := hover
    rw [hread, if_neg (Int.not_le.2 hbeyond)]

section Division

variable {rest : Tape Fault} {answers : List Answers} {chunks : List Bytes}

/-- Chunks whose sum is within the limit come out as they went in, and nothing over the limit comes
out. -/
theorem assembled_within (cfg : Config) (hne : chunks ≠ [])
    (ha : ∀ a ∈ answers, Answers.TakesChunks a) (hlen : answers.length = chunks.length)
    (hs : s.AwaitsChunk) (hcount : s.bdatBytesReceived = wrap64 (s.bdatSpool.getD []).length)
    (htape : s.reader.tape = Tape.ofBytes (chunked chunks) ++ rest)
    (hsmall : (s.bdatSpool.getD []).length + chunks.flatten.length < 2 ^ 63) :
    ((((s.bdatSpool.getD []).length + chunks.flatten.length : Nat) : Int) ≤ cfg.maxSize →
      s.assembled cfg answers = some (s.bdatSpool.getD [] ++ chunks.flatten)) ∧
    ∀ content, s.assembled cfg answers = some content → (content.length : Int) ≤ cfg.maxSize := by
  induction chunks generalizing s answers with
  | nil => exact absurd rfl hne
  | cons body more ih =>
    obtain ⟨a, answers, rfl⟩ := List.exists_cons_of_length_eq_add_one hlen
    have ha₀ := ha a (List.mem_cons_self ..)
    rw [List.flatten_cons, List.length_append] at hsmall ⊢
    -- the sum of what is held and this chunk is exact
    have hsum : wrap64 (s.bdatBytesReceived + body.length) =
        (((s.bdatSpool.getD []).length + body.length : Nat) : Int) := by
      rw [hcount, wrap64_add]
      exact wrap64_of_lt (by omega) (by omega)
    cases more with
    | nil =>
      obtain rfl : answers = [] := List.length_eq_zero_iff.1 (by simpa using hlen)
      rw [assembled, received_chunk ha₀ hs (by omega) htape, hsum]
      refine ⟨fun hfits => ?_, fun content h => ?_⟩
      · rw [if_pos (by simpa using hfits)]
        simp
      · split at h
        · cases h
          rwa [List.length_append]
        · cases h
    | cons next more =>
      obtain ⟨b, answers, rfl⟩ := List.exists_cons_of_length_eq_add_one (Nat.succ.inj hlen)
      have hrest (hs' : (s.turn cfg a).AwaitsChunk) := ih (by simp)
        (fun c hc => ha c (List.mem_cons_of_mem a hc)) (Nat.succ.inj hlen) hs' (turn_counts hcount)
      rw [chunked, Tape.ofBytes_append, List.append_assoc] at htape
      · rw [assembled]
        · rcases turn_chunk ha₀ hs (by omega) htape with
            ⟨-, hspool, hs', htape'⟩ | ⟨hover, hclosed | ⟨hspool, hs', htape'⟩⟩
          · obtain ⟨hall, hlimit⟩ := hrest hs' htape'
              (by rw [hspool, Option.getD_some, List.length_append]; omega)
            rw [hspool, Option.getD_some, List.length_append, List.append_assoc] at hall
            refine ⟨fun hfits => hall ?_, hlimit⟩
            rwa [Nat.add_assoc]
          · refine ⟨fun hfits => by omega, fun content h => ?_⟩
            rw [assembled_of_closed _ hclosed] at h
            cases h
          · refine ⟨fun hfits => by omega, (hrest hs' htape' ?_).2⟩
            rw [hspool, Option.getD_none, List.length_nil]
            omega
        · simp
      · simp

end Division

/-! ## Both transfers -/

/-- The message is next on the wire of a session in the data phase, and nothing but its size speaks
against it. -/
structure SendsData (cfg : Config) (a : Answers) (s : Session) (lines : List Bytes) : Prop where
  live : s.live = true
  goesOn : a.stop = false
  flushes : a.flushes = true
  phase : s.state.phase = .data
  ready : Answers.Ready a
  crlf : ∀ line ∈ lines, CrlfLine line
  short : ∀ line ∈ lines, (stuffLine line).length ≤ dataLineLimit
  content : contentPasses cfg a true lines = true
  wire : ∃ rest, s.reader.tape = Tape.ofBytes (dotStuff lines) ++ rest

/-- The chunks are next on the wire of a session that has taken none yet, and each has its turn. -/
structure SendsChunks (answers : List Answers) (s : Session) (chunks : List Bytes) : Prop where
  awaits : s.AwaitsChunk
  fresh : s.bdatSpool = none ∧ s.bdatBytesReceived = 0
  some : chunks ≠ []
  turns : answers.length = chunks.length
  takes : ∀ a ∈ answers, Answers.TakesChunks a
  wire : ∃ rest, s.reader.tape = Tape.ofBytes (chunked chunks) ++ rest

/-- DATA accepts a message when the octets on the wire are within the limit. -/
theorem received_dotStuff {lines : List Bytes} (h : SendsData cfg a s lines) :
    s.received cfg a = some lines.flatten ↔ ((dotStuff lines).length : Int) ≤ cfg.maxSize := by
  obtain ⟨rest, htape⟩ := h.wire
  have hopen : ¬ (s.live = false ∨ a.stop = true) := by
    simp [h.live, h.goesOn]
  rw [received, if_neg hopen, if_pos h.phase, if_pos h.flushes, readMessage]
  rcases readData_dotStuff h.ready h.crlf h.short h.content htape with
    ⟨hfits, r, hread, -⟩ | ⟨hover, r, hread⟩
  · simp [hread, hfits]
  · simp only [hread]
    refine iff_of_false (fun heq => ?_) (Int.not_le.2 hover)
    cases heq

/-- Chunks are accepted when the length of the message is within the limit. For DATA this is so
exactly when it is not the stuffing and the end of the data that take it over the limit. -/
theorem size_limits_agree (cfg : Config) (content : Bytes) (hlength : content.length < 2 ^ 63) :
    (∀ a s lines, SendsData cfg a s lines → lines.flatten = content →
      ((s.received cfg a = some content ↔ (content.length : Int) ≤ cfg.maxSize) ↔
        ((dotStuff lines).length : Int) ≤ cfg.maxSize ∨ cfg.maxSize < content.length)) ∧
    (∀ answers s chunks, SendsChunks answers s chunks → chunks.flatten = content →
      (s.assembled cfg answers = some content ↔ (content.length : Int) ≤ cfg.maxSize)) := by
  constructor
  · rintro a s lines hsends rfl
    have hmore := length_flatten_le_dotStuff lines
    rw [received_dotStuff hsends]
    omega
  · rintro answers s chunks hsends rfl
    obtain ⟨rest, htape⟩ := hsends.wire
    obtain ⟨hspool, hnone⟩ := hsends.fresh
    have hheld : s.bdatSpool.getD [] = [] := by rw [hspool]; rfl
    have hcount : s.bdatBytesReceived = wrap64 (s.bdatSpool.getD []).length := by
      rw [hnone, hheld]
      rfl
    have hwithin := assembled_within cfg hsends.some hsends.takes hsends.turns hsends.awaits hcount
      htape
    rw [hheld, List.length_nil, Nat.zero_add] at hwithin
    exact ⟨(hwithin hlength).2 _, (hwithin hlength).1⟩

end Session

def sevenServer : Config :=
  { Config.plain none with maxSize := 7 }

def behindEnvelope (more : Nat) (wire : Bytes) : Session :=
  Session.run sevenServer
    (Session.start sevenServer 0
      (arrives (lit "EHLO c.example\r\nMAIL FROM:<a@c.example>\r\nRCPT TO:<b@here.example>\r\n" ++ wire))
      .empty)
    (List.replicate (3 + more) (.calm 0 (lit "m1")))

theorem size_limits_agree_two :
    (behindEnvelope 1 (lit "DATA\r\n" ++ dotStuff [lit "a\r\n"])).received sevenServer
        (.calm 0 (lit "m1")) = some (lit "a\r\n") ∧
      (behindEnvelope 0 (Session.chunked [lit "a", lit "\r\n"])).assembled sevenServer
        (List.replicate 2 (.calm 0 (lit "m1"))) = some (lit "a\r\n") := by
  obtain ⟨hdata, hchunks⟩ := Session.size_limits_agree sevenServer (lit "a\r\n") (by decide)
  constructor
  · refine ((hdata _ _ [lit "a\r\n"] ⟨by decide +kernel, rfl, rfl, by decide +kernel,
      ⟨rfl, rfl, fun _ => rfl, fun _ => rfl⟩, ?_, by decide +kernel, by decide +kernel, [],
      by decide +kernel⟩ (by decide)).2 (.inl (by decide +kernel))).2 (by decide +kernel)
    intro line hline
    obtain rfl := List.mem_singleton.1 hline
    exact ⟨lit "a", by decide, by decide⟩
  · refine (hchunks _ _ [lit "a", lit "\r\n"] ⟨⟨by decide +kernel, by decide +kernel,
      by decide +kernel⟩, by decide +kernel, by decide, rfl, ?_, [], by decide +kernel⟩
      (by decide)).2 (by decide +kernel)
    intro a hcalm
    obtain rfl := List.eq_of_mem_replicate hcalm
    exact ⟨rfl, rfl, rfl, fun _ => rfl, rfl⟩

/-- Five octets are within the limit of seven: they are taken as chunks and refused as DATA, with
the three octets that end the message. -/
theorem five_octets_refused :
    ((lit "abc\r\n").length : Int) ≤ sevenServer.maxSize ∧
      (behindEnvelope 0 (Session.chunked [lit "abc", lit "\r\n"])).assembled sevenServer
        (List.replicate 2 (.calm 0 (lit "m1"))) = some (lit "abc\r\n") ∧
      (behindEnvelope 1 (lit "DATA\r\n" ++ dotStuff [lit "abc\r\n"])).received sevenServer
        (.calm 0 (lit "m1")) = none := by
  decide +kernel

end Elemta.Smtp

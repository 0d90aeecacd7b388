import Elemta.Smtp.Chunks
import Elemta.Smtp.CommandLines

/-!
# Commands and the bodies of chunks

The body of a chunk follows its BDAT line without a reply in between. The loop may
go on with the next command only behind the body, so a refusal has to consume the
body or to give up the connection.

`ProcessCommand`, its validator and the handler read the line separately. Of a line
with a blank behind its name and nothing but LAST behind its size the handler reads
what the validator did; on other lines it may refuse the command, and the loop then
goes on inside of the body.
-/

namespace Elemta.Smtp

open Bytes BufferedReader

/-- The words behind the name are the size and, if there is a second one, LAST. -/
def Validator.chunkWords (line : Bytes) : Bool :=
  match fields (checked line).2 with
  | [_] => true
  | [_, word] => equalFold word (lit "LAST")
  | _ => false

/-- The line is one that a client should send for a chunk of `n` octets. -/
structure PlainChunk (line : Bytes) (n : Nat) : Prop where
  blank : Validator.blankFirst line = true
  words : Validator.chunkWords line = true
  size : n < 2 ^ 63

theorem parseInt64_of_decimalSize {digits : Bytes} {n : Nat}
    (h : decimalSize digits = some n) (hn : n < 2 ^ 63) : parseInt64 digits = some n := by
  have hminus (r : Bytes) : isDecimal (45 :: r) = false := by
    simp [isDecimal, isDigit]
  unfold decimalSize at h
  unfold parseInt64
  split at h
  · split at h
    · cases h
      simp_all
    · cases h
  · split at h
    · cases h
      rename_i hplus hdecimal
      split
      rename_i _ negative rest hsigned
      split at hsigned
      · exact absurd rfl (hplus _)
      · rw [hminus] at hdecimal
        cases hdecimal
      · cases hsigned
        simpa [hdecimal] using hn
    · cases h

/-- The handler reads from a plain line what the validator read. -/
theorem PlainChunk.handled {line : Bytes} {n : Nat} (h : PlainChunk line n)
    (hdeclared : Validator.declaredChunk line = some n) :
    (splitCommand line).1 = lit "BDAT" ∧
      ∃ isLast, Session.parseBDAT (splitCommand line).2 = .ok (n, isLast) := by
  obtain ⟨hname, hargs⟩ := splitCommand_eq_checked h.blank
  have hfields : fields (splitCommand line).2 = fields (Validator.checked line).2 := by
    rw [← hargs]
    exact (Validator.fieldsAux_collapseSpace (.inl rfl) _).symm
  have hwords := h.words
  change (if (Validator.checked line).1 = lit "BDAT" then
    (fields (Validator.checked line).2).head?.bind decimalSize else none) = some n at hdeclared
  split at hdeclared
  · rename_i hbdat
    refine ⟨hname.trans hbdat, ?_⟩
    have hsign : ¬ ((n : Int) < 0) := by omega
    unfold Validator.chunkWords at hwords
    split at hwords
    · rename_i first hwords'
      rw [hwords'] at hdeclared
      have hsize := parseInt64_of_decimalSize hdeclared h.size
      exact ⟨false, by simp [Session.parseBDAT, hfields, hwords', hsize, hsign]⟩
    · rename_i first word hwords'
      rw [hwords'] at hdeclared
      have hsize := parseInt64_of_decimalSize hdeclared h.size
      exact ⟨true, by simp [Session.parseBDAT, hfields, hwords', hsize, hsign, hwords]⟩
    · cases hwords
  · cases hdeclared

namespace Session

/-- A chunk of this size is read into the message; any other chunk is discarded. -/
def spools (cfg : Config) (a : Answers) (s : Session) (n : Nat) : Prop :=
  s.state.canAcceptCommand (lit "BDAT") = true ∧ s.core.takesChunk ∧
    wrap64 (s.bdatBytesReceived + n) ≤ cfg.maxSize ∧ a.allocates n = true

/-- The line and the checks on it are such that the body of the chunk is skipped: the validator lets
the line pass, the line is plain, and no read failure falls into a chunk that is read into the
message. -/
def KeepsFraming (cfg : Config) (a : Answers) (s : Session) (line : Bytes)
    (rest : Tape Fault) (n : Nat) : Prop :=
  Validator.validateCommand cfg.parseIP a.commandMemoryOk line = none ∧
    PlainChunk line n ∧
    (s.spools cfg a n → ∀ e, (rest.full n).2.1 ≠ some (.fault e))

/-! ## Where the reader stands after a command -/

def Passed (n : Nat) (rest tape : Tape Fault) : Prop :=
  (rest.full n).2 = (none, tape) ∨ tape = []

/-- After the command the loop ends, or its reader has passed the body. -/
def Frames (n : Nat) (rest : Tape Fault) (o : Outcome) : Prop :=
  (o.2 = none ∧ o.1.live = false) ∨ (o.2.isSome ∧ o.1.dataSyncLost = true) ∨
    Passed n rest o.1.reader.tape

theorem passed_zero (tape : Tape Fault) : Passed 0 tape tape :=
  .inl rfl

variable {a : Answers} {cfg : Config} {size : Int} {n : Nat} {s : Session}

theorem passed_of_readFull {r r' : Reader Fault} {body : Bytes}
    (h : r.readFull readerSize n = (body, none, r')) : Passed n r.tape r'.tape := by
  left
  rw [full_of_readFull h]

theorem tape_eq_nil_of_eof {tape : Tape Fault} (h : (tape.full n).2.1 = some .eof) :
    (tape.full n).2.2 = [] := by
  fun_induction Tape.full n tape with
  | case1 | case3 => cases h
  | case2 => rfl
  | case4 n b t ih => exact ih h

theorem frames_discardBDATChunk (e : Bytes) :
    Frames size.toNat s.reader.tape ((s.discardBDATChunk a size).refuse e) := by
  fun_cases discardBDATChunk a s size with
  | case1 hsize =>
    rw [Int.toNat_of_nonpos hsize]
    exact .inr (.inr (passed_zero _))
  | case4 _ _ _ body reader hread => exact .inr (.inr (passed_of_readFull hread))
  | _ => exact .inr (.inl ⟨rfl, rfl⟩)

theorem discardRefusedBDAT_of_parse {args : Bytes} {isLast : Bool}
    (h : parseBDAT args = .ok (size, isLast)) :
    s.discardRefusedBDAT a args = s.discardBDATChunk a size := by
  have hkeep : (if 0 < size then s.discardBDATChunk a size else s) = s.discardBDATChunk a size := by
    split
    · rfl
    · rw [discardBDATChunk, if_pos (by omega)]
  revert h
  unfold discardRefusedBDAT
  fun_cases parseBDAT args with
  | case5 first size' hsize hsign hfields hmany
  | case6 first size' hsize hsign word tail _ hfields hmany =>
    rintro ⟨⟩
    simp only [hfields, hsize, hkeep, if_neg hmany]
  | _ => rintro ⟨⟩

theorem reader_completeChunks : (s.completeChunks cfg a).1.reader = s.reader := by
  have hproc : (s.processBDATMessage cfg a).1.reader = s.reader := by
    fun_cases processBDATMessage cfg a s <;> rfl
  fun_cases completeChunks cfg a s with
  | case1 t e h | case2 t h =>
    rw [h] at hproc
    exact hproc

variable {o : Outcome} {rest : Tape Fault} {isLast : Bool}

theorem frames_chunkRead (h : Frames n rest o) : Frames n rest (chunkRead cfg a size isLast o) := by
  fun_cases chunkRead cfg a size isLast o with
  | case1 s e =>
    obtain ⟨hnone, -⟩ | ⟨-, hlost⟩ | hpassed := h
    · cases hnone
    · exact .inr (.inl ⟨rfl, hlost⟩)
    · exact .inr (.inr hpassed)
  | case2 s hdead => exact h
  | case3 s hlive =>
    obtain ⟨-, hdead⟩ | ⟨hsome, -⟩ | hpassed := h
    · exact absurd hdead hlive
    · cases hsome
    · exact .inr (.inr (by rwa [reader_completeChunks]))
  | case4 s hlive =>
    obtain ⟨-, hdead⟩ | ⟨hsome, -⟩ | hpassed := h
    · exact absurd hdead hlive
    · cases hsome
    · exact .inr (.inr hpassed)

/-- A chunk for the message: only a read failure leaves the reader inside of it. -/
theorem frames_readBDATChunk
    (hfault : wrap64 (s.bdatBytesReceived + size) ≤ cfg.maxSize → a.allocates size.toNat = true →
      ∀ e, (s.reader.tape.full size.toNat).2.1 ≠ some (.fault e)) :
    Frames size.toNat s.reader.tape (s.readBDATChunk cfg a size) := by
  fun_cases readBDATChunk cfg a s size with
  | case1 => exact frames_discardBDATChunk _
  | case2 => exact .inl ⟨rfl, rfl⟩
  | case3 hfits hallocates body stop reader heq =>
    have hread := Reader.readFull_eq readerSize size.toNat s.reader
    rw [heq] at hread
    refine .inr (.inr (.inr ?_))
    -- the read stopped at the end of the connection
    have hstop : (s.reader.tape.full size.toNat).2.1 = some stop := by rw [← hread]
    have hrest : (s.reader.tape.full size.toNat).2.2 = reader.tape := by rw [← hread]
    change reader.tape = []
    rw [← hrest]
    cases stop with
    | eof => exact tape_eq_nil_of_eof hstop
    | fault e =>
      exact absurd hstop (hfault (Int.not_lt.1 hfits) (eq_true_of_ne_false hallocates) e)
  | case4 _ _ body reader heq =>
    unfold spoolChunk
    split <;> exact .inr (.inr (passed_of_readFull heq))

theorem frames_transferChunk
    (hfault : s.core.takesChunk → wrap64 (s.bdatBytesReceived + size) ≤ cfg.maxSize →
      a.allocates size.toNat = true → ∀ e, (s.reader.tape.full size.toNat).2.1 ≠ some (.fault e)) :
    Frames size.toNat s.reader.tape (s.transferChunk cfg a size isLast) := by
  fun_cases transferChunk cfg a s size isLast with
  | case1 | case2 => exact frames_discardBDATChunk _
  | case3 hrcpt hmode =>
    refine frames_chunkRead ?_
    exact frames_readBDATChunk (hfault ⟨hrcpt, eq_true_of_ne_false hmode⟩)

theorem frames_processCommand {line : Bytes} (hdeclared : Validator.declaredChunk line = some n)
    (h : s.KeepsFraming cfg a line s.reader.tape n) :
    Frames n s.reader.tape (s.processCommand cfg a line) := by
  obtain ⟨hvalid, hplain, hfault⟩ := h
  obtain ⟨hname, isLast, hparse⟩ := hplain.handled hdeclared
  have hsize : (n : Int).toNat = n := Int.toNat_natCast n
  unfold processCommand
  rw [hvalid]
  dsimp only
  rw [hname, processParsed]
  by_cases hplace : s.state.canAcceptCommand (lit "BDAT") = false
  · have hfold : equalFold (lit "BDAT") (lit "BDAT") = true := by decide
    rw [if_pos hplace, if_pos hfold, discardRefusedBDAT_of_parse hparse]
    exact hsize ▸ frames_discardBDATChunk _
  · rw [if_neg hplace, (dispatch_named _ _ _ _ _).2.2.1, handleBDAT, hparse]
    have hframes : Frames (n : Int).toNat s.reader.tape (s.transferChunk cfg a n isLast) :=
      frames_transferChunk fun htakes hfits hallocates => by
        rw [hsize] at hallocates ⊢
        exact hfault ⟨eq_true_of_ne_false hplace, htakes, hfits, hallocates⟩
    rwa [hsize] at hframes

theorem reader_endTurn : (s.endTurn a).reader = s.reader :=
  endTurn_keeps reader (fun _ => rfl) a s

/-- A loop that goes on does so behind the body. -/
theorem passed_of_finish (h : Frames n rest o) (hlive : (finish a o).live = true) :
    Passed n rest (finish a o).reader.tape := by
  revert h hlive
  fun_cases finish a o with
  | case1 s hdead =>
    intro h hlive
    rw [reader_endTurn]
    obtain ⟨-, hnot⟩ | ⟨hsome, -⟩ | hpassed := h
    · exact absurd hdead (by simpa using hnot)
    · cases hsome
    · exact hpassed
  | case2 s hdead => exact fun _ hlive => absurd hlive hdead
  | case3 s e _ hlost =>
    rintro - ⟨⟩
  | case4 s e _ hlost =>
    intro h hlive
    rw [reader_endTurn]
    obtain ⟨hnone, -⟩ | ⟨-, hlost'⟩ | hpassed := h
    · cases hnone
    · exact absurd hlost' hlost
    · exact hpassed

theorem heard_of_nil (h : s.reader.tape = []) : s.heard = none := by
  obtain ⟨hline, -⟩ :=
    Reader.boundedLine_eq (by decide : 0 < readerSize) commandLineLimit s.reader
  rw [h] at hline
  unfold heard
  rcases hread : s.reader.boundedLine readerSize commandLineLimit with ⟨l, r⟩
  rw [hread] at hline
  obtain rfl : l = .text [] (some .eof) := hline
  rfl

end Session

/-! ## Commands behind a chunk -/

/-- The turn reads a command line; a command that is heard after it begins behind the octets of the
chunk that the line declares. -/
def Session.HearsBehindChunk (cfg : Config) (a : Answers) (s : Session) : Prop :=
  s.attends a = true → ∀ line rest n, s.heard = some (line, rest) → Validator.declaredChunk line = some n →
    (s.turn cfg a).live = true → (s.turn cfg a).heard.isSome = true →
      (rest.full n).2 = (none, (s.turn cfg a).reader.tape)

/-- Whatever the session, the answers and the stream: the loop never hears the body of a chunk when
every line that declares one keeps the framing. -/
theorem hearsBehindChunk (cfg : Config) (s : Session) (a : Answers)
    (hkeeps : ∀ line rest n, s.heard = some (line, rest) →
      Validator.declaredChunk line = some n → s.KeepsFraming cfg a line rest n) :
    s.HearsBehindChunk cfg a := by
  intro hattends line rest n hheard hchunk hlive hnext
  have hframing := hkeeps line rest n hheard hchunk
  obtain ⟨r, rfl, hturn⟩ := Session.turn_of_heard cfg hattends hheard
  rw [hturn] at hlive hnext ⊢
  have hframes := Session.frames_processCommand (s := { s with reader := r }) hchunk hframing
  obtain hpassed | hend := Session.passed_of_finish hframes hlive
  · exact hpassed
  · -- with nothing left to read no command is heard
    rw [Session.heard_of_nil hend] at hnext
    cases hnext

def greeted (input : Bytes) : Session :=
  (Session.start (.plain none) 0 (arrives (lit "EHLO c.example\r\n" ++ input)) .empty).run
    (.plain none) [.calm 0 (lit "m1")]

def waiting (input : Bytes) : Session :=
  (greeted (lit "MAIL FROM:<a@c.example>\r\nRCPT TO:<b@here.example>\r\n" ++ input)).run
    (.plain none) (List.replicate 2 (.calm 0 (lit "m1")))

/-- A chunk that reads like a command is taken for the message, and the command behind it is the
next that is heard. -/
theorem accepted_chunk_taken :
    let s := waiting (lit "BDAT 6\r\nNOOP\r\nQUIT\r\n")
    s.HearsBehindChunk (.plain none) (.calm 0 (lit "m1")) ∧
      (s.turn (.plain none) (.calm 0 (lit "m1"))).bdatSpool = some (lit "NOOP\r\n") ∧
      (s.turn (.plain none) (.calm 0 (lit "m1"))).heard = some (lit "QUIT\r\n", []) := by
  intro s
  refine ⟨?_, by decide +kernel, by decide +kernel⟩
  have hheard : s.heard = some (lit "BDAT 6\r\n", Tape.ofBytes (lit "NOOP\r\nQUIT\r\n")) := by
    decide +kernel
  refine hearsBehindChunk (.plain none) s (.calm 0 (lit "m1")) ?_
  intro line rest n hline hchunk
  rw [hheard] at hline
  cases hline
  have hdeclared : Validator.declaredChunk (lit "BDAT 6\r\n") = some 6 := by decide +kernel
  obtain rfl : 6 = n := Option.some.inj (hdeclared.symm.trans hchunk)
  refine ⟨by decide +kernel, ⟨by decide +kernel, by decide +kernel, by decide⟩, fun _ e => ?_⟩
  have hfull : (Tape.full 6 (Tape.ofBytes (lit "NOOP\r\nQUIT\r\n") : Tape Fault)).2.1 = none := by
    decide +kernel
  rw [hfull]
  simp

/-- The validator takes a tab behind BDAT for a blank, the handler does not: it refuses an unknown
command and leaves the chunk, which is then heard as a command. -/
theorem chunk_heard_as_command :
    ¬(greeted (lit "BDAT\t6 LAST\r\nNOOP\r\n")).HearsBehindChunk (.plain none)
      (.calm 0 (lit "m1")) := by
  generalize hs : greeted (lit "BDAT\t6 LAST\r\nNOOP\r\n") = s
  intro hbehind
  have hattends : s.attends (.calm 0 (lit "m1")) = true := by
    subst hs
    decide +kernel
  have hheard : s.heard = some (lit "BDAT\t6 LAST\r\n", Tape.ofBytes (lit "NOOP\r\n")) := by
    subst hs
    decide +kernel
  have hlive : (s.turn (.plain none) (.calm 0 (lit "m1"))).live = true := by
    subst hs
    decide +kernel
  have hnext : (s.turn (.plain none) (.calm 0 (lit "m1"))).heard = some (lit "NOOP\r\n", []) := by
    subst hs
    decide +kernel
  have hbody := hbehind hattends _ _ 6 hheard (by decide +kernel) hlive (by rw [hnext]; rfl)
  have hfull : (Tape.full 6 (Tape.ofBytes (lit "NOOP\r\n") : Tape Fault)).2 = (none, []) := by
    decide +kernel
  have htape : (s.turn (.plain none) (.calm 0 (lit "m1"))).reader.tape = [] :=
    ((Prod.mk.inj (hbody.symm.trans hfull)).2)
  rw [Session.heard_of_nil htape] at hnext
  cases hnext

end Elemta.Smtp

import Elemta.Smtp.Chunks

/-!
# Where a message ends

After the reply to DATA the client sends the message up to CRLF.CRLF, whatever the
server thinks of it. The command loop has to go on behind that mark and nowhere else.

A message that is read to its end is right by the strict line ends. A message that is
refused is drained by another test of its own: `EndsCleanly` says for which streams that
are drained the two tests cannot disagree.
-/

namespace Elemta.Smtp

open Bytes BufferedReader

/-! ## The mark in a stream -/

/-- What follows the first CRLF.CRLF. The flag says that the start of the message or a CRLF is
directly in front. -/
def endOfData : Bool → Bytes → Option Bytes
  | true, 46 :: 13 :: 10 :: r => some r
  | _, 13 :: 10 :: r => endOfData true r
  | _, _ :: r => endOfData false r
  | _, [] => none

def lineStart (b : Bool) (before : Bytes) : Bool :=
  if before = [] then b else Session.endsCRLF before

variable {b : Bool} {s : Bytes} {t front rest : Tape Fault}

theorem endsCRLF_cons {b : UInt8} (h : 2 ≤ s.length) :
    Session.endsCRLF (b :: s) = Session.endsCRLF s := by
  match s, h with
  | c :: d :: s, _ => simp [Session.endsCRLF]

theorem endOfData_crlf : endOfData b (13 :: 10 :: s) = endOfData true s := by
  cases b <;> rfl

theorem endOfData_cons {c : UInt8} (hmark : b = true → c = 46 → ∀ r, s ≠ 13 :: 10 :: r)
    (hcrlf : c = 13 → ∀ r, s ≠ 10 :: r) : endOfData b (c :: s) = endOfData false s := by
  rw [endOfData.eq_def]
  split
  · rename_i r heq
    obtain ⟨rfl, rfl⟩ := List.cons.inj heq
    exact absurd rfl (hmark rfl rfl r)
  · rename_i r heq
    obtain ⟨rfl, rfl⟩ := List.cons.inj heq
    exact absurd rfl (hcrlf rfl r)
  · rename_i heq
    rw [(List.cons.inj heq).2]
  · rename_i heq
    cases heq

/-- Behind whole lines without the mark only the end of the last line matters. -/
theorem endOfData_append {before : Bytes} (hopen : endOfData b before = none)
    (hline : before = [] ∨ before.getLast? = some 10) :
    endOfData b (before ++ s) = endOfData (lineStart b before) s := by
  induction b, before using endOfData.induct with
  | case1 r => simp [endOfData] at hopen
  | case2 b r ih =>
    rw [endOfData_crlf] at hopen
    have hrest : r = [] ∨ r.getLast? = some 10 := by
      cases r with
      | nil => exact .inl rfl
      | cons c r => exact .inr (by simpa using hline)
    have hstart : lineStart b (13 :: 10 :: r) = lineStart true r := by
      match r, hrest with
      | [], _ => rfl
      | [c], h => simp_all [lineStart, Session.endsCRLF]
      | c :: d :: r, _ => simp [lineStart, Session.endsCRLF]
    rw [hstart, ← ih hopen hrest]
    exact endOfData_crlf
  | case3 b c r hmark hcrlf ih =>
    have hlast : (c :: r).getLast? = some 10 := by simpa using hline
    rw [endOfData_cons (fun hb hc t ht => hmark t hb hc ht) (fun hc t ht => hcrlf t hc ht)] at hopen
    match r, hlast with
    | [], hlast =>
      obtain rfl : c = 10 := by simpa using hlast
      exact endOfData_cons (fun _ h => absurd h (by decide)) (fun h => absurd h (by decide))
    | [d], hlast =>
      obtain rfl : d = 10 := by simpa using hlast
      have hc : c ≠ 13 := fun hc => hcrlf [] hc rfl
      have hstart : lineStart b [c, 10] = lineStart false [10] := by
        simp [lineStart, Session.endsCRLF, hc]
      rw [hstart]
      exact endOfData_cons (fun _ _ t ht => by simp at ht) (fun h => absurd h hc)
    | d :: d' :: r, hlast =>
      have hstart : lineStart b (c :: d :: d' :: r) = lineStart false (d :: d' :: r) := by
        simp [lineStart, endsCRLF_cons]
      rw [hstart, ← ih hopen (.inr (by simpa using hlast))]
      refine endOfData_cons (fun hb hc t ht => ?_) (fun hc t ht => ?_)
      · obtain ⟨rfl, rfl, -⟩ : d = 13 ∧ d' = 10 ∧ r ++ s = t := by simpa using ht
        exact hmark r hb hc rfl
      · obtain ⟨rfl, -⟩ : d = 10 ∧ d' :: (r ++ s) = t := by simpa using ht
        exact hcrlf (d' :: r) hc rfl
  | case4 b => simp [lineStart]

variable {line : Bytes} {rest' : Tape Fault}

/-- Inside of one line there is no mark, unless the line is the mark. -/
theorem endOfData_line (hone : 10 ∉ line.dropLast) (hmark : ¬(b = true ∧ line = lit ".\r\n")) :
    endOfData b line = none := by
  fun_induction endOfData b line with
  | case1 r =>
    cases r with
    | nil => exact absurd ⟨rfl, rfl⟩ hmark
    | cons c r => simp at hone
  | case2 b r ih =>
    cases r with
    | nil => rfl
    | cons c r => simp at hone
  | case3 b c r hmark' hcrlf ih =>
    refine ih ?_ (fun h => by cases h.1)
    cases r with
    | nil => simp
    | cons d r => simpa using fun h => hone (by simp [h])
  | case4 => rfl

/-! ## Streams that end cleanly -/

/-- The tape is whole lines without the mark, and what is left. -/
structure Lines (t front rest : Tape Fault) : Prop where
  split : t = front ++ rest
  whole : front.octets = [] ∨ front.octets.getLast? = some 10
  unmarked : endOfData true front.octets = none

structure Marks (t front rest after : Tape Fault) : Prop where
  lines : Lines t front rest
  line : rest.line = (lit ".\r\n", none, after)
  start : lineStart true front.octets = true

theorem Marks.endOfData {after : Tape Fault} (h : Marks t front rest after) :
    endOfData true t.octets = some after.octets := by
  obtain ⟨hrest, -, -⟩ := Tape.line_eq_none h.line
  rw [h.lines.split, Tape.octets_append, endOfData_append h.lines.unmarked h.lines.whole, h.start,
    hrest, Tape.octets_append, Tape.octets_ofBytes]
  rfl

theorem Lines.next (h : Lines t front rest) (hline : rest.line = (line, none, rest'))
    (hmark : ¬(lineStart true front.octets = true ∧ line = lit ".\r\n")) :
    Lines t (front ++ Tape.ofBytes line) rest' := by
  obtain ⟨hrest, hlast, hone⟩ := Tape.line_eq_none hline
  constructor
  · rw [h.split, hrest, List.append_assoc]
  · right
    rw [Tape.octets_append, Tape.octets_ofBytes, List.getLast?_append, hlast]
    rfl
  · rw [Tape.octets_append, Tape.octets_ofBytes, endOfData_append h.unmarked h.whole]
    exact endOfData_line hone hmark

theorem Lines.fault {e : Fault} (h : Lines t front rest)
    (hline : rest.line = ([], some (.fault e), rest')) : Lines t (front ++ [.inr e]) rest' := by
  have hoctets : (front ++ [.inr e] : Tape Fault).octets = front.octets := by simp
  constructor
  · rw [h.split, Tape.line_eq_fault hline]
    simp
  · rw [hoctets]
    exact h.whole
  · rw [hoctets]
    exact h.unmarked

/-- When the connection ends in the next line, the message has no end. -/
theorem Lines.unended (h : Lines t front rest) (hline : rest.line = (line, some .eof, rest')) :
    endOfData true t.octets = none ∧ rest'.octets = [] := by
  obtain ⟨hrest, hnone, rfl⟩ := Tape.line_eq_eof hline
  refine ⟨?_, rfl⟩
  rw [h.split, hrest, Tape.octets_append, Tape.octets_ofBytes,
    endOfData_append h.unmarked h.whole]
  refine endOfData_line (fun hmem => hnone (List.mem_of_mem_dropLast hmem)) ?_
  rintro ⟨-, rfl⟩
  exact hnone (by decide)

/-- Of the message `t`, which was refused, `left` is to be drained. No line of it but the mark looks
like the mark to the drain, nor does a piece of a line before a read failure; a failure that was
the refusal fell between lines; and if the mark was read with the refusal, the message is within
the size with it as well as without, and the memory check at it passes. -/
structure EndsCleanly (cfg : Config) (a : Answers) (t left : Tape Fault) : Prop where
  marks : ∀ front rest line after, Lines t front rest → rest.length ≤ left.length →
    rest.line = (line, none, after) → Session.isDrainMarker line = true → Marks t front rest after
  failures : ∀ front rest line e after, Lines t front rest → rest.length ≤ left.length →
    rest.line = (line, some (.fault e), after) → Session.isDrainMarker line = false
  refusal : ∀ front rest line e, Lines t front rest →
    rest.line = (line, some (.fault e), left) → line = []
  size : ∀ front rest, Marks t front rest left →
    (front.octets = [] ∨ (front.octets.length : Int) ≤ cfg.maxSize) →
    ((front.octets.length + 3 : Nat) : Int) ≤ cfg.maxSize
  memory : ∀ front rest, Marks t front rest left →
    a.lineMemoryOk (front.octets.count 10 + 1) = true

namespace Session

variable {cfg : Config} {a : Answers} {t left : Tape Fault}

/-! ## The drain -/

variable {line : Bytes} {d : DataReader} {fuel : Nat} {r r' : Reader Fault}

variable {drained : Nat} {e : Bytes} {s' : Session}

/-- Behind the end of the message, or at the end of a stream without one. -/
def BehindEnd (t rest : Tape Fault) : Prop :=
  endOfData true t.octets = some rest.octets ∨ (endOfData true t.octets = none ∧ rest.octets = [])

/-- A drain that ends in sync has found the mark, or there is none. -/
theorem drainLines_endOfData (hclean : EndsCleanly cfg a t left) (hlines : Lines t front r.tape)
    (hleft : r.tape.length ≤ left.length) (h : drainLines fuel drained true r = (true, r')) :
    BehindEnd t r'.tape := by
  induction fuel generalizing drained r front with
  | zero => simp [drainLines] at h
  | succ fuel ih =>
    unfold drainLines at h
    rcases hread : r.boundedLine readerSize dataLineLimit with ⟨_ | ⟨line, stop⟩, r₁⟩
    · simp [hread] at h
    have hline := Reader.line_of_boundedLine (by decide) hread
    simp only [hread, Bool.true_and] at h
    by_cases hmarker : isDrainMarker line = true
    · rw [if_pos hmarker] at h
      obtain rfl : r₁ = r' := (Prod.mk.inj h).2
      match stop, hline with
      | none, hline => exact .inl (hclean.marks _ _ _ _ hlines hleft hline hmarker).endOfData
      | some .eof, hline => exact .inr (hlines.unended hline)
      | some (.fault e), hline =>
        rw [hclean.failures _ _ _ _ _ hlines hleft hline] at hmarker
        cases hmarker
    · rw [if_neg hmarker] at h
      match stop, hline, h with
      | some _, _, h => simp at h
      | none, hline, h =>
        simp only [Option.isSome_none, Bool.false_eq_true, if_false] at h
        split at h
        · simp at h
        obtain ⟨htape, hlast, -⟩ := Tape.line_eq_none hline
        rw [hlast] at h
        rw [htape, List.length_append] at hleft
        refine ih (hlines.next hline ?_) (by omega) h
        rintro ⟨-, rfl⟩
        exact hmarker (by decide)

theorem drainLines_nil (hnil : r.tape = []) : drainLines fuel drained true r ≠ (true, r') := by
  intro h
  cases fuel with
  | zero => simp [drainLines] at h
  | succ fuel =>
    unfold drainLines at h
    rcases hread : r.boundedLine readerSize dataLineLimit with ⟨_ | ⟨line, stop⟩, r₁⟩
    · simp [hread] at h
    have hline := Reader.line_of_boundedLine (by decide) hread
    rw [hnil] at hline
    obtain ⟨rfl, rfl, -⟩ : [] = line ∧ some .eof = stop ∧ [] = r₁.tape := by
      simpa [Tape.line] using hline
    simp only [hread, Option.isSome_some, if_true] at h
    rw [if_neg (by decide)] at h
    simp at h

/-! ## Reading -/

theorem endsCRLF_of_validateLineEndings (hne : line ≠ [])
    (h : validateLineEndings true line = none) : endsCRLF line = true := by
  unfold validateLineEndings at h
  dsimp only at h
  split at h
  · rename_i hends
    obtain hnil | ⟨hcr, hlf⟩ := hends
    · exact absurd hnil hne
    · simp only [endsCRLF, hcr, hlf, Bool.and_self]
  · split at h
    · simp at h
    · split at h <;> simp at h

/-- A line that is taken ends in CRLF and is within the size; only the mark completes a message, and
the mark is refused for its size or for the memory. -/
theorem takeLine_spec (hstrict : cfg.strictLineEndings = true) (hne : line ≠ [])
    {taken : DataEnd ⊕ DataReader} (h : takeLine cfg a d line = taken) :
    match taken with
    | .inr d' => endsCRLF line = true ∧ line ≠ lit ".\r\n" ∧
        d'.bytesRead = d.bytesRead + line.length ∧ d'.lineCount = d.lineCount + 1 ∧
        (d'.bytesRead : Int) ≤ cfg.maxSize
    | .inl (.complete _) => line = lit ".\r\n"
    | .inl (.refused _) => line = lit ".\r\n" →
        cfg.maxSize < ((d.bytesRead + 3 : Nat) : Int) ∨ a.lineMemoryOk (d.lineCount + 1) = false
    | .inl (.lost _) => True := by
  unfold takeLine at h
  dsimp only at h
  split at h
  · subst h
    trivial
  rename_i hends
  rw [hstrict] at hends h
  split at h
  · rename_i hsize
    subst h
    rintro rfl
    exact .inl hsize
  rename_i hsize
  split at h
  · rename_i hmemory
    subst h
    exact fun _ => .inr (by simpa using (Bool.and_eq_true_iff.1 hmemory).2)
  split at h
  · rename_i hend
    subst h
    unfold isValidEndOfData at hend
    split at hend
    · assumption
    · simp at hend
  rename_i hmore
  have hmark : line ≠ lit ".\r\n" := by
    rintro rfl
    exact hmore rfl
  split at h
  · subst h
    exact fun heq => absurd heq hmark
  split at h
  · subst h
    exact ⟨endsCRLF_of_validateLineEndings hne hends, hmark, rfl, rfl, Int.not_lt.1 hsize⟩
  · subst h
    exact fun heq => absurd heq hmark

theorem lineStart_append {before : Bytes} (h : endsCRLF line = true) :
    lineStart true (before ++ line) = true := by
  obtain ⟨hlf, hcr⟩ := Bool.and_eq_true_iff.1 h
  obtain ⟨init, rfl⟩ := List.getLast?_eq_some_iff.1 (beq_iff_eq.1 hlf)
  rw [List.dropLast_concat] at hcr
  obtain ⟨text, rfl⟩ := List.getLast?_eq_some_iff.1 (beq_iff_eq.1 hcr)
  simp [lineStart, endsCRLF]

theorem count_line (hlast : line.getLast? = some 10) (hone : 10 ∉ line.dropLast) :
    line.count 10 = 1 := by
  obtain ⟨text, rfl⟩ := List.getLast?_eq_some_iff.1 hlast
  rw [List.dropLast_concat] at hone
  rw [List.count_append, List.count_eq_zero.2 hone]
  rfl

def EndsAt (t rest : Tape Fault) : DataEnd → Prop
  | .lost _ => True
  | .complete _ => endOfData true t.octets = some rest.octets
  | .refused _ => rest = [] ∨ ∃ front, Lines t front rest

section

variable (hstrict : cfg.strictLineEndings = true)

include hstrict

theorem readLines_ends {done : DataEnd}
    (hclean : ∀ e, done = .refused e → EndsCleanly cfg a t r'.tape)
    (hlines : Lines t front r.tape) (hstart : lineStart true front.octets = true)
    (hbytes : d.bytesRead = front.octets.length) (hcount : d.lineCount = front.octets.count 10)
    (hfits : front.octets = [] ∨ (front.octets.length : Int) ≤ cfg.maxSize)
    (h : readLines cfg a fuel d r = (done, r')) : EndsAt t r'.tape done := by
  fun_induction readLines cfg a fuel d r generalizing front with
  | case1 | case2 =>
    cases h
    trivial
  | case3 fuel d r line r₁ hread =>
    cases h
    exact .inl (Tape.line_eq_eof (Reader.line_of_boundedLine (by decide) hread)).2.2
  | case4 fuel d r line e r₁ hread =>
    have hline := Reader.line_of_boundedLine (by decide) hread
    cases h
    obtain rfl := (hclean _ rfl).refusal _ _ _ _ hlines hline
    exact .inr ⟨_, hlines.fault hline⟩
  | case5 fuel d r line r₁ hread done' htake =>
    have hline := Reader.line_of_boundedLine (by decide) hread
    have htaken := takeLine_spec hstrict (Tape.line_ne_nil hline) htake
    obtain ⟨rfl, rfl⟩ := Prod.mk.inj h
    cases done' with
    | lost e => trivial
    | complete content =>
      obtain rfl : line = lit ".\r\n" := htaken
      exact Marks.endOfData ⟨hlines, hline, hstart⟩
    | refused e =>
      refine .inr ⟨_, hlines.next hline ?_⟩
      rintro ⟨-, hmark⟩
      have hmarks : Marks t front r.tape r₁.tape := ⟨hlines, hmark ▸ hline, hstart⟩
      obtain hsize | hmemory := htaken hmark
      · rw [hbytes] at hsize
        exact absurd ((hclean e rfl).size _ _ hmarks hfits) (Int.not_le.2 hsize)
      · rw [hcount, (hclean e rfl).memory _ _ hmarks] at hmemory
        cases hmemory
  | case6 fuel d r line r₁ hread d' htake ih =>
    have hline := Reader.line_of_boundedLine (by decide) hread
    obtain ⟨-, hlast, hone⟩ := Tape.line_eq_none hline
    obtain ⟨hcrlf, hmark, hbytes', hcount', hfits'⟩ :=
      takeLine_spec hstrict (Tape.line_ne_nil hline) htake
    have htotal : d'.bytesRead = (front ++ Tape.ofBytes line).octets.length := by
      rw [hbytes', hbytes]
      simp
    refine ih (hlines.next hline fun hm => hmark hm.2) ?_ htotal ?_ (.inr (htotal ▸ hfits')) h
    · rw [Tape.octets_append, Tape.octets_ofBytes]
      exact lineStart_append hcrlf
    · rw [hcount', hcount, Tape.octets_append, Tape.octets_ofBytes, List.count_append,
        count_line hlast hone]

theorem readData_ends {s : Session} {done : DataEnd}
    (hclean : ∀ e, done = .refused e → EndsCleanly cfg a s.reader.tape r.tape)
    (h : s.readData cfg a = (done, r)) : EndsAt s.reader.tape r.tape done := by
  have hstart : Lines s.reader.tape [] s.reader.tape := ⟨rfl, .inl rfl, rfl⟩
  revert h
  fun_cases readData cfg a s with
  | case1 | case2 =>
    rintro ⟨⟩
    exact .inr ⟨[], hstart⟩
  | case3 => exact readLines_ends hstrict hclean hstart rfl rfl rfl (.inl rfl)

/-- Behind a message that was taken the reader stands at its mark's end; a refused one is drained. -/
theorem readMessage_endOfData {s : Session} (hclean : ∀ e r, s.readData cfg a = (.refused e, r) →
      EndsCleanly cfg a s.reader.tape r.tape)
    {res : Except Bytes Bytes} (h : s.readMessage cfg a = (res, s')) :
    ((∃ e, res = .error e) ∧ s'.dataSyncLost = true) ∨
      BehindEnd s.reader.tape s'.reader.tape := by
  revert h
  fun_cases readMessage cfg a s with
  | case1 content r hread =>
    rintro ⟨⟩
    exact .inr (.inl (readData_ends hstrict (fun _ h => by cases h) hread))
  | case2 =>
    rintro ⟨⟩
    exact .inl ⟨⟨_, rfl⟩, rfl⟩
  | case3 e r hread inSync r' hdrain =>
    rintro ⟨⟩
    cases inSync with
    | false => exact .inl ⟨⟨_, rfl⟩, by simp⟩
    | true =>
      refine .inr ?_
      unfold drainToEndOfData at hdrain
      split at hdrain
      · simp at hdrain
      · have hclean' := hclean e r hread
        obtain hnil | ⟨front, hlines⟩ := readData_ends hstrict (fun _ _ => hclean') hread
        · exact absurd hdrain (drainLines_nil hnil)
        · exact drainLines_endOfData hclean' hlines (Nat.le_refl _) hdrain

end

theorem reader_processSpool (s : Session) (content : Bytes) :
    (s.processSpool cfg a content).1.reader = s.reader := by
  unfold processSpool
  split <;> rfl

theorem reader_dataTurn (s : Session) :
    (s.dataTurn cfg a).reader = (s.readMessage cfg a).2.reader := by
  have hreader : (s.handleDataPhase cfg a).1.reader = (s.readMessage cfg a).2.reader := by
    unfold handleDataPhase
    rcases s.readMessage cfg a with ⟨e | content, s'⟩
    · rfl
    · exact reader_processSpool s' content
  rw [← hreader]
  unfold dataTurn
  rcases s.handleDataPhase cfg a with ⟨s', _ | e⟩
  · rfl
  · dsimp only
    split <;> rfl

/-- A message whose end is not known ends the session. -/
theorem live_dataTurn_of_lost {s : Session} (h : s.readMessage cfg a = (.error e, s'))
    (hlost : s'.dataSyncLost = true) : (s.dataTurn cfg a).live = false := by
  have houtcome : s.handleDataPhase cfg a = s'.refuse e := by
    unfold handleDataPhase
    rw [h]
  have hwrite : (s'.write (errorReply e)).dataSyncLost = true := hlost
  unfold dataTurn
  rw [houtcome]
  simp only [refuse]
  rw [if_pos hwrite]
  rfl

/-- The loop goes on with what follows the first CRLF.CRLF, at the end of a stream without one, or
not at all. -/
def ResumesBehindEnd (cfg : Config) (a : Answers) (s : Session) : Prop :=
  s.state.phase = .data → (s.turn cfg a).live = true →
    BehindEnd s.reader.tape (s.turn cfg a).reader.tape

end Session

/-- Every message of a session with strict line ends, as long as what is drained of a refused one
ends cleanly. -/
theorem resumesBehindEnd (cfg : Config) (hstrict : cfg.strictLineEndings = true) (s : Session)
    (a : Answers) (hclean : ∀ e r, s.readData cfg a = (.refused e, r) →
      EndsCleanly cfg a s.reader.tape r.tape) : s.ResumesBehindEnd cfg a := by
  intro hphase hlive
  revert hlive
  fun_cases Session.turn cfg s a with
  | case1 hdead => exact fun hlive => absurd hlive (by simp [hdead])
  | case2 | case4 => rintro ⟨⟩
  | case3 =>
    intro hlive
    rw [Session.reader_dataTurn]
    rcases hread : s.readMessage cfg a with ⟨res, s'⟩
    obtain ⟨⟨e, rfl⟩, hlost⟩ | hend := Session.readMessage_endOfData hstrict hclean hread
    · rw [Session.live_dataTurn_of_lost hread hlost] at hlive
      cases hlive
    · exact hend
  | case5 _ _ hother => exact absurd hphase hother

/-! ## Refused messages -/

def inData (message : Bytes) : Session :=
  (transfer (lit "DATA\r\n" ++ message) 4).1

/-- Lines of a stream without failures, by their position. -/
theorem Lines.take (h : Lines (Tape.ofBytes s) front rest) :
    ∃ k ≤ s.length, front = Tape.ofBytes (s.take k) ∧ rest = Tape.ofBytes (s.drop k) := by
  obtain ⟨s₁, s₂, rfl, hfront, hrest⟩ := List.map_eq_append_iff.1 h.split
  refine ⟨s₁.length, by simp, ?_, ?_⟩
  · simp [Tape.ofBytes, hfront]
  · simp [Tape.ofBytes, hrest]

/-- A message that is too large is drained, and the loop goes on behind its end. -/
theorem large_message_drained :
    let s := inData (lit "12345678\r\n.\r\nNOOP\r\n")
    s.ResumesBehindEnd smallServer (.calm 0 (lit "m1")) ∧
      (s.turn smallServer (.calm 0 (lit "m1"))).heard = some (lit "NOOP\r\n", []) := by
  intro s
  refine ⟨?_, by decide +kernel⟩
  refine resumesBehindEnd smallServer rfl s (.calm 0 (lit "m1")) fun e r hread => ?_
  generalize hm : lit "12345678\r\n.\r\nNOOP\r\n" = m
  have htape : s.reader.tape = Tape.ofBytes m := by
    subst hm
    decide +kernel
  have hleft : r.tape = Tape.ofBytes (m.drop 10) := by
    have hrefused : (s.readData smallServer (.calm 0 (lit "m1"))).2.tape =
        Tape.ofBytes (m.drop 10) := by
      subst hm
      decide +kernel
    rwa [hread] at hrefused
  rw [htape, hleft]
  -- the lines in front of the end are the first one and the mark
  have hstarts : ∀ k < 20, (m.take k = [] ∨ (m.take k).getLast? = some 10) →
      endOfData true (m.take k) = none → k = 0 ∨ k = 10 := by
    subst hm
    decide +kernel
  have hlines : ∀ front rest : Tape Fault, Lines (Tape.ofBytes m) front rest →
      (front = [] ∧ rest = Tape.ofBytes m) ∨
        (front = Tape.ofBytes (m.take 10) ∧ rest = Tape.ofBytes (m.drop 10)) := by
    intro front rest h
    obtain ⟨k, hk, rfl, rfl⟩ := h.take
    rcases hstarts k (Nat.lt_of_le_of_lt hk (by subst hm; decide +kernel))
      (by simpa using h.whole) (by simpa using h.unmarked) with rfl | rfl
    · exact .inl ⟨rfl, rfl⟩
    · exact .inr ⟨rfl, rfl⟩
  have hfirst : (Tape.ofBytes m : Tape Fault).line =
      (lit "12345678\r\n", none, Tape.ofBytes (m.drop 10)) := by
    subst hm
    decide +kernel
  have hmark : (Tape.ofBytes (m.drop 10) : Tape Fault).line =
      (lit ".\r\n", none, Tape.ofBytes (m.drop 13)) := by
    subst hm
    decide +kernel
  have hlonger : (m.drop 10).length < m.length ∧ m.drop 13 ≠ m.drop 10 ∧
      lit "12345678\r\n" ≠ lit ".\r\n" := by
    subst hm
    decide +kernel
  have hclear {front rest after : Tape Fault} {line : Bytes} {e} (h : Lines (Tape.ofBytes m) front rest) :
      rest.line ≠ (line, some e, after) := by
    intro hline
    rcases hlines front rest h with ⟨rfl, rfl⟩ | ⟨rfl, rfl⟩
    · cases hfirst.symm.trans hline
    · cases hmark.symm.trans hline
  have hpast {front rest : Tape Fault} :
      ¬Marks (Tape.ofBytes m) front rest (Tape.ofBytes (m.drop 10)) := by
    intro h
    have hline := h.line
    rcases hlines front rest h.lines with ⟨-, rfl⟩ | ⟨-, rfl⟩
    · exact hlonger.2.2 (Prod.mk.inj (hfirst.symm.trans hline)).1
    · have hafter := (Prod.mk.inj (Prod.mk.inj (hmark.symm.trans hline)).2).2
      exact hlonger.2.1 (by simpa using congrArg Tape.octets hafter)
  constructor
  · intro front rest line after h hle hline _
    rcases hlines front rest h with ⟨rfl, rfl⟩ | ⟨rfl, rfl⟩
    · simp only [Tape.ofBytes, List.length_map] at hle
      omega
    · obtain ⟨rfl, -⟩ := Prod.mk.inj (hmark.symm.trans hline)
      exact ⟨h, hline, by subst hm; decide +kernel⟩
  · exact fun front rest line e after h _ hline => absurd hline (hclear h)
  · exact fun front rest line e h hline => absurd hline (hclear h)
  · exact fun front rest h => absurd h hpast
  · exact fun front rest h => absurd h hpast

/-- The drain takes a period before a bare line feed for the mark, so the rest of the refused message
is heard as commands. -/
theorem drained_to_bare_lf :
    ¬(inData (lit "12345678\r\n.\nNOOP\r\n.\r\n")).ResumesBehindEnd smallServer
      (.calm 0 (lit "m1")) := by
  generalize hm : lit "12345678\r\n.\nNOOP\r\n.\r\n" = m
  intro hresumes
  have hphase : (inData m).state.phase = .data := by
    subst hm
    decide +kernel
  have hlive : ((inData m).turn smallServer (.calm 0 (lit "m1"))).live = true := by
    subst hm
    decide +kernel
  have htape : ((inData m).turn smallServer (.calm 0 (lit "m1"))).reader.tape.octets =
      lit "NOOP\r\n.\r\n" := by
    subst hm
    decide +kernel
  have hend : endOfData true (inData m).reader.tape.octets = some [] := by
    subst hm
    decide +kernel
  have hbehind := hresumes hphase hlive
  rw [Session.BehindEnd, htape, hend] at hbehind
  exact absurd hbehind (by decide)

end Elemta.Smtp

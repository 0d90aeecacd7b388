import Elemta.Smtp.Chunks

/-!
# Totals of chunks

The octets of a chunked message are counted in a signed word of 64 bits, and a chunk is let
in by the sum of that count and the size on its line. The sum wraps around, so a size close
to the largest number passes for a negative total. For sizes that leave room for a whole
message the count is the number of octets held, and nothing larger than the limit is asked
of the memory.
-/

namespace Elemta.Smtp

open Bytes BufferedReader

/-! ## Sums -/

theorem Session.wrap64_of_lt {n : Int} (hlow : 0 ≤ n) (hhigh : n < 2 ^ 63) : wrap64 n = n := by
  refine Int.bmod_eq_of_le ?_ ?_
  · omega
  · omega

theorem Session.wrap64_add (m n : Int) : wrap64 (wrap64 m + n) = wrap64 (m + n) :=
  Int.bmod_add_bmod

theorem handledChunk_size {line : Bytes} {size : Int} {isLast : Bool}
    (h : handledChunk line = some (size, isLast)) : 0 ≤ size ∧ size < 2 ^ 63 :=
  Session.parseBDAT_size (handledChunk_eq_some.1 h).2

/-! ## What a turn does to the chunks -/

/-- The chunks stay, go, or become one more, which was let in by the sum. -/
inductive Holding (cfg : Config) (next : Option Int) (c : Core) : Core → Prop where
  | same {c' : Core} (spool : c'.spool = c.spool) (received : c'.bytesReceived = c.bytesReceived) :
    Holding cfg next c c'
  | dropped {c' : Core} (spool : c'.spool = none) (received : c'.bytesReceived = 0) :
    Holding cfg next c c'
  | taken {c' : Core} (size : Int) (body : Bytes) (announced : next = some size)
    (fits : Session.wrap64 (c.bytesReceived + size) ≤ cfg.maxSize)
    (length : (body.length : Int) = size) (spool : c'.spool = some (c.withChunk body))
    (received : c'.bytesReceived = Session.wrap64 (c.bytesReceived + size)) :
    Holding cfg next c c'

theorem Effect.holding_of_other {cfg : Config} {a : Answers}
    {input : Option (Bytes × Tape Fault)} {c c' : Core} (h : Effect cfg a input c c')
    (hchunk : ∀ {rest size isLast}, ¬ChunkCommand input c.state rest size isLast)
    (next : Option Int) : Holding cfg next c c' := by
  cases h with
  | reset => exact .dropped rfl rfl
  | begin _ _ _ _ command => exact absurd command hchunk
  | chunk _ _ _ _ _ command => exact absurd command hchunk
  | dropChunks _ _ _ _ _ command => exact absurd command hchunk
  | deliverChunks _ _ _ _ _ _ _ command => exact absurd command hchunk
  | _ => exact .same rfl rfl

namespace Session

variable {cfg : Config} {a : Answers} {s : Session}

def nextChunk (a : Answers) (s : Session) : Option Int :=
  if s.attends a then (s.heard.bind fun heard => handledChunk heard.1).map Prod.fst else none

variable {size : Int}

theorem nextChunk_of_heard {line : Bytes} {rest : Tape Fault} {isLast : Bool}
    (hattends : s.attends a = true) (hheard : s.heard = some (line, rest))
    (hchunk : handledChunk line = some (size, isLast)) : s.nextChunk a = some size := by
  rw [nextChunk, if_pos hattends, hheard, Option.bind_some, hchunk]
  rfl

theorem transferChunk_holding (hlive : s.live = true) (hsize : 0 ≤ size) (isLast : Bool) :
    Holding cfg (some size) s.core (s.transferChunk cfg a size isLast).1.core := by
  have h := transferred cfg a hlive size isLast
  generalize s.transferChunk cfg a size isLast = o at h ⊢
  cases h with
  | rejected => exact .same rfl rfl
  | closed => exact .same rfl rfl
  | failed | dropped | delivered => exact .dropped rfl rfl
  | spooled body reply reader takes fits read =>
    obtain ⟨hlength, -⟩ := Tape.full_eq_none_iff.1 read
    exact .taken size body rfl fits (by omega) rfl rfl

theorem turn_holding : Holding cfg (s.nextChunk a) s.core (s.turn cfg a).core := by
  apply turn_cases (P := fun t => Holding cfg (s.nextChunk a) s.core t.core)
  case same => exact .same rfl rfl
  case closed => exact fun _ _ => .same rfl rfl
  case data =>
    intro hphase
    have heffect : Effect cfg a none s.core (s.dataTurn cfg a).core := dataTurn_effect hphase
    exact heffect.holding_of_other not_chunkCommand_none _
  case command =>
    intro line r hattends hheard
    rw [core_finish]
    have hcore : s.core = ({ s with reader := r } : Session).core := rfl
    have hlive := live_of_attends hattends
    cases hchunk : handledChunk line with
    | none =>
      have heffect : Effect cfg a (some (line, r.tape)) s.core
          (processCommand cfg a { s with reader := r } line).1.core :=
        processCommand_effect { s with reader := r } hlive rfl
      exact heffect.holding_of_other (not_chunkCommand hchunk) _
    | some chunk =>
      obtain ⟨size, isLast⟩ := chunk
      obtain ⟨hname, hparse⟩ := handledChunk_eq_some.1 hchunk
      rw [nextChunk_of_heard hattends hheard hchunk]
      obtain ⟨e, reader, lost, hres⟩ | ⟨-, -, hres⟩ :=
        processCommand_cases cfg a { s with reader := r } line
      · rw [hres]
        exact .same rfl rfl
      · rw [hres, hname, (dispatch_named _ _ _ _ _).2.2.1, handleBDAT, hparse]
        exact transferChunk_holding (s := { s with reader := r }) hlive (handledChunk_size hchunk).1 isLast

/-! ## Buffers -/

def allocatingUpTo (limit : Int) (a : Answers) : Answers :=
  { a with allocates := fun n => a.allocates n && decide ((n : Int) ≤ limit) }

theorem readLines_allocatingUpTo (limit : Int) (fuel : Nat) (d : DataReader) (r : Reader Fault) :
    readLines cfg (allocatingUpTo limit a) fuel d r = readLines cfg a fuel d r := by
  induction fuel generalizing d r with
  | zero => rfl
  | succ fuel ih =>
    unfold readLines
    have htake (line : Bytes) :
        takeLine cfg (allocatingUpTo limit a) d line = takeLine cfg a d line := rfl
    simp only [htake, ih]

theorem dataTurn_allocatingUpTo (limit : Int) :
    s.dataTurn cfg (allocatingUpTo limit a) = s.dataTurn cfg a := by
  have hread : s.readData cfg (allocatingUpTo limit a) = s.readData cfg a := by
    simp only [readData, readLines_allocatingUpTo]
    rfl
  simp only [dataTurn, handleDataPhase, readMessage, hread]
  rfl

section

variable (hsize : 0 ≤ size)
  (h : wrap64 (s.bdatBytesReceived + size) ≤ cfg.maxSize → size ≤ cfg.maxSize)

include hsize h

theorem readBDATChunk_allocatingUpTo :
    s.readBDATChunk cfg (allocatingUpTo cfg.maxSize a) size = s.readBDATChunk cfg a size := by
  unfold readBDATChunk
  split
  · rfl
  rename_i hfits
  have hsame : (allocatingUpTo cfg.maxSize a).allocates size.toNat = a.allocates size.toNat := by
    have hnat : decide ((size.toNat : Int) ≤ cfg.maxSize) = true := decide_eq_true (by omega)
    change (a.allocates size.toNat && decide ((size.toNat : Int) ≤ cfg.maxSize)) = _
    rw [hnat, Bool.and_true]
  rw [hsame]
  rfl

theorem transferChunk_allocatingUpTo (isLast : Bool) :
    s.transferChunk cfg (allocatingUpTo cfg.maxSize a) size isLast =
      s.transferChunk cfg a size isLast := by
  unfold transferChunk
  split
  · rfl
  split
  · rfl
  rw [readBDATChunk_allocatingUpTo (s := s.beginChunk) hsize h]
  rfl

end

/-- A turn asks for no buffer over the limit when the chunk that it lets in is within it. -/
theorem turn_allocatingUpTo
    (h : ∀ size, s.nextChunk a = some size →
      wrap64 (s.bdatBytesReceived + size) ≤ cfg.maxSize → size ≤ cfg.maxSize) :
    s.turn cfg (allocatingUpTo cfg.maxSize a) = s.turn cfg a := by
  cases hattends : s.attends a with
  | false =>
    change (if s.live = false then s else if a.stop then s.close
      else if s.state.phase = .data then
        if a.flushes then s.dataTurn cfg (allocatingUpTo cfg.maxSize a) else s.close
      else s.commandTurn cfg (allocatingUpTo cfg.maxSize a)) = s.turn cfg a
    rw [dataTurn_allocatingUpTo]
    fun_cases turn cfg s a with
    | case5 hdead hstop hdata => simp [attends, hdead, hstop, hdata] at hattends
    | _ => simp [*]
  | true =>
    have hattends' : s.attends (allocatingUpTo cfg.maxSize a) = true := hattends
    rw [turn_of_attends hattends, turn_of_attends hattends']
    unfold commandTurn
    rcases hline : s.reader.boundedLine readerSize commandLineLimit with
      ⟨_ | ⟨line, _ | _ | _ | _⟩, r⟩
    · rfl
    · dsimp only
      have hheard : s.heard = some (line, r.tape) := by rw [heard, hline]
      suffices hsame : processCommand cfg (allocatingUpTo cfg.maxSize a) { s with reader := r } line =
          processCommand cfg a { s with reader := r } line by
        rw [hsame]
        rfl
      have hmemory : (allocatingUpTo cfg.maxSize a).commandMemoryOk = a.commandMemoryOk := rfl
      simp only [processCommand, hmemory]
      split
      · rfl
      unfold processParsed
      split
      · rfl
      by_cases hname : (splitCommand line).1 = lit "BDAT"
      · rw [hname]
        simp only [dispatch_named]
        unfold handleBDAT
        split
        · rfl
        rename_i size isLast hparse
        have hnext := nextChunk_of_heard hattends hheard
          (handledChunk_eq_some.2 ⟨hname, hparse⟩)
        exact transferChunk_allocatingUpTo (s := { s with reader := r })
          (parseBDAT_size hparse).1 (h size hnext) isLast
      · unfold dispatch
        rw [if_neg hname, if_neg hname]
        rfl
    · rfl
    · rfl
    · rfl

/-! ## Runs -/

/-- The count is the number of octets held, up to wrapping around. -/
theorem turn_counts (h : s.bdatBytesReceived = wrap64 (s.bdatSpool.getD []).length) :
    (s.turn cfg a).bdatBytesReceived = wrap64 ((s.turn cfg a).bdatSpool.getD []).length := by
  change (s.turn cfg a).core.bytesReceived = wrap64 ((s.turn cfg a).core.spool.getD []).length
  cases turn_holding with
  | same spool received =>
    rw [spool, received]
    exact h
  | dropped spool received =>
    rw [spool, received]
    rfl
  | taken size body announced fits length spool received =>
    have hcount : s.core.bytesReceived = wrap64 (s.bdatSpool.getD []).length := h
    rw [spool, received, hcount, wrap64_add, Option.getD_some, Core.withChunk, List.length_append,
      ← length]
    rfl

/-- The size on the next line leaves room for a whole message. -/
def Moderate (cfg : Config) (s : Session) (a : Answers) : Prop :=
  ∀ size ∈ s.nextChunk a, size + cfg.maxSize < 2 ^ 63

instance (cfg : Config) (s : Session) (a : Answers) : Decidable (Moderate cfg s a) :=
  inferInstanceAs (Decidable (∀ size ∈ s.nextChunk a, size + cfg.maxSize < 2 ^ 63))

structure Bounded (cfg : Config) (s : Session) : Prop where
  exact : s.bdatBytesReceived = (s.bdatSpool.getD []).length
  fits : ∀ content, s.bdatSpool = some content → (content.length : Int) ≤ cfg.maxSize

theorem Bounded.sum_exact (h : s.Bounded cfg) (hmoderate : s.Moderate cfg a)
    (hnext : s.nextChunk a = some size) :
    wrap64 (s.bdatBytesReceived + size) = s.bdatBytesReceived + size := by
  have hbound := hmoderate size hnext
  have hsize : 0 ≤ size ∧ size < 2 ^ 63 := by
    rw [nextChunk] at hnext
    split at hnext
    · obtain ⟨chunk, hchunk, rfl⟩ := Option.map_eq_some_iff.1 hnext
      obtain ⟨heard, -, hhandled⟩ := Option.bind_eq_some_iff.1 hchunk
      exact handledChunk_size hhandled
    · cases hnext
  have hexact := h.exact
  have hheld : (((s.bdatSpool.getD []).length : Nat) : Int) = 0 ∨
      (((s.bdatSpool.getD []).length : Nat) : Int) ≤ cfg.maxSize := by
    cases hspool : s.bdatSpool with
    | none => exact .inl rfl
    | some content => exact .inr (h.fits content hspool)
  exact wrap64_of_lt (by omega) (by omega)

theorem Bounded.turn (h : s.Bounded cfg) (hmoderate : s.Moderate cfg a) :
    (s.turn cfg a).Bounded cfg := by
  have hspool : (s.turn cfg a).bdatSpool = (s.turn cfg a).core.spool := rfl
  have hreceived : (s.turn cfg a).bdatBytesReceived = (s.turn cfg a).core.bytesReceived := rfl
  cases turn_holding with
  | same spool received =>
    exact ⟨by rw [hspool, hreceived, spool, received]; exact h.exact,
      fun content hcontent => h.fits content (by rw [hspool, spool] at hcontent; exact hcontent)⟩
  | dropped spool received =>
    refine ⟨by rw [hspool, hreceived, spool, received]; rfl, fun content hcontent => ?_⟩
    rw [hspool, spool] at hcontent
    cases hcontent
  | taken size body announced fits length spool received =>
    have hsum : wrap64 (s.core.bytesReceived + size) = s.core.bytesReceived + size :=
      h.sum_exact hmoderate announced
    have hexact : s.core.bytesReceived = (s.bdatSpool.getD []).length := h.exact
    have htotal : ((s.core.withChunk body).length : Int) = s.core.bytesReceived + size := by
      rw [Core.withChunk, List.length_append, hexact, ← length]
      rfl
    refine ⟨?_, fun content hcontent => ?_⟩
    · rw [hspool, hreceived, spool, received, hsum, Option.getD_some, htotal]
    · rw [hspool, spool] at hcontent
      cases hcontent
      rw [htotal, ← hsum]
      exact fits

/-- In a run whose sizes leave room for a whole message, the count is the number of octets held and
the sum that lets in the next chunk does not wrap around, what is held is within the limit, and no
buffer over the limit is asked for. -/
theorem chunk_totals_bounded (cfg : Config) (now : Nat) (conn : List (Arrival Fault))
    (store : Queue.Store) (answers : List Answers) (a : Answers)
    (h : Machine.Along (Session.turn cfg) (Moderate cfg) (start cfg now conn store)
      (answers ++ [a])) :
    let s := run cfg (start cfg now conn store) answers
    s.bdatBytesReceived = (s.bdatSpool.getD []).length ∧
      (∀ size, s.nextChunk a = some size →
        wrap64 (s.bdatBytesReceived + size) = s.bdatBytesReceived + size) ∧
      (∀ content, s.bdatSpool = some content → (content.length : Int) ≤ cfg.maxSize) ∧
      s.turn cfg (allocatingUpTo cfg.maxSize a) = s.turn cfg a := by
  obtain ⟨hbefore, hlast, -⟩ := Machine.along_append.1 h
  have hstart : (start cfg now conn store).Bounded cfg :=
    ⟨rfl, fun content hcontent => by cases hcontent⟩
  have hbounded : (run cfg (start cfg now conn store) answers).Bounded cfg :=
    hbefore.run_invariant (Bounded cfg) (fun s a hs hinv => hinv.turn hs) hstart
  change (run cfg (start cfg now conn store) answers).Moderate cfg a at hlast
  refine ⟨hbounded.exact, fun size hnext => hbounded.sum_exact hlast hnext, hbounded.fits,
    turn_allocatingUpTo fun size hnext hfits => ?_⟩
  have hexact := hbounded.exact
  rw [hbounded.sum_exact hlast hnext] at hfits
  omega

end Session

def announcing (size : Bytes) : List (Arrival Fault) :=
  arrives (lit "EHLO c.example\r\nMAIL FROM:<a@c.example>\r\nRCPT TO:<b@here.example>\r\n" ++
    lit "BDAT 2\r\nhiBDAT " ++ size ++ lit "\r\nyou")

def announced (size : Bytes) : Session :=
  Session.run smallServer (Session.start smallServer 0 (announcing size) .empty)
    (List.replicate 4 (.calm 0 (lit "m1")))

theorem chunk_totals_bounded_two :
    (announced (lit "3")).bdatBytesReceived = 2 ∧
      (announced (lit "3")).turn smallServer (Session.allocatingUpTo 5 (.calm 0 (lit "m1"))) =
        (announced (lit "3")).turn smallServer (.calm 0 (lit "m1")) := by
  have hmoderate : Machine.Along (Session.turn smallServer) (Session.Moderate smallServer)
      (Session.start smallServer 0 (announcing (lit "3")) .empty)
      (List.replicate 4 (.calm 0 (lit "m1")) ++ [.calm 0 (lit "m1")]) := by
    decide +kernel
  obtain ⟨htotal, -, -, hturn⟩ := Session.chunk_totals_bounded smallServer 0
    (announcing (lit "3")) .empty (List.replicate 4 (.calm 0 (lit "m1"))) (.calm 0 (lit "m1"))
    hmoderate
  have hspool : (announced (lit "3")).bdatSpool = some (lit "hi") := by decide +kernel
  refine ⟨htotal.trans ?_, hturn⟩
  change (((announced (lit "3")).bdatSpool.getD []).length : Int) = 2
  rw [hspool]
  rfl

/-- The largest size makes the sum negative: it passes as within the limit of five octets, and a
buffer for all of it is asked for. -/
theorem largest_size_wraps :
    (announced (lit "9223372036854775807")).nextChunk (.calm 0 (lit "m1")) = some (2 ^ 63 - 1) ∧
      Session.wrap64 ((announced (lit "9223372036854775807")).bdatBytesReceived + (2 ^ 63 - 1)) =
        1 - 2 ^ 63 ∧
      (announced (lit "9223372036854775807")).turn smallServer
          (Session.allocatingUpTo 5 (.calm 0 (lit "m1"))) ≠
        (announced (lit "9223372036854775807")).turn smallServer (.calm 0 (lit "m1")) := by
  refine ⟨by decide +kernel, by decide +kernel, fun heq => ?_⟩
  have hlive := congrArg Session.live heq
  have hends : ((announced (lit "9223372036854775807")).turn smallServer
      (Session.allocatingUpTo 5 (.calm 0 (lit "m1")))).live = false := by decide +kernel
  have hgoes : ((announced (lit "9223372036854775807")).turn smallServer
      (.calm 0 (lit "m1"))).live = true := by decide +kernel
  rw [hends, hgoes] at hlive
  cases hlive

end Elemta.Smtp

import Elemta.Foundation.Bytes

/-!
# Buffered reading from a connection

A connection delivers octets in pieces of any size, and a read may fail in
between. A buffered reader keeps what has arrived and was not asked for yet; its
buffer has a capacity, and a line that does not fit is handed out in fragments.

The *tape* of a reader is what it is going to deliver, octet by octet and fault
by fault, without the cuts between the pieces. Reading a bounded line and reading
a number of octets are functions of the tape (`boundedLine_eq`, `readFull_eq`),
so nothing a caller computes from them depends on how the stream was cut.
-/

namespace BufferedReader

variable {ε : Type*}

/-- What one read of the connection gives: at least one octet, or an error. -/
inductive Arrival (ε : Type*) where
  | data (first : UInt8) (rest : Bytes)
  | fault (e : ε)
  deriving Repr

/-- A connection with nothing left is at its end. -/
structure Reader (ε : Type*) where
  buffer : Bytes
  conn : List (Arrival ε)
  deriving Repr

inductive Stop (ε : Type*) where
  | eof
  | fault (e : ε)
  deriving DecidableEq

/-! ## Tapes -/

abbrev Tape (ε : Type*) := List (UInt8 ⊕ ε)

namespace Tape

def ofBytes (s : Bytes) : Tape ε :=
  s.map Sum.inl

/-- What a read takes from a tape: octets, why it stopped short, and what is left. -/
abbrev Taken (ε : Type*) := Bytes × Option (Stop ε) × Tape ε

def prepend (s : Bytes) (taken : Taken ε) : Taken ε :=
  (s ++ taken.1, taken.2)

def line : Tape ε → Taken ε
  | [] => ([], some .eof, [])
  | .inr e :: t => ([], some (.fault e), t)
  | .inl b :: t => if b = 10 then ([b], none, t) else prepend [b] (line t)

def full : Nat → Tape ε → Taken ε
  | 0, t => ([], none, t)
  | _ + 1, [] => ([], some .eof, [])
  | _ + 1, .inr e :: t => ([], some (.fault e), t)
  | n + 1, .inl b :: t => prepend [b] (full n t)

@[simp] theorem ofBytes_nil : (ofBytes [] : Tape ε) = [] := rfl

@[simp] theorem ofBytes_cons (b : UInt8) (s : Bytes) :
    (ofBytes (b :: s) : Tape ε) = .inl b :: ofBytes s := rfl

@[simp] theorem ofBytes_append (s s' : Bytes) :
    (ofBytes (s ++ s') : Tape ε) = ofBytes s ++ ofBytes s' :=
  List.map_append

@[simp] theorem prepend_nil (taken : Taken ε) : prepend [] taken = taken := rfl

@[simp] theorem prepend_prepend (s s' : Bytes) (taken : Taken ε) :
    prepend s (prepend s' taken) = prepend (s ++ s') taken := by
  simp [prepend]

variable {n : Nat} {s l : Bytes} {rest t : Tape ε}

theorem full_ofBytes_append (h : s.length ≤ n) (t : Tape ε) :
    full n (ofBytes s ++ t) = prepend s (full (n - s.length) t) := by
  induction s generalizing n with
  | nil => simp
  | cons b s ih =>
    cases n with
    | zero => simp at h
    | succ n =>
      have hlen : s.length ≤ n := by simpa using h
      simp [full, ih hlen]

theorem full_ofBytes_take (h : n ≤ s.length) (t : Tape ε) :
    full n (ofBytes s ++ t) = (s.take n, none, ofBytes (s.drop n) ++ t) := by
  have hcut : s = s.take n ++ s.drop n := (List.take_append_drop n s).symm
  have hlen : (s.take n).length = n := by simp [h]
  conv_lhs => rw [hcut, ofBytes_append, List.append_assoc]
  rw [full_ofBytes_append (by omega), hlen]
  simp [full, prepend]

/-- A read that does not stop short takes exactly the octets it was asked for. -/
theorem full_eq_none_iff : full n t = (s, none, rest) ↔ s.length = n ∧ t = ofBytes s ++ rest := by
  constructor
  · intro h
    fun_induction full n t generalizing s with
    | case1 =>
      cases h
      simp
    | case2 | case3 => cases h
    | case4 n b t ih =>
      obtain ⟨rfl, hrest⟩ := Prod.mk.inj h
      obtain ⟨hlen, htape⟩ := ih (Prod.ext rfl hrest)
      simp [hlen, ← htape]
  · rintro ⟨rfl, rfl⟩
    simpa using full_ofBytes_take (Nat.le_refl s.length) rest

def octets (t : Tape ε) : Bytes :=
  t.filterMap Sum.getLeft?

@[simp] theorem octets_nil : octets ([] : Tape ε) = [] := rfl

@[simp] theorem octets_append (t t' : Tape ε) : octets (t ++ t') = octets t ++ octets t' :=
  List.filterMap_append

@[simp] theorem octets_fault (e : ε) : octets (.inr e :: t) = octets t := rfl

@[simp] theorem octets_ofBytes : octets (ofBytes s : Tape ε) = s := by
  induction s with
  | nil => rfl
  | cons b s ih => simpa [octets] using ih

/-- A whole line has one newline, and that at its end. -/
theorem line_eq_none (h : line t = (l, none, rest)) :
    t = ofBytes l ++ rest ∧ l.getLast? = some 10 ∧ 10 ∉ l.dropLast := by
  fun_induction line t generalizing l with
  | case1 | case2 => cases h
  | case3 t =>
    cases h
    simp
  | case4 b t hb ih =>
    rcases hline : line t with ⟨l', stop, rest'⟩
    rw [hline] at h
    cases h
    obtain ⟨htape, hlast, hone⟩ := ih hline
    cases l' with
    | nil => cases hlast
    | cons c l' =>
      refine ⟨by simpa using htape, by simpa using hlast, ?_⟩
      simpa [Ne.symm hb] using hone

theorem line_ofBytes {text : Bytes} (h : 10 ∉ text) :
    line (ofBytes (text ++ [10]) ++ rest) = (text ++ [10], none, rest) := by
  induction text with
  | nil => rfl
  | cons b text ih =>
    have hb : b ≠ 10 := fun he => h (he ▸ List.mem_cons_self ..)
    rw [List.cons_append, ofBytes_cons, List.cons_append, line, if_neg hb,
      ih fun hmem => h (List.mem_cons_of_mem b hmem)]
    rfl

/-- What is read in front of a fault. -/
theorem line_eq_fault {e : ε} (h : line t = (l, some (.fault e), rest)) :
    t = ofBytes l ++ .inr e :: rest := by
  fun_induction line t generalizing l with
  | case1 | case3 => cases h
  | case2 =>
    cases h
    rfl
  | case4 b t hb ih =>
    obtain ⟨rfl, hrest⟩ := Prod.mk.inj h
    simpa using ih (Prod.ext rfl hrest)

theorem line_eq_eof (h : line t = (l, some .eof, rest)) : t = ofBytes l ∧ 10 ∉ l ∧ rest = [] := by
  fun_induction line t generalizing l with
  | case1 =>
    cases h
    simp
  | case2 | case3 => cases h
  | case4 b t hb ih =>
    obtain ⟨rfl, hrest⟩ := Prod.mk.inj h
    obtain ⟨htape, hnone, hend⟩ := ih (Prod.ext rfl hrest)
    exact ⟨by simpa using htape, by simp [hnone, Ne.symm hb], hend⟩

end Tape

open Tape

def Arrival.tape : Arrival ε → Tape ε
  | .data first rest => ofBytes (first :: rest)
  | .fault e => [.inr e]

def connTape (conn : List (Arrival ε)) : Tape ε :=
  conn.flatMap Arrival.tape

def Reader.tape (r : Reader ε) : Tape ε :=
  ofBytes r.buffer ++ connTape r.conn

@[simp] theorem connTape_nil : connTape ([] : List (Arrival ε)) = [] := rfl

@[simp] theorem connTape_data (b : UInt8) (s : Bytes) (conn : List (Arrival ε)) :
    connTape (.data b s :: conn) = ofBytes (b :: s) ++ connTape conn := rfl

@[simp] theorem connTape_fault (e : ε) (conn : List (Arrival ε)) :
    connTape (.fault e :: conn) = .inr e :: connTape conn := rfl

/-- What a read of part of a piece leaves in the connection. -/
def unread : Bytes → List (Arrival ε) → List (Arrival ε)
  | [], conn => conn
  | b :: s, conn => .data b s :: conn

@[simp] theorem connTape_unread (s : Bytes) (conn : List (Arrival ε)) :
    connTape (unread s conn) = ofBytes s ++ connTape conn := by
  cases s <;> rfl

/-! ## Lines -/

def cutLine : Bytes → Option (Bytes × Bytes)
  | [] => none
  | b :: s =>
    if b = 10 then some ([b], s) else (cutLine s).map fun cut => (b :: cut.1, cut.2)

variable {s l : Bytes} {cap limit : Nat} {r : Reader ε} {rest : Tape ε}

theorem cutLine_of_notMem (h : 10 ∉ s) : cutLine s = none := by
  induction s with
  | nil => rfl
  | cons b s ih =>
    rw [List.mem_cons, not_or] at h
    rw [cutLine, if_neg (Ne.symm h.1), ih h.2]
    rfl

theorem line_of_cutLine {rest : Bytes} (h : cutLine s = some (l, rest)) (t : Tape ε) :
    line (ofBytes s ++ t) = (l, none, ofBytes rest ++ t) := by
  fun_induction cutLine s generalizing l with
  | case1 => cases h
  | case2 s =>
    cases h
    simp [line]
  | case3 b s hb ih =>
    obtain ⟨⟨l', rest'⟩, hcut, heq⟩ := Option.map_eq_some_iff.1 h
    cases heq
    simp [line, hb, ih hcut, prepend]

theorem line_of_not_cutLine (h : cutLine s = none) (t : Tape ε) :
    line (ofBytes s ++ t) = prepend s (line t) := by
  fun_induction cutLine s with
  | case1 => simp
  | case2 => cases h
  | case3 b s hb ih => simp [line, hb, ih (Option.map_eq_none_iff.1 h)]

inductive Ending (ε : Type*) where
  | delimiter
  | bufferFull
  | stopped (s : Stop ε)
  deriving DecidableEq

/-- `ReadSlice('\n')` on a buffer of the given capacity. Every read of the connection fills the
buffer as far as there is room; what does not fit stays in the connection. -/
def readSlice (cap : Nat) (buffer : Bytes) (conn : List (Arrival ε)) :
    Bytes × Ending ε × Reader ε :=
  match cutLine buffer with
  | some (l, rest) => (l, .delimiter, ⟨rest, conn⟩)
  | none =>
    if cap ≤ buffer.length then (buffer, .bufferFull, ⟨[], conn⟩)
    else
      match conn with
      | [] => (buffer, .stopped .eof, ⟨[], []⟩)
      | .fault e :: conn => (buffer, .stopped (.fault e), ⟨[], conn⟩)
      | .data b s :: conn =>
        let room := cap - buffer.length
        if (b :: s).length ≤ room then readSlice cap (buffer ++ b :: s) conn
        else
          -- the buffer is full now, so one more look at it settles the slice
          let filled := buffer ++ (b :: s).take room
          match cutLine filled with
          | some (l, rest) => (l, .delimiter, ⟨rest, unread ((b :: s).drop room) conn⟩)
          | none => (filled, .bufferFull, ⟨[], unread ((b :: s).drop room) conn⟩)

/-- What is still to be read of the line that a slice is the start of. -/
def afterSlice : Bytes × Ending ε × Reader ε → Taken ε
  | (fragment, .delimiter, r) => (fragment, none, r.tape)
  | (fragment, .stopped s, r) => (fragment, some s, r.tape)
  | (fragment, .bufferFull, r) => prepend fragment (Tape.line r.tape)

/-- The part of a piece that fits goes into the buffer, the rest stays in the connection. -/
theorem tape_filled (buffer : Bytes) (room : Nat) (b : UInt8) (conn : List (Arrival ε)) :
    ofBytes buffer ++ connTape (.data b s :: conn) =
      ofBytes (buffer ++ (b :: s).take room) ++ (ofBytes ((b :: s).drop room) ++ connTape conn) := by
  rw [connTape_data, ofBytes_append, List.append_assoc]
  congr 1
  rw [← List.append_assoc, ← ofBytes_append, List.take_append_drop]

/-- Slicing does not lose or reorder anything of the line. -/
theorem line_eq_afterSlice (cap : Nat) (buffer : Bytes) (conn : List (Arrival ε)) :
    line (ofBytes buffer ++ connTape conn) = afterSlice (readSlice cap buffer conn) := by
  fun_induction readSlice cap buffer conn with
  | case1 buffer conn l rest hcut => exact line_of_cutLine hcut _
  | case2 buffer conn hcut hfull => exact line_of_not_cutLine hcut _
  | case3 buffer hcut hfull =>
    simpa [afterSlice, Reader.tape, line, prepend] using line_of_not_cutLine hcut ([] : Tape ε)
  | case4 buffer hcut hfull e conn =>
    simpa [afterSlice, Reader.tape, line, prepend] using
      line_of_not_cutLine hcut (.inr e :: connTape conn)
  | case5 buffer hcut hfull b s conn room hfits ih =>
    -- the whole piece goes into the buffer
    rw [← ih, connTape_data, ofBytes_append, List.append_assoc]
  | case6 buffer hcut hfull b s conn room hfits filled l rest hcut' =>
    rw [tape_filled buffer room b conn, line_of_cutLine hcut', ← connTape_unread]
    rfl
  | case7 buffer hcut hfull b s conn room hfits filled hcut' =>
    rw [tape_filled buffer room b conn, line_of_not_cutLine hcut', ← connTape_unread]
    rfl

/-- A fragment of a line that did not fit is as long as the buffer. -/
theorem le_length_of_bufferFull (cap : Nat) (buffer : Bytes) (conn : List (Arrival ε))
    (h : (readSlice cap buffer conn).2.1 = .bufferFull) :
    cap ≤ (readSlice cap buffer conn).1.length := by
  fun_induction readSlice cap buffer conn with
  | case1 | case3 | case4 | case6 => cases h
  | case2 buffer conn hcut hfull => exact hfull
  | case5 buffer hcut hfull b s conn room hfits ih => exact ih h
  | case7 buffer hcut hfull b s conn room hfits filled hcut' =>
    simp only [filled, room, List.length_append, List.length_take]
    omega

inductive LineRead (ε : Type*) where
  | tooLong
  | text (l : Bytes) (stop : Option (Stop ε))
  deriving DecidableEq

/-- Collects the fragments of a line of at most `limit` octets; `l` is what has been collected. -/
def collectLine (cap limit : Nat) : Nat → Bytes → Reader ε → LineRead ε × Reader ε
  | 0, _, r => (.tooLong, r)
  | fuel + 1, l, r =>
    match readSlice cap r.buffer r.conn with
    | (fragment, ending, r) =>
      if limit < l.length + fragment.length then (.tooLong, r)
      else
        match ending with
        | .bufferFull => collectLine cap limit fuel (l ++ fragment) r
        | .delimiter => (.text (l ++ fragment) none, r)
        | .stopped s => (.text (l ++ fragment) (some s), r)

/-- Every fragment but the last one adds octets, so `limit + 1` fragments are enough. -/
def Reader.boundedLine (cap limit : Nat) (r : Reader ε) : LineRead ε × Reader ε :=
  collectLine cap limit (limit + 1) [] r

def Tape.boundedLine (limit : Nat) (t : Tape ε) : LineRead ε :=
  if limit < t.line.1.length then .tooLong else .text t.line.1 t.line.2.1

theorem collectLine_eq (hcap : 0 < cap) (limit fuel : Nat) (l : Bytes) (r : Reader ε)
    (hl : l.length ≤ limit) (hfuel : limit < l.length + fuel) :
    (collectLine cap limit fuel l r).1 =
        (if limit < l.length + r.tape.line.1.length then .tooLong
          else .text (l ++ r.tape.line.1) r.tape.line.2.1) ∧
      ((collectLine cap limit fuel l r).1 ≠ .tooLong →
        (collectLine cap limit fuel l r).2.tape = r.tape.line.2.2) := by
  induction fuel generalizing l r with
  | zero => omega
  | succ fuel ih =>
    have hslice := line_eq_afterSlice cap r.buffer r.conn
    have hlong := le_length_of_bufferFull cap r.buffer r.conn
    rw [← Reader.tape] at hslice
    unfold collectLine
    generalize readSlice cap r.buffer r.conn = slice at hslice hlong ⊢
    obtain ⟨fragment, ending, r'⟩ := slice
    cases ending with
    | delimiter | stopped =>
      simp only [afterSlice] at hslice
      simp only [hslice]
      split <;> simp
    | bufferFull =>
      -- the line goes on in the next fragment
      have hfragment : cap ≤ fragment.length := hlong rfl
      simp only [afterSlice, prepend] at hslice
      simp only [hslice, List.length_append]
      by_cases hover : limit < l.length + fragment.length
      · have htotal : limit < l.length + (fragment.length + r'.tape.line.1.length) := by omega
        simp [hover, htotal]
      have hrec := ih (l ++ fragment) r' (by rw [List.length_append]; omega)
        (by rw [List.length_append]; omega)
      simp only [hover, if_false]
      simpa [Nat.add_assoc] using hrec

/-- A bounded line depends on the tape only. After a line that was too long the position is
anywhere inside it. -/
theorem Reader.boundedLine_eq (hcap : 0 < cap) (limit : Nat) (r : Reader ε) :
    (r.boundedLine cap limit).1 = r.tape.boundedLine limit ∧
      (r.tape.boundedLine limit ≠ .tooLong →
        (r.boundedLine cap limit).2.tape = r.tape.line.2.2) := by
  obtain ⟨hres, hrest⟩ :=
    collectLine_eq hcap limit (limit + 1) [] r (Nat.zero_le limit) (by simp)
  have hsame : (r.boundedLine cap limit).1 = r.tape.boundedLine limit := by
    simpa [boundedLine, Tape.boundedLine] using hres
  refine ⟨hsame, fun h => hrest ?_⟩
  rw [← hsame] at h
  exact h

theorem Reader.line_of_boundedLine (hcap : 0 < cap) {r' : Reader ε} {stop : Option (Stop ε)}
    (h : r.boundedLine cap limit = (.text l stop, r')) : r.tape.line = (l, stop, r'.tape) := by
  obtain ⟨hres, hrest⟩ := boundedLine_eq hcap limit r
  rw [h] at hres hrest
  unfold Tape.boundedLine at hres hrest
  split at hres
  · cases hres
  rename_i hfits
  rw [if_neg hfits] at hrest
  obtain ⟨rfl, rfl⟩ : l = r.tape.line.1 ∧ stop = r.tape.line.2.1 := by simpa using hres
  rw [hrest (by simp)]

theorem Reader.boundedLine_of_line (hcap : 0 < cap) (h : r.tape.line = (l, none, rest))
    (hlen : l.length ≤ limit) :
    ∃ r', r.boundedLine cap limit = (.text l none, r') ∧ r'.tape = rest := by
  obtain ⟨hres, hrest⟩ := boundedLine_eq hcap limit r
  have htext : r.tape.boundedLine limit = .text l none := by
    rw [Tape.boundedLine, h, if_neg (Nat.not_lt.2 hlen)]
  rw [htext] at hres hrest
  refine ⟨(r.boundedLine cap limit).2, Prod.ext hres rfl, ?_⟩
  rw [hrest (by simp), h]

def dropLineEnd (l : Bytes) : Bytes :=
  match l.reverse with
  | 10 :: 13 :: r => r.reverse
  | 10 :: r => r.reverse
  | _ => l

/-- `ReadLine`: a fragment when the line does not fit the buffer, and an error only when nothing
was read before it. A carriage return at the end of a full buffer is left for the next read. -/
def Reader.readLine (cap : Nat) (r : Reader ε) : Option Bytes × Reader ε :=
  match readSlice cap r.buffer r.conn with
  | (fragment, .bufferFull, r') =>
    if fragment.getLast? = some 13 then (some fragment.dropLast, ⟨13 :: r'.buffer, r'.conn⟩)
    else (some fragment, r')
  | (fragment, _, r') =>
    if fragment = [] then (none, r') else (some (dropLineEnd fragment), r')

theorem Tape.line_ne_nil {t : Tape ε} (h : t.line = (l, none, rest)) : l ≠ [] := by
  rintro rfl
  cases (line_eq_none h).2.1

theorem Reader.readLine_of_line (h : r.tape.line = (l, none, rest)) (hlen : l.length ≤ cap) :
    ∃ r', r.readLine cap = (some (dropLineEnd l), r') ∧ r'.tape = rest := by
  have hslice := line_eq_afterSlice cap r.buffer r.conn
  have hfull := le_length_of_bufferFull cap r.buffer r.conn
  rw [show ofBytes r.buffer ++ connTape r.conn = r.tape from rfl, h] at hslice
  have hne := line_ne_nil h
  unfold readLine
  generalize readSlice cap r.buffer r.conn = slice at hslice hfull ⊢
  obtain ⟨fragment, _ | _ | stop, r'⟩ := slice
  · obtain ⟨rfl, htail⟩ := Prod.mk.inj hslice
    exact ⟨r', if_neg hne, (Prod.mk.inj htail).2.symm⟩
  · -- the rest of the line would take it over the buffer
    obtain ⟨hl, htail⟩ := Prod.mk.inj hslice
    have hmore := line_ne_nil (Prod.ext rfl htail.symm : r'.tape.line = (_, none, rest))
    have hlong : cap ≤ fragment.length := hfull rfl
    have hpos : 0 < r'.tape.line.fst.length := List.length_pos_iff.2 hmore
    rw [hl, List.length_append] at hlen
    omega
  · obtain ⟨-, htail⟩ := Prod.mk.inj hslice
    cases (Prod.mk.inj htail).1

theorem Reader.readLine_of_full (hcap : 0 < cap) {b : UInt8} (hlen : (b :: s).length = cap)
    (hline : cutLine (b :: s) = none) (hlast : (b :: s).getLast? ≠ some 13)
    (conn : List (Arrival ε)) :
    (⟨[], .data b s :: conn⟩ : Reader ε).readLine cap = (some (b :: s), ⟨[], conn⟩) := by
  have hfull : readSlice cap (b :: s) conn = (b :: s, .bufferFull, ⟨[], conn⟩) := by
    unfold readSlice
    simp only [hline, hlen, Nat.le_refl, if_true]
  have hslice : readSlice cap [] (.data b s :: conn) = (b :: s, .bufferFull, ⟨[], conn⟩) := by
    unfold readSlice
    simp only [cutLine, List.length_nil, Nat.not_le.2 hcap, if_false, Nat.sub_zero, hlen,
      Nat.le_refl, if_true, List.nil_append, hfull]
  rw [readLine]
  simp only [hslice, if_neg hlast]

/-! ## A number of octets -/

/-- The octets still wanted when the buffer is empty. A read for at least as many octets as the
buffer holds goes past the buffer. -/
def drawFrom (cap : Nat) : List (Arrival ε) → Nat → Bytes × Option (Stop ε) × Reader ε
  | [], _ => ([], some .eof, ⟨[], []⟩)
  | .fault e :: conn, _ => ([], some (.fault e), ⟨[], conn⟩)
  | .data b s :: conn, n =>
    if (b :: s).length < n then
      match drawFrom cap conn (n - (b :: s).length) with
      | (rest, stop, r) => (b :: s ++ rest, stop, r)
    else if cap ≤ n then ((b :: s).take n, none, ⟨[], unread ((b :: s).drop n) conn⟩)
    else
      ((b :: s).take n, none,
        ⟨((b :: s).take cap).drop n, unread ((b :: s).drop cap) conn⟩)

def Reader.readFull (cap n : Nat) (r : Reader ε) : Bytes × Option (Stop ε) × Reader ε :=
  if n ≤ r.buffer.length then (r.buffer.take n, none, ⟨r.buffer.drop n, r.conn⟩)
  else
    match drawFrom cap r.conn (n - r.buffer.length) with
    | (rest, stop, r') => (r.buffer ++ rest, stop, r')

theorem drawFrom_eq (conn : List (Arrival ε)) {n : Nat} (hn : 0 < n) :
    ((drawFrom cap conn n).1, (drawFrom cap conn n).2.1, (drawFrom cap conn n).2.2.tape) =
      full n (connTape conn) := by
  fun_induction drawFrom cap conn n with
  | case1 | case2 =>
    obtain ⟨m, rfl⟩ := Nat.exists_eq_add_of_le' hn
    rfl
  | case3 b s conn n hshort rest stop r hdraw ih =>
    have hrec := ih (Nat.sub_pos_of_lt hshort)
    rw [connTape_data, full_ofBytes_append (Nat.le_of_lt hshort), ← hrec, hdraw]
    rfl
  | case4 b s conn n hlong hdirect =>
    rw [connTape_data, full_ofBytes_take (Nat.le_of_not_lt hlong)]
    simp [Reader.tape]
  | case5 b s conn n hlong hbuffered =>
    -- the octets between `n` and `cap` are in the buffer, the others in the connection
    have hsplit : ((b :: s).take cap).drop n ++ (b :: s).drop cap = (b :: s).drop n := by
      rw [List.drop_take]
      have hcut := List.take_append_drop (cap - n) ((b :: s).drop n)
      rwa [List.drop_drop, Nat.add_sub_cancel' (by omega)] at hcut
    rw [connTape_data, full_ofBytes_take (Nat.le_of_not_lt hlong)]
    simp only [Reader.tape, connTape_unread, ← List.append_assoc, ← ofBytes_append, hsplit]

theorem Reader.readFull_eq (cap n : Nat) (r : Reader ε) :
    ((r.readFull cap n).1, (r.readFull cap n).2.1, (r.readFull cap n).2.2.tape) =
      r.tape.full n := by
  have htape : r.tape = ofBytes r.buffer ++ connTape r.conn := rfl
  unfold readFull
  by_cases hbuffered : n ≤ r.buffer.length
  · rw [if_pos hbuffered, htape, full_ofBytes_take hbuffered]
    rfl
  have hmissing : r.buffer.length < n := Nat.lt_of_not_le hbuffered
  rw [if_neg hbuffered, htape, full_ofBytes_append (Nat.le_of_lt hmissing),
    ← drawFrom_eq r.conn (Nat.sub_pos_of_lt hmissing)]
  rfl

theorem Reader.readFull_of_tape (cap : Nat) (h : r.tape = ofBytes s ++ rest) :
    ∃ r', r.readFull cap s.length = (s, none, r') ∧ r'.tape = rest := by
  have hread := r.readFull_eq cap s.length
  rw [full_eq_none_iff.2 ⟨rfl, h⟩] at hread
  obtain ⟨hbytes, htail⟩ := Prod.mk.inj hread
  obtain ⟨hstop, hrest⟩ := Prod.mk.inj htail
  exact ⟨(r.readFull cap s.length).2.2, Prod.ext hbytes (Prod.ext hstop rfl), hrest⟩

end BufferedReader

import Elemta.Foundation.Bytes

/-!
# Loop marks

A list and a forwarding address put a field on top of what they send on, and stop a message that
has their field already (`deliverList` in `routing.go`, `redirect` and `hasRedirectMark` in
`sieve_deliver.go`). The check looks for the field's text anywhere in the header block, letter case
aside: not at the start of a line, and not up to the end of one.

So a sender can write the text into any field, and the mark of `all@x.com` is found when
`all@x.co` is looked for. A stopped message is sure to have passed through the address that
stops it exactly where neither is the case.
-/

namespace Elemta.Mailbox

open Bytes

/-! ## The header block -/

/-- `bytes.Index`. -/
def index (sep s : Bytes) : Option Nat :=
  (cut sep s).map fun parts => parts.1.length

def headerEnd (raw : Bytes) : Option Nat :=
  match index [13, 10, 13, 10] raw, index [10, 10] raw with
  | some i, some j => if j < i then some (j + 2) else some (i + 4)
  | some i, none => some (i + 4)
  | none, some j => some (j + 2)
  | none, none => none

def headerBlock (raw : Bytes) : Bytes :=
  match headerEnd raw with
  | some n => raw.take n
  | none => raw

/-! ## Marks -/

inductive Mark where
  | list
  | redirect
  deriving DecidableEq

/-- `listHeader` and `redirectHeader`. -/
def Mark.header : Mark → Bytes
  | .list => lit "X-Elemta-List"
  | .redirect => lit "X-Elemta-Sieve-Redirected-By"

def Mark.field (m : Mark) (address : Bytes) : Bytes :=
  m.header ++ lit ": " ++ address

def hasMark (m : Mark) (raw address : Bytes) : Bool :=
  contains (toLower (headerBlock raw)) (toLower (m.field address))

def hasRedirectMark (raw rcpt : Bytes) : Bool :=
  hasMark .redirect raw rcpt

def oneLine (s : Bytes) : Bytes :=
  let s := (join [32] (fields s)).take 200
  if s = [] then lit "Rejected by the recipient's filter" else s

structure MailList where
  address : Bytes
  name : Bytes
  deriving DecidableEq

def MailList.id (l : MailList) : Bytes :=
  let id :=
    match cut [64] l.address with
    | some (localPart, domain) => lit "<" ++ localPart ++ lit "." ++ domain ++ lit ">"
    | none => lit "<" ++ l.address ++ lit ".>"
  if l.name = [] then id else oneLine (l.name.filter (· != 34)) ++ lit " " ++ id

def listMessage (l : MailList) (raw : Bytes) : Bytes :=
  (Mark.list.field l.address ++ [13, 10] ++ lit "List-Id: " ++ l.id ++ [13, 10]) ++ raw

def redirectMessage (rcpt raw : Bytes) : Bytes :=
  (Mark.redirect.field rcpt ++ [13, 10]) ++ raw

/-! ## The way of a message -/

/-- What happens to a message between its sender and a check. -/
inductive Hop where
  | posted (l : MailList)
  | forwarded (rcpt : Bytes)
  /-- Somebody else puts lines on top, such as trace fields. -/
  | carried (lines : List Bytes)
  deriving DecidableEq

def Hop.apply : Hop → Bytes → Bytes
  | .posted l, raw => listMessage l raw
  | .forwarded rcpt, raw => redirectMessage rcpt raw
  | .carried lines, raw => lines.flatMap (· ++ [13, 10]) ++ raw

def Hop.recorded : Hop → Mark → Option Bytes
  | .posted l, .list => some l.address
  | .forwarded rcpt, .redirect => some rcpt
  | _, _ => none

/-- The texts in what a hop adds that are somebody's choice. -/
def Hop.texts : Hop → List Bytes
  | .posted l => [l.address, lit "List-Id: " ++ l.id]
  | .forwarded rcpt => [rcpt]
  | .carried lines => lines

/-- A message after its hops; the last one is the head of the list. -/
def travelled (hops : List Hop) (original : Bytes) : Bytes :=
  hops.foldr Hop.apply original

def Recorded (m : Mark) (address : Bytes) (hops : List Hop) : Prop :=
  ∃ hop ∈ hops, ∃ a, hop.recorded m = some a ∧ toLower a = toLower address

/-- The text of a mark stands in the message by nobody's choice, and no address on record goes on
after the one that is looked for. -/
structure Unforged (m : Mark) (address : Bytes) (hops : List Hop) (original : Bytes) :
    Prop where
  original : contains (toLower (headerBlock original)) (toLower (m.field address)) = false
  texts : ∀ hop ∈ hops, ∀ text ∈ hop.texts,
    contains (toLower text) (toLower (m.field address)) = false
  longer : ∀ hop ∈ hops, ∀ a, hop.recorded m = some a → toLower address <+: toLower a →
    toLower a = toLower address

/-! ## Where a text stands -/

section

variable {c : UInt8} {sub s t : Bytes}

theorem infix_of_infix_append (hc : c ∉ s) (h : c :: sub <:+: s ++ t) : c :: sub <:+: t := by
  induction s with
  | nil => exact h
  | cons b s ih =>
    rw [List.mem_cons, not_or] at hc
    rcases List.infix_cons_iff.1 h with hstart | hrest
    · exact absurd (List.cons_prefix_cons.1 hstart).1 hc.1
    · exact ih hc.2 hrest

end

/-- An ASCII octet is no part of another letter. -/
theorem toLower_append {b : UInt8} (hb : b < 0x80) (s t : Bytes) :
    toLower (s ++ b :: t) = toLower s ++ lowerByte b :: toLower t := by
  have hhead : toLower (b :: t) = lowerByte b :: toLower t := by
    rw [toLower] <;> rintro _ rfl <;> exact absurd hb (by decide)
  fun_induction toLower s with
  | case1 r ih => rw [List.cons_append, List.cons_append, toLower, ih, List.cons_append]
  | case2 r ih =>
    rw [List.cons_append, List.cons_append, List.cons_append, toLower, ih, List.cons_append]
  | case3 c r h1 h2 ih =>
    rw [List.cons_append, toLower, ih, List.cons_append]
    · rintro r' rfl he
      cases r with
      | nil => exact absurd hb ((List.cons.inj he).1 ▸ by decide)
      | cons d r => exact h1 r rfl (by rw [(List.cons.inj he).1])
    · rintro r' rfl he
      rcases r with _ | ⟨d, _ | ⟨e, r⟩⟩
      · exact absurd hb ((List.cons.inj he).1 ▸ by decide)
      · exact absurd hb ((List.cons.inj (List.cons.inj he).2).1 ▸ by decide)
      · exact h2 r rfl (by rw [(List.cons.inj he).1, (List.cons.inj (List.cons.inj he).2).1])
  | case4 => exact hhead

/-! ## The header block of a message that was sent on -/

theorem index_cons (sep : Bytes) (b : UInt8) (s : Bytes) :
    index sep (b :: s) = if sep.isPrefixOf (b :: s) then some 0
      else (index sep s).map (· + 1) := by
  unfold index
  rw [cut]
  split
  · rfl
  · rw [Option.map_map, Option.map_map]
    rfl

/-- The block ends where the first blank line does. -/
theorem headerEnd_cons (b : UInt8) (raw : Bytes) :
    headerEnd (b :: raw) = if [13, 10, 13, 10].isPrefixOf (b :: raw) then some 4
      else if [10, 10].isPrefixOf (b :: raw) then some 2 else (headerEnd raw).map (· + 1) := by
  unfold headerEnd
  rw [index_cons, index_cons]
  by_cases hcrlf : [13, 10, 13, 10].isPrefixOf (b :: raw) = true
  · have hlf : ¬[10, 10].isPrefixOf (b :: raw) = true := by
      intro hlf
      rw [List.isPrefixOf_iff_prefix, List.cons_prefix_cons] at hcrlf hlf
      exact absurd (hcrlf.1.trans hlf.1.symm) (by decide)
    rw [if_pos hcrlf, if_neg hlf, if_pos hcrlf]
    cases index [10, 10] raw <;> rfl
  · by_cases hlf : [10, 10].isPrefixOf (b :: raw) = true
    · cases index [13, 10, 13, 10] raw <;> simp [hcrlf, hlf]
    · cases index [13, 10, 13, 10] raw <;> cases index [10, 10] raw <;> simp [hcrlf, hlf]
      split_ifs <;> rfl

variable {n : Nat} {raw : Bytes}

theorem two_le_headerEnd (h : headerEnd raw = some n) : 2 ≤ n := by
  unfold headerEnd at h
  split at h
  · split at h <;> cases h <;> omega
  · cases h
    omega
  · cases h
    omega
  · cases h

theorem headerEnd_append_le (s : Bytes) (h : headerEnd raw = some n) :
    ∃ n' ≤ s.length + n, headerEnd (s ++ raw) = some n' := by
  induction s with
  | nil => exact ⟨n, by simp, h⟩
  | cons b s ih =>
    obtain ⟨m, hle, hm⟩ := ih
    have htwo := two_le_headerEnd hm
    rw [List.cons_append, headerEnd_cons, hm, List.length_cons]
    by_cases hcrlf : [13, 10, 13, 10].isPrefixOf (b :: (s ++ raw)) = true
    · -- the block without `b` goes past the next two octets
      obtain ⟨r, hr⟩ := List.isPrefixOf_iff_prefix.1 hcrlf
      obtain ⟨-, hr⟩ := List.cons.inj hr
      rw [← hr, List.append_eq, List.cons_append, headerEnd_cons] at hm
      obtain ⟨k, hk, rfl⟩ := Option.map_eq_some_iff.1 hm
      have := two_le_headerEnd hk
      exact ⟨4, by omega, if_pos hcrlf⟩
    · rw [if_neg hcrlf]
      split
      · exact ⟨2, by omega, rfl⟩
      · exact ⟨m + 1, by omega, rfl⟩

/-- A header block that does not reach the end ends with a line. -/
theorem take_headerEnd (h : headerEnd raw = some n) : ∃ p, raw.take n = p ++ [10] := by
  induction raw generalizing n with
  | nil => cases h
  | cons b raw ih =>
    rw [headerEnd_cons] at h
    split at h
    · next hcrlf =>
      cases h
      obtain ⟨r, hr⟩ := List.isPrefixOf_iff_prefix.1 hcrlf
      exact ⟨[13, 10, 13], by rw [← hr]; rfl⟩
    split at h
    · next hlf =>
      cases h
      obtain ⟨r, hr⟩ := List.isPrefixOf_iff_prefix.1 hlf
      exact ⟨[10], by rw [← hr]; rfl⟩
    · obtain ⟨k, hk, rfl⟩ := Option.map_eq_some_iff.1 h
      obtain ⟨p, hp⟩ := ih hk
      exact ⟨b :: p, by rw [List.take_succ_cons, hp, List.cons_append]⟩

/-- What is put on top of a message comes before its header block. -/
theorem toLower_headerBlock_append (s raw : Bytes) :
    toLower (headerBlock (s ++ raw)) <+: toLower (s ++ headerBlock raw) := by
  unfold headerBlock
  cases hwhole : headerEnd (s ++ raw) with
  | none =>
    cases h : headerEnd raw with
    | none => exact List.prefix_rfl
    | some n =>
      obtain ⟨n', -, hn'⟩ := headerEnd_append_le s h
      cases hwhole.symm.trans hn'
  | some n' =>
    dsimp only
    obtain ⟨p, hp⟩ := take_headerEnd hwhole
    have hpre : (s ++ raw).take n' <+: s ++ headerBlock raw := by
      unfold headerBlock
      cases h : headerEnd raw with
      | none => exact List.take_prefix _ _
      | some n =>
        obtain ⟨k, hle, hk⟩ := headerEnd_append_le s h
        obtain rfl := Option.some.inj (hwhole.symm.trans hk)
        rw [← List.take_length_add_append]
        exact List.take_prefix_take_left hle
    rw [hp] at hpre ⊢
    obtain ⟨r, hr⟩ := hpre
    have hr' : s ++ headerBlock raw = p ++ 10 :: r := by rw [← hr, List.append_assoc]; rfl
    unfold headerBlock at hr'
    rw [hr', toLower_append (by decide), toLower_append (by decide)]
    exact (List.prefix_append_right_inj _).2 (List.cons_prefix_cons.2 ⟨rfl, List.nil_prefix⟩)

/-! ## The check -/

def Hop.lines : Hop → List Bytes
  | .posted l => [Mark.list.field l.address, lit "List-Id: " ++ l.id]
  | .forwarded rcpt => [Mark.redirect.field rcpt]
  | .carried lines => lines

def onTop (lines : List Bytes) (raw : Bytes) : Bytes :=
  lines.flatMap (· ++ [13, 10]) ++ raw

theorem onTop_cons (line : Bytes) (lines : List Bytes) (raw : Bytes) :
    onTop (line :: lines) raw = line ++ 13 :: 10 :: onTop lines raw := by
  simp [onTop]

theorem Hop.apply_eq (hop : Hop) (raw : Bytes) : hop.apply raw = onTop hop.lines raw := by
  cases hop with
  | posted l => simp [Hop.apply, Hop.lines, listMessage, onTop]
  | forwarded rcpt => simp [Hop.apply, Hop.lines, redirectMessage, onTop]
  | carried lines => rfl

section

variable {m : Mark} {address : Bytes}

theorem toLower_field (m : Mark) (address : Bytes) :
    toLower (m.field address) = toLower (m.header ++ [58]) ++ 32 :: toLower address := by
  have hsplit : m.field address = (m.header ++ [58]) ++ 32 :: address := by
    rw [Mark.field, List.append_assoc, List.append_assoc]
    rfl
  rw [hsplit, toLower_append (by decide)]
  rfl

theorem toLower_header (m : Mark) :
    ∃ rest, 120 ∉ rest ∧ toLower (m.header ++ [58]) = 120 :: rest := by
  cases m with
  | list => exact ⟨(toLower (Mark.list.header ++ [58])).tail, by decide, by decide⟩
  | redirect => exact ⟨(toLower (Mark.redirect.header ++ [58])).tail, by decide, by decide⟩

/-- The field of a mark stands in lines only as a part of one of them. -/
theorem field_infix_lines (hline : 13 ∉ toLower (m.field address)) (lines : List Bytes) (s : Bytes)
    (h : toLower (m.field address) <:+: toLower (onTop lines s)) :
    (∃ line ∈ lines, toLower (m.field address) <:+: toLower line) ∨
      toLower (m.field address) <:+: toLower s := by
  induction lines with
  | nil => exact .inr h
  | cons line lines ih =>
    rw [onTop_cons, toLower_append (by decide)] at h
    rcases infix_append_cons hline h with hfirst | hrest
    · exact .inl ⟨line, List.mem_cons_self .., hfirst⟩
    obtain ⟨rest, -, hrest'⟩ := toLower_header m
    rw [toLower_field, hrest'] at hrest ih ⊢
    have hrest'' := @infix_of_infix_append 120 _ [10] _ (by decide) hrest
    exact (ih hrest'').imp_left fun ⟨line', hmem, hin⟩ =>
      ⟨line', List.mem_cons_of_mem _ hmem, hin⟩

/-- In a field that was recorded, the field that is looked for stands at the start or behind the
name. -/
theorem field_infix_field {m' : Mark} {a : Bytes}
    (h : toLower (m.field address) <:+: toLower (m'.field a)) :
    toLower (m.field address) <:+: toLower a ∨ (m' = m ∧ toLower address <+: toLower a) := by
  obtain ⟨rest, -, hrest⟩ := toLower_header m
  obtain ⟨rest', hnot, hrest'⟩ := toLower_header m'
  rw [toLower_field m', hrest', List.cons_append] at h
  rcases List.infix_cons_iff.1 h with hstart | hbehind
  · right
    rw [← List.cons_append, ← hrest', toLower_field] at hstart
    have hmark : m' = m := by
      have htake := hstart.take 10
      rw [List.take_append_of_le_length (by cases m <;> decide),
        List.take_append_of_le_length (by cases m' <;> decide)] at htake
      revert htake
      cases m <;> cases m' <;> decide
    subst hmark
    exact ⟨rfl, (List.cons_prefix_cons.1 ((List.prefix_append_right_inj _).1 hstart)).2⟩
  · left
    rw [toLower_field, hrest] at hbehind ⊢
    have hbehind' := infix_of_infix_append hnot hbehind
    exact @infix_of_infix_append 120 _ [32] _ (by decide) hbehind'

variable {hop : Hop} {hops : List Hop} {original : Bytes}

/-- A line of a hop that holds the field is the one that records the address. -/
theorem recorded_of_line {line : Bytes} (hin : line ∈ hop.lines)
    (htexts : ∀ text ∈ hop.texts, contains (toLower text) (toLower (m.field address)) = false)
    (h : toLower (m.field address) <:+: toLower line) :
    ∃ a, hop.recorded m = some a ∧ toLower address <+: toLower a := by
  have hforeign {text : Bytes} (ht : text ∈ hop.texts) :
      ¬toLower (m.field address) <:+: toLower text := of_decide_eq_false (htexts text ht)
  cases hop with
  | posted l =>
    rcases List.mem_cons.1 hin with rfl | hid
    · obtain ⟨rfl, hpre⟩ := (field_infix_field h).resolve_left (hforeign (List.mem_cons_self ..))
      exact ⟨l.address, rfl, hpre⟩
    · exact absurd h (hforeign (List.mem_cons_of_mem _ hid))
  | forwarded rcpt =>
    obtain rfl := List.mem_singleton.1 hin
    obtain ⟨rfl, hpre⟩ := (field_infix_field h).resolve_left (hforeign (List.mem_cons_self ..))
    exact ⟨rcpt, rfl, hpre⟩
  | carried lines => exact absurd h (hforeign hin)

theorem mem_of_mem_toLower {s : Bytes} (h : 13 ∈ toLower s) : 13 ∈ s := by
  have hlower (b : UInt8) (hb : lowerByte b = 13) : b = 13 := by
    unfold lowerByte at hb
    grind
  fun_induction toLower s with
  | case1 r ih => exact .tail _ (.tail _ (ih ((List.mem_cons.1 h).resolve_left (by decide))))
  | case2 r ih =>
    exact .tail _ (.tail _ (.tail _ (ih ((List.mem_cons.1 h).resolve_left (by decide)))))
  | case3 b r _ _ ih =>
    rcases List.mem_cons.1 h with hb | hr
    · rw [hlower b hb.symm]
      exact .head _
    · exact .tail _ (ih hr)
  | case4 => exact h

theorem recorded_of_unforged (hline : 13 ∉ address) (hfair : Unforged m address hops original)
    (h : hasMark m (travelled hops original) address = true) : Recorded m address hops := by
  have hmark : 13 ∉ toLower (m.field address) := by
    rw [toLower_field]
    intro hmem
    rcases List.mem_append.1 hmem with hhead | htail
    · revert hhead
      cases m <;> decide
    · exact hline (mem_of_mem_toLower ((List.mem_cons.1 htail).resolve_left (by decide)))
  obtain ⟨horiginal, htexts, hlonger⟩ := hfair
  replace h : toLower (m.field address) <:+: toLower (headerBlock (travelled hops original)) :=
    of_decide_eq_true h
  -- from the last hop back: the field is in what a hop put on top, or was there before
  induction hops with
  | nil => exact absurd h (of_decide_eq_false horiginal)
  | cons hop hops ih =>
    rw [List.forall_mem_cons] at htexts hlonger
    have hmessage : travelled (hop :: hops) original =
        onTop hop.lines (travelled hops original) := hop.apply_eq _
    rw [hmessage] at h
    have hwhere := h.trans (toLower_headerBlock_append _ _).isInfix
    rcases field_infix_lines hmark _ _ hwhere with ⟨line, hin, hline'⟩ | hbefore
    · obtain ⟨a, ha, hpre⟩ := recorded_of_line hin htexts.1 hline'
      exact ⟨hop, List.mem_cons_self .., a, ha, hlonger.1 a ha hpre⟩
    · obtain ⟨hop', hmem, hrecorded⟩ := ih htexts.2 hlonger.2 hbefore
      exact ⟨hop', List.mem_cons_of_mem _ hmem, hrecorded⟩

/-! ## What the check finds -/

def Opens (raw : Bytes) : Prop :=
  ¬[13, 10] <+: raw ∧ ¬[10] <+: raw

/-- What a hop puts on top are lines, and none of them is blank. -/
def Hop.Proper (hop : Hop) : Prop :=
  ∀ line ∈ hop.lines, line ≠ [] ∧ 10 ∉ line

theorem Opens.line {raw line : Bytes} (hne : line ≠ []) (hlf : 10 ∉ line) :
    Opens (line ++ 13 :: raw) := by
  cases line with
  | nil => exact absurd rfl hne
  | cons b line =>
    refine ⟨fun h => ?_, fun h => ?_⟩
    · obtain ⟨-, h⟩ := List.cons_prefix_cons.1 h
      cases line with
      | nil => exact absurd (List.cons_prefix_cons.1 h).1 (by decide)
      | cons c line =>
        obtain ⟨rfl, -⟩ := List.cons_prefix_cons.1 h
        simp at hlf
    · obtain ⟨rfl, -⟩ := List.cons_prefix_cons.1 h
      simp at hlf

/-- The block behind an octet that is no part of a blank line. -/
theorem headerBlock_cons {b : UInt8} (hcrlf : ¬[13, 10, 13, 10] <+: b :: raw)
    (hlf : ¬[10, 10] <+: b :: raw) : headerBlock (b :: raw) = b :: headerBlock raw := by
  rw [← List.isPrefixOf_iff_prefix] at hcrlf hlf
  unfold headerBlock
  rw [headerEnd_cons, if_neg hcrlf, if_neg hlf]
  cases headerEnd raw <;> rfl

theorem headerBlock_line {raw line : Bytes} (hlf : 10 ∉ line) (hopens : Opens raw) :
    headerBlock (line ++ 13 :: 10 :: raw) = line ++ 13 :: 10 :: headerBlock raw := by
  induction line with
  | nil =>
    have hend : ¬[13, 10, 13, 10] <+: 13 :: 10 :: raw := fun h =>
      hopens.1 (List.cons_prefix_cons.1 (List.cons_prefix_cons.1 h).2).2
    have hend' : ¬[10, 10] <+: 10 :: raw := fun h => hopens.2 (List.cons_prefix_cons.1 h).2
    rw [List.nil_append, List.nil_append, headerBlock_cons hend (by simp),
      headerBlock_cons (by simp) hend']
  | cons b line ih =>
    obtain ⟨hb, hline⟩ := not_or.1 (mt List.mem_cons.2 hlf)
    rw [List.cons_append, headerBlock_cons, ih hline, List.cons_append]
    · intro h
      obtain ⟨-, h⟩ := List.cons_prefix_cons.1 h
      cases line with
      | nil => exact absurd (List.cons_prefix_cons.1 h).1 (by decide)
      | cons c line => exact hline (by simp [(List.cons_prefix_cons.1 h).1])
    · exact fun h => hb (List.cons_prefix_cons.1 h).1

/-- The block of a message that was sent on has the lines on top in it, and the block of the message
before. -/
theorem infix_headerBlock_lines (lines : List Bytes)
    (hproper : ∀ line ∈ lines, line ≠ [] ∧ 10 ∉ line) (hopens : Opens raw) :
    Opens (onTop lines raw) ∧
      (∀ line ∈ lines, toLower line <:+: toLower (headerBlock (onTop lines raw))) ∧
      toLower (headerBlock raw) <:+: toLower (headerBlock (onTop lines raw)) := by
  induction lines with
  | nil => exact ⟨hopens, by simp, List.infix_rfl⟩
  | cons line lines ih =>
    rw [List.forall_mem_cons] at hproper
    obtain ⟨hopens', hlines, hraw⟩ := ih hproper.2
    -- a line end is no part of a letter, so what stands on either side stays
    have hlower : toLower (headerBlock (onTop (line :: lines) raw)) =
        toLower line ++ 13 :: 10 :: toLower (headerBlock (onTop lines raw)) := by
      rw [onTop_cons, headerBlock_line hproper.1.2 hopens', toLower_append (by decide)]
      exact congrArg (toLower line ++ 13 :: ·) (toLower_append (s := []) (by decide) _)
    have hbehind : toLower (headerBlock (onTop lines raw)) <:+:
        toLower (headerBlock (onTop (line :: lines) raw)) := by
      rw [hlower]
      exact ⟨toLower line ++ [13, 10], [], by simp⟩
    refine ⟨?_, ?_, hraw.trans hbehind⟩
    · rw [onTop_cons]
      exact .line hproper.1.1 hproper.1.2
    · rw [List.forall_mem_cons]
      refine ⟨?_, fun line' hmem => (hlines line' hmem).trans hbehind⟩
      rw [hlower]
      exact (List.prefix_append _ _).isInfix

theorem infix_headerBlock_travelled (hopens : Opens original) (hproper : ∀ hop ∈ hops, hop.Proper) :
    Opens (travelled hops original) ∧
      (∀ hop ∈ hops, ∀ line ∈ hop.lines,
        toLower line <:+: toLower (headerBlock (travelled hops original))) ∧
      toLower (headerBlock original) <:+: toLower (headerBlock (travelled hops original)) := by
  induction hops with
  | nil => exact ⟨hopens, by simp, List.infix_rfl⟩
  | cons hop hops ih =>
    rw [List.forall_mem_cons] at hproper
    obtain ⟨hopens', hlines, horiginal⟩ := ih hproper.2
    obtain ⟨hopens'', hown, hbefore⟩ := infix_headerBlock_lines hop.lines hproper.1 hopens'
    rw [← hop.apply_eq] at hopens'' hown hbefore
    refine ⟨hopens'', ?_, horiginal.trans hbefore⟩
    rw [List.forall_mem_cons]
    exact ⟨hown, fun hop' hmem line hline => (hlines hop' hmem line hline).trans hbefore⟩

/-- A text that is somebody's choice, and the field of a recorded address, stand in a line of the
hop. -/
theorem Hop.texts_infix {text : Bytes} (h : text ∈ hop.texts) :
    ∃ line ∈ hop.lines, toLower text <:+: toLower line := by
  have hfield (m : Mark) (a : Bytes) : toLower a <:+: toLower (m.field a) := by
    rw [toLower_field]
    exact ⟨toLower (m.header ++ [58]) ++ [32], [], by simp⟩
  cases hop with
  | posted l =>
    rcases List.mem_cons.1 h with rfl | hid
    · exact ⟨_, List.mem_cons_self .., hfield .list _⟩
    · exact ⟨text, List.mem_cons_of_mem _ hid, List.infix_rfl⟩
  | forwarded rcpt =>
    obtain rfl := List.mem_singleton.1 h
    exact ⟨_, List.mem_cons_self .., hfield .redirect _⟩
  | carried lines => exact ⟨text, h, List.infix_rfl⟩

theorem Hop.field_mem_lines {a : Bytes} (h : hop.recorded m = some a) : m.field a ∈ hop.lines := by
  cases hop <;> cases m <;> cases h <;> exact List.mem_cons_self ..

/-- The check finds whatever is forged. -/
theorem unforged_of_not_hasMark (hopens : Opens original)
    (hproper : ∀ hop ∈ hops, hop.Proper) (h : hasMark m (travelled hops original) address = false) :
    Unforged m address hops original := by
  obtain ⟨-, hlines, horiginal⟩ := infix_headerBlock_travelled hopens hproper
  have hnone {s : Bytes}
      (hs : toLower s <:+: toLower (headerBlock (travelled hops original))) :
      ¬toLower (m.field address) <:+: toLower s := fun hfound =>
    of_decide_eq_false h (hfound.trans hs)
  refine ⟨decide_eq_false (hnone horiginal), fun hop hmem text htext => ?_,
    fun hop hmem a ha hpre => ?_⟩
  · obtain ⟨line, hline, htext⟩ := Hop.texts_infix htext
    exact decide_eq_false (hnone (htext.trans (hlines hop hmem line hline)))
  · refine absurd ?_ (hnone (hlines hop hmem _ (Hop.field_mem_lines ha)))
    rw [toLower_field, toLower_field]
    exact (List.prefix_append_right_inj _).2 (List.cons_prefix_cons.2 ⟨rfl, hpre⟩) |>.isInfix

/-- A message is stopped only if it has passed through the address that stops it, unless the text
of the mark was written into it or belongs to a longer address; and for messages made of lines
with a header on top, exactly then. -/
theorem recorded_of_hasMark (m : Mark) (address : Bytes) (hline : 13 ∉ address)
    (hops : List Hop) (original : Bytes) :
    (Unforged m address hops original →
      hasMark m (travelled hops original) address = true → Recorded m address hops) ∧
    (Opens original → (∀ hop ∈ hops, hop.Proper) →
      ((hasMark m (travelled hops original) address = true → Recorded m address hops) ↔
        Recorded m address hops ∨ Unforged m address hops original)) := by
  refine ⟨recorded_of_unforged hline, fun hopens hproper => ⟨fun honly => ?_, fun hcases hmark => ?_⟩⟩
  · cases hmark : hasMark m (travelled hops original) address with
    | true => exact .inl (honly hmark)
    | false => exact .inr (unforged_of_not_hasMark hopens hproper hmark)
  · exact hcases.elim id fun hfair => recorded_of_unforged hline hfair hmark

end

def postedHops : List Hop :=
  [.carried [lit "Received: from y.org"], .posted ⟨lit "all@x.org", lit "Everybody"⟩]

theorem recorded_of_hasMark_posted :
    Unforged .list (lit "All@x.org") postedHops (lit "Subject: hi\r\n\r\nX-Elemta-List: all@x.org") ∧
      hasMark .list (travelled postedHops (lit "Subject: hi\r\n\r\nX-Elemta-List: all@x.org"))
        (lit "All@x.org") = true ∧
      Recorded .list (lit "All@x.org") postedHops := by
  have hfair : Unforged .list (lit "All@x.org") postedHops
      (lit "Subject: hi\r\n\r\nX-Elemta-List: all@x.org") := by
    constructor
    · decide +kernel
    · decide +kernel
    · decide +kernel
  have hstopped : hasMark .list (travelled postedHops
      (lit "Subject: hi\r\n\r\nX-Elemta-List: all@x.org")) (lit "All@x.org") = true := by
    decide +kernel
  exact ⟨hfair, hstopped,
    (recorded_of_hasMark .list (lit "All@x.org") (by decide) _ _).1 hfair hstopped⟩

/-- Neither message was ever at `all@x.co`: the first has a subject that says so, the second came
through `all@x.com`. -/
theorem hasMark_elsewhere :
    hasMark .list (lit "Subject: x-elemta-list: all@x.co\r\n\r\nhi") (lit "all@x.co") = true ∧
      hasMark .list (travelled [.posted ⟨lit "all@x.com", []⟩] (lit "Subject: hi\r\n\r\nhi"))
        (lit "all@x.co") = true ∧
      hasRedirectMark (travelled [.forwarded (lit "me@x.com")] (lit "Subject: hi\r\n\r\nhi"))
        (lit "me@x.co") = true := by
  decide +kernel

end Elemta.Mailbox

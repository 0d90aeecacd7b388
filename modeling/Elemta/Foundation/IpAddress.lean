import Elemta.Foundation.Bytes
import Mathlib.Data.BitVec
import Mathlib.Data.List.TakeWhile

/-!
# Internet addresses

Addresses and networks of both families in the form in which programs keep
them: sixteen octets, the IPv4 addresses being those under `::ffff:0:0/96`.
Reading and writing follow the usual texts (dotted decimal, RFC 5952 with its
one `::`, a network as address and prefix length). What is written is read
back as the same address, so texts may serve as keys.
-/

namespace IpAddress

open Bytes

abbrev Address := BitVec 128

def is4 (a : Address) : Bool :=
  a >>> 32 == 0xffff#128

def truncate (bits : Nat) (a : Address) : Address :=
  (a >>> (128 - bits)) <<< (128 - bits)

/-! ## Writing -/

def digitsOf (base : Nat) : Nat → Nat → List Nat
  | 0, _ => []
  | count + 1, n => digitsOf base count (n / base) ++ [n % base]

def ofDigits (base : Nat) (digits : List Nat) : Nat :=
  digits.foldl (fun acc d => acc * base + d) 0

def hexDigit (d : Nat) : UInt8 :=
  UInt8.ofNat (if d < 10 then 48 + d else 87 + d)

def hexText (n : Nat) : Bytes :=
  (if 0x1000 ≤ n then [hexDigit (n / 0x1000)] else []) ++
    (if 0x100 ≤ n then [hexDigit (n / 0x100 % 16)] else []) ++
    (if 0x10 ≤ n then [hexDigit (n / 0x10 % 16)] else []) ++ [hexDigit (n % 16)]

def groups (a : Address) : List Nat :=
  digitsOf 0x10000 8 a.toNat

def zerosAt (gs : List Nat) (i : Nat) : Nat :=
  ((gs.drop i).takeWhile (· == 0)).length

/-- The first of the longest runs of at least two zero groups, as its start and length. -/
def zeroRun (gs : List Nat) : Option (Nat × Nat) :=
  (List.range gs.length).foldl (fun best i =>
    if 2 ≤ zerosAt gs i ∧ (best.map Prod.snd).getD 0 < zerosAt gs i then some (i, zerosAt gs i)
    else best) none

def colon : Bytes := [58]

def format6 (gs : List Nat) : Bytes :=
  match zeroRun gs with
  | none => join colon (gs.map hexText)
  | some (start, len) =>
    join colon ((gs.take start).map hexText) ++ [58, 58] ++
      join colon ((gs.drop (start + len)).map hexText)

def format4 (a : Address) : Bytes :=
  join [46] ((digitsOf 256 4 (a.toNat % 2 ^ 32)).map itoa)

def format (a : Address) : Bytes :=
  if is4 a then format4 a else format6 (groups a)

/-! ## Reading -/

def isHex (b : UInt8) : Bool :=
  (48 ≤ b && b ≤ 57) || (97 ≤ b && b ≤ 102) || (65 ≤ b && b ≤ 70)

def hexValue (b : UInt8) : Nat :=
  if b ≤ 57 then b.toNat - 48 else if b ≤ 70 then b.toNat - 55 else b.toNat - 87

/-- One decimal field of an IPv4 address; a leading zero is refused. -/
def octet (s : Bytes) : Option Nat :=
  if isDecimal s && (s.length == 1 || s.head? != some 48) && decide (decimalValue s ≤ 255) then
    some (decimalValue s)
  else none

def parse4 (s : Bytes) : Option Nat :=
  let parts := split [46] s
  if parts.length = 4 then (parts.mapM octet).map (ofDigits 256) else none

/-- The groups up to the end of the text; `gap` is where `::` stood, and an IPv4 address may
take the place of the last two groups. -/
def parseGroups : Nat → List Nat → Option Nat → Bytes → Option (List Nat × Option Nat)
  | 0, gs, gap, s => if s = [] then some (gs, gap) else none
  | fuel + 1, gs, gap, s =>
    let digits := s.takeWhile isHex
    if digits = [] ∨ 4 < digits.length then none
    else
      let gs' := gs ++ [ofDigits 16 (digits.map hexValue)]
      match s.dropWhile isHex with
      | [] => some (gs', gap)
      | 46 :: _ =>
        if (gap = none ∧ gs.length ≠ 6) ∨ 6 < gs.length then none
        else (parse4 s).map fun n => (gs ++ [n / 0x10000, n % 0x10000], gap)
      | [58] => none
      | 58 :: 58 :: rest =>
        if gap.isSome then none
        else if rest = [] then some (gs', some gs'.length)
        else parseGroups fuel gs' (some gs'.length) rest
      | 58 :: rest => parseGroups fuel gs' gap rest
      | _ => none

def fillGap (gs : List Nat) : Option Nat → Option (List Nat)
  | none => if gs.length = 8 then some gs else none
  | some at_ =>
    if gs.length < 8 then some (gs.take at_ ++ List.replicate (8 - gs.length) 0 ++ gs.drop at_)
    else none

def parse6 (s : Bytes) : Option (List Nat) :=
  if s = [58, 58] then some (List.replicate 8 0)
  else do
    let (gs, gap) ←
      if hasPrefix s [58, 58] then parseGroups 8 [] (some 0) (s.drop 2)
      else parseGroups 8 [] none s
    fillGap gs gap

/-- The family that the text is written in: IPv4 if the flag is set. -/
def parseAddr (s : Bytes) : Option (Bool × Address) :=
  if 37 ∈ s then none
  else
    match s.find? fun b => b == 46 || b == 58 with
    | some 46 => (parse4 s).map fun n => (true, BitVec.ofNat 128 (0xffff * 2 ^ 32 + n))
    | some 58 => (parse6 s).map fun gs => (false, BitVec.ofNat 128 (ofDigits 0x10000 gs))
    | _ => none

def parseIP (s : Bytes) : Option Address :=
  (parseAddr s).map Prod.snd

/-! ## Digits -/

@[simp] theorem ofDigits_append (base : Nat) (ds : List Nat) (d : Nat) :
    ofDigits base (ds ++ [d]) = ofDigits base ds * base + d := by
  simp [ofDigits]

variable {count n d g start : Nat} {b : UInt8} {gs : List Nat} {s : Bytes}

theorem ofDigits_digitsOf {base : Nat} (h : n < base ^ count) :
    ofDigits base (digitsOf base count n) = n := by
  induction count generalizing n with
  | zero => simp_all [digitsOf, ofDigits]
  | succ count ih =>
    have hdiv : n / base < base ^ count := Nat.div_lt_of_lt_mul (by rwa [Nat.pow_succ'] at h)
    rw [digitsOf, ofDigits_append, ih hdiv, Nat.div_add_mod']

@[simp] theorem length_digitsOf (base count n : Nat) : (digitsOf base count n).length = count := by
  induction count generalizing n with
  | zero => rfl
  | succ count ih => simp [digitsOf, ih]

theorem lt_of_mem_digitsOf {base : Nat} (hbase : 0 < base) (h : d ∈ digitsOf base count n) :
    d < base := by
  induction count generalizing n with
  | zero => cases h
  | succ count ih =>
    rcases List.mem_append.1 h with h | h
    · exact ih h
    · rw [List.mem_singleton.1 h]
      exact Nat.mod_lt n hbase

theorem hexValue_hexDigit (h : d < 16) : hexValue (hexDigit d) = d := by
  revert d
  decide

theorem isHex_hexDigit (h : d < 16) : isHex (hexDigit d) = true := by
  revert d
  decide

theorem isHex_of_mem_hexText (h : n < 0x10000) (hb : b ∈ hexText n) : isHex b = true := by
  simp only [hexText, List.mem_append, List.mem_singleton, List.mem_ite_nil_right] at hb
  rcases hb with ((⟨-, rfl⟩ | ⟨-, rfl⟩) | ⟨-, rfl⟩) | rfl <;> exact isHex_hexDigit (by omega)

theorem hexText_ne_nil : hexText n ≠ [] := by
  simp [hexText]

/-! ## Reading what was written -/

theorem ofDigits_hexText (hg : g < 0x10000) : ofDigits 16 ((hexText g).map hexValue) = g := by
  have hfirst : hexValue (hexDigit (g / 0x1000)) = g / 0x1000 := hexValue_hexDigit (by omega)
  have hrest (n : Nat) : hexValue (hexDigit (n % 16)) = n % 16 := hexValue_hexDigit (by omega)
  unfold hexText
  split_ifs <;> simp [ofDigits, hfirst, hrest] <;> omega

theorem hexText_fits : ¬ (hexText g = [] ∨ 4 < (hexText g).length) := by
  unfold hexText
  split_ifs <;> simp

section Group

variable {fuel g : Nat} {gs : List Nat} {gap : Option Nat} {rest : Bytes}

theorem takeWhile_hexText (hg : g < 0x10000) (hrest : ∀ b ∈ rest.head?, isHex b = false) :
    (hexText g ++ rest).takeWhile isHex = hexText g := by
  rw [List.takeWhile_append_of_pos fun b hb => isHex_of_mem_hexText hg hb]
  cases rest with
  | nil => simp
  | cons b rest => simp [hrest b rfl]

theorem dropWhile_hexText (hg : g < 0x10000) (hrest : ∀ b ∈ rest.head?, isHex b = false) :
    (hexText g ++ rest).dropWhile isHex = rest := by
  rw [List.dropWhile_append_of_pos fun b hb => isHex_of_mem_hexText hg hb]
  cases rest with
  | nil => rfl
  | cons b rest => simp [hrest b rfl]

/-! A group is read, and what follows it decides how it goes on: the end, a colon with a
further group, or the gap. -/

theorem parseGroups_last (hg : g < 0x10000) :
    parseGroups (fuel + 1) gs gap (hexText g) = some (gs ++ [g], gap) := by
  have htake : (hexText g ++ []).takeWhile isHex = hexText g := takeWhile_hexText hg (by simp)
  have hdrop : (hexText g ++ []).dropWhile isHex = [] := dropWhile_hexText hg (by simp)
  rw [List.append_nil] at htake hdrop
  rw [parseGroups]
  simp only [htake, hdrop, ofDigits_hexText hg, if_neg (hexText_fits)]

theorem parseGroups_next (hg : g < 0x10000) (hhead : ∃ b, rest.head? = some b ∧ isHex b = true) :
    parseGroups (fuel + 1) gs gap (hexText g ++ 58 :: rest) =
      parseGroups fuel (gs ++ [g]) gap rest := by
  have hfront : ∀ b ∈ (58 :: rest).head?, isHex b = false := by simp; decide
  rw [parseGroups]
  simp only [takeWhile_hexText hg hfront, dropWhile_hexText hg hfront, ofDigits_hexText hg,
    if_neg (hexText_fits)]
  obtain ⟨b, hb, hhex⟩ := hhead
  split <;> simp_all

theorem parseGroups_gap (hg : g < 0x10000) :
    parseGroups (fuel + 1) gs none (hexText g ++ 58 :: 58 :: rest) =
      if rest = [] then some (gs ++ [g], some (gs.length + 1))
      else parseGroups fuel (gs ++ [g]) (some (gs.length + 1)) rest := by
  have hfront : ∀ b ∈ (58 :: 58 :: rest).head?, isHex b = false := by simp; decide
  rw [parseGroups]
  simp [takeWhile_hexText hg hfront, dropWhile_hexText hg hfront, ofDigits_hexText hg,
    if_neg (hexText_fits)]

end Group

theorem join_hexText_cons (hne : gs ≠ []) :
    join colon ((g :: gs).map hexText) = hexText g ++ 58 :: join colon (gs.map hexText) := by
  rw [List.map_cons, join_cons (by simpa using hne)]
  simp [colon]

section

variable (hne : gs ≠ []) (hgs : ∀ g ∈ gs, g < 0x10000)

include hne hgs

theorem head_join_hexText (rest : Bytes) :
    ∃ b, (join colon (gs.map hexText) ++ rest).head? = some b ∧ isHex b = true := by
  obtain ⟨g, gs, rfl⟩ := List.exists_cons_of_ne_nil hne
  obtain ⟨b, t, ht⟩ := List.exists_cons_of_ne_nil (hexText_ne_nil)
  have hb := isHex_of_mem_hexText (hgs g List.mem_cons_self)
    (ht ▸ List.mem_cons_self : b ∈ hexText g)
  refine ⟨b, ?_, hb⟩
  cases gs with
  | nil => simp [join, List.intercalate, ht]
  | cons g' gs => simp [join_cons, ht]

theorem join_hexText_ne_nil : join colon (gs.map hexText) ≠ [] := by
  obtain ⟨b, hb, -⟩ := head_join_hexText hne hgs []
  intro hnil
  rw [hnil] at hb
  cases hb

/-- Groups with a colon between them are read up to the end. -/
theorem parseGroups_join {gs' : List Nat} {gap : Option Nat} {fuel : Nat} (hfuel : gs.length ≤ fuel) :
    parseGroups fuel gs' gap (join colon (gs.map hexText)) = some (gs' ++ gs, gap) := by
  induction gs generalizing gs' fuel with
  | nil => exact absurd rfl hne
  | cons g gs ih =>
    obtain ⟨fuel, rfl⟩ : ∃ k, fuel = k + 1 := ⟨fuel - 1, by simp at hfuel; omega⟩
    have hg := hgs g List.mem_cons_self
    by_cases hlast : gs = []
    · subst hlast
      simpa [join, List.intercalate] using parseGroups_last hg
    have htail : ∀ k ∈ gs, k < 0x10000 := fun k hk => hgs k (List.mem_cons_of_mem g hk)
    have hhead := head_join_hexText hlast htail []
    rw [List.append_nil] at hhead
    rw [join_hexText_cons hlast, parseGroups_next hg hhead, ih hlast htail (by simpa using hfuel)]
    simp

end

/-- Groups are read up to the gap, and those behind it up to the end. -/
theorem parseGroups_join_gap {gs gs' gs'' : List Nat} {fuel : Nat} (hne : gs ≠ [])
    (hgs : ∀ g ∈ gs, g < 0x10000) (hgs' : ∀ g ∈ gs', g < 0x10000)
    (hfuel : gs.length + gs'.length ≤ fuel) :
    parseGroups fuel gs'' none
        (join colon (gs.map hexText) ++ 58 :: 58 :: join colon (gs'.map hexText)) =
      some (gs'' ++ gs ++ gs', some (gs''.length + gs.length)) := by
  induction gs generalizing gs'' fuel with
  | nil => exact absurd rfl hne
  | cons g gs ih =>
    obtain ⟨fuel, rfl⟩ : ∃ k, fuel = k + 1 := ⟨fuel - 1, by simp at hfuel; omega⟩
    have hg := hgs g List.mem_cons_self
    by_cases hlast : gs = []
    · subst hlast
      have hfuel' : gs'.length ≤ fuel := by simp at hfuel; omega
      have hone : join colon ([g].map hexText) = hexText g := by simp [join, List.intercalate]
      rw [hone, parseGroups_gap hg]
      by_cases hend : gs' = []
      · subst hend
        simp [join, List.intercalate]
      · rw [if_neg (join_hexText_ne_nil hend hgs'), parseGroups_join hend hgs' hfuel']
        simp
    · have htail : ∀ k ∈ gs, k < 0x10000 := fun k hk => hgs k (List.mem_cons_of_mem g hk)
      have hhead := head_join_hexText hlast htail (58 :: 58 :: join colon (gs'.map hexText))
      rw [join_hexText_cons hlast, List.append_assoc, List.cons_append, parseGroups_next hg hhead,
        ih hlast htail (by simp at hfuel ⊢; omega)]
      simp [Nat.add_assoc, Nat.add_comm 1]

/-! The run of zeros that `::` stands for. -/

theorem zerosAt_spec (i : Nat) :
    (gs.drop i).take (zerosAt gs i) = List.replicate (zerosAt gs i) 0 := by
  have hpre : (gs.drop i).takeWhile (· == 0) <+: gs.drop i := List.takeWhile_prefix _
  have hzero : ∀ g ∈ (gs.drop i).takeWhile (· == 0), g = 0 := by
    intro g hg
    simpa using List.mem_takeWhile_imp hg
  rw [zerosAt, ← List.prefix_iff_eq_take.1 hpre]
  exact List.eq_replicate_of_mem hzero

theorem zeroRun_spec {len : Nat} (h : zeroRun gs = some (start, len)) :
    start < gs.length ∧ 2 ≤ len ∧ len = zerosAt gs start := by
  have hinv : ∀ p ∈ zeroRun gs, p.1 < gs.length ∧ 2 ≤ p.2 ∧ p.2 = zerosAt gs p.1 := by
    refine List.foldlRecOn _ _
      (motive := fun (best : Option (Nat × Nat)) =>
        ∀ p ∈ best, p.1 < gs.length ∧ 2 ≤ p.2 ∧ p.2 = zerosAt gs p.1)
      (by simp) fun best hbest i hi p hp => ?_
    split at hp
    · rename_i hcond
      obtain rfl := Option.mem_some_iff.1 hp
      exact ⟨List.mem_range.1 hi, hcond.1, rfl⟩
    · exact hbest p hp
  exact hinv (start, len) h

theorem zerosAt_le (gs : List Nat) (i : Nat) : zerosAt gs i ≤ gs.length - i := by
  have hlen := (List.takeWhile_prefix (· == 0) : (gs.drop i).takeWhile (· == 0) <+: gs.drop i).length_le
  simpa [zerosAt] using hlen

theorem zeroRun_split {len : Nat} (h : zeroRun gs = some (start, len)) :
    gs = gs.take start ++ List.replicate len 0 ++ gs.drop (start + len) := by
  obtain ⟨-, -, rfl⟩ := zeroRun_spec h
  calc
    gs = gs.take start ++ gs.drop start := (List.take_append_drop start gs).symm
    _ = gs.take start ++ ((gs.drop start).take (zerosAt gs start) ++
          (gs.drop start).drop (zerosAt gs start)) := by rw [List.take_append_drop (zerosAt gs start)]
    _ = gs.take start ++ List.replicate (zerosAt gs start) 0 ++
          gs.drop (start + zerosAt gs start) := by
      rw [zerosAt_spec, List.drop_drop, List.append_assoc]

theorem parse6_of_hex (hb : s.head? = some b) (hhex : isHex b = true) :
    parse6 s = (parseGroups 8 [] none s).bind fun r => fillGap r.1 r.2 := by
  have hcolon : b ≠ 58 := by
    rintro rfl
    cases hhex
  obtain ⟨t, rfl⟩ := List.head?_eq_some_iff.1 hb
  simp [parse6, hasPrefix, List.isPrefixOf, hcolon, Ne.symm hcolon]

theorem parse6_format6 (hlen : gs.length = 8) (hgs : ∀ g ∈ gs, g < 0x10000) :
    parse6 (format6 gs) = some gs := by
  unfold format6
  cases hrun : zeroRun gs with
  | none =>
    have hne : gs ≠ [] := by
      rintro rfl
      simp at hlen
    obtain ⟨b, hb, hhex⟩ := head_join_hexText hne hgs []
    rw [List.append_nil] at hb
    simp [parse6_of_hex hb hhex, parseGroups_join hne hgs hlen.le, fillGap, hlen]
  | some run =>
    obtain ⟨start, len⟩ := run
    have hsplit := zeroRun_split hrun
    obtain ⟨hstart, hmin, hlenEq⟩ := zeroRun_spec hrun
    have hmax := zerosAt_le gs start
    have htake : ∀ g ∈ gs.take start, g < 0x10000 := fun g hg => hgs g (List.mem_of_mem_take hg)
    have hdrop : ∀ g ∈ gs.drop (start + len), g < 0x10000 := fun g hg =>
      hgs g (List.mem_of_mem_drop hg)
    have hcount : (gs.take start).length + (gs.drop (start + len)).length = 8 - len := by
      simp only [List.length_take, List.length_drop]
      omega
    -- what stands for the gap is as long as the run
    have hfill : fillGap (gs.take start ++ gs.drop (start + len)) (some (gs.take start).length) =
        some gs := by
      have hlt : (gs.take start ++ gs.drop (start + len)).length < 8 := by
        rw [List.length_append]
        omega
      have hzeros : 8 - (gs.take start ++ gs.drop (start + len)).length = len := by
        rw [List.length_append]
        omega
      rw [fillGap, if_pos hlt, hzeros, List.take_left, List.drop_left, ← hsplit]
    simp only [List.append_assoc]
    by_cases hfirst : gs.take start = []
    · rw [hfirst] at hfill hcount ⊢
      by_cases hend : gs.drop (start + len) = []
      · -- all groups are zero
        rw [hfirst, hend] at hsplit
        have hall : len = 8 := by simpa [hlen] using (congrArg List.length hsplit).symm
        rw [hsplit, hall]
        simp [parse6, join, List.intercalate]
      · have hnot : join colon ((gs.drop (start + len)).map hexText) ≠ [] :=
          join_hexText_ne_nil hend hdrop
        have hread : parseGroups 8 [] (some 0) (join colon ((gs.drop (start + len)).map hexText)) =
            some ([] ++ gs.drop (start + len), some 0) :=
          parseGroups_join hend hdrop (by omega)
        simp only [List.length_nil, List.nil_append] at hfill
        simp [parse6, join, List.intercalate, hasPrefix, List.isPrefixOf] at hread hnot ⊢
        simp [hnot, hread, hfill]
    · obtain ⟨b, hb, hhex⟩ := head_join_hexText hfirst htake
        ([58, 58] ++ join colon ((gs.drop (start + len)).map hexText))
      have hfuel : (gs.take start).length + (gs.drop (start + len)).length ≤ 8 := by omega
      rw [parse6_of_hex hb hhex]
      exact (congrArg (Option.bind · _) (@parseGroups_join_gap _ _ [] _ hfirst htake hdrop hfuel)).trans
        (by simpa using hfill)

theorem octet_itoa (h : n < 256) : octet (itoa n) = some n := by
  have hall : ∀ n < 256, octet (itoa n) = some n := by decide +kernel
  exact hall n h

theorem mapM_octet {ds : List Nat} (h : ∀ d ∈ ds, d < 256) : (ds.map itoa).mapM octet = some ds := by
  induction ds with
  | nil => rfl
  | cons d ds ih =>
    have htail := ih fun k hk => h k (List.mem_cons_of_mem d hk)
    simp [List.mapM_cons, octet_itoa (h d List.mem_cons_self), htail]

variable (a : Address)

theorem octets_lt : ∀ d ∈ digitsOf 256 4 (a.toNat % 2 ^ 32), d < 256 :=
  fun _ hd => lt_of_mem_digitsOf (by decide) hd

theorem parse4_format4 : parse4 (format4 a) = some (a.toNat % 2 ^ 32) := by
  have hval : ofDigits 256 (digitsOf 256 4 (a.toNat % 2 ^ 32)) = a.toNat % 2 ^ 32 :=
    ofDigits_digitsOf (Nat.mod_lt _ (by decide))
  have hsplit : split [46] (format4 a) = (digitsOf 256 4 (a.toNat % 2 ^ 32)).map itoa := by
    refine split_join (by simp [digitsOf]) ?_
    intro part hpart hdot
    obtain ⟨d, hd, rfl⟩ := List.mem_map.1 hpart
    exact absurd (isDigit_of_mem_itoa hdot) (by decide)
  have hlen : ((digitsOf 256 4 (a.toNat % 2 ^ 32)).map itoa).length = 4 := by
    rw [List.length_map, length_digitsOf]
  simp only [parse4, hsplit, hlen, if_true, mapM_octet (octets_lt a), Option.map_some, hval]

theorem is4_iff : is4 a = true ↔ a.toNat / 2 ^ 32 = 0xffff := by
  rw [is4, beq_iff_eq, ← BitVec.toNat_inj, BitVec.toNat_ushiftRight, Nat.shiftRight_eq_div_pow]
  rfl

theorem groups_lt : ∀ g ∈ groups a, g < 0x10000 :=
  fun _ hg => lt_of_mem_digitsOf (by decide) hg

theorem ofDigits_groups : ofDigits 0x10000 (groups a) = a.toNat :=
  ofDigits_digitsOf (by simpa using a.isLt)

theorem of_mem_format4 {a : Address} (h : b ∈ format4 a) : b = 46 ∨ isHex b = true := by
  rcases mem_join h with h | ⟨part, hpart, h⟩
  · exact .inl (List.mem_singleton.1 h)
  · obtain ⟨d, hd, rfl⟩ := List.mem_map.1 hpart
    exact .inr (Bool.or_eq_true_iff.2 (.inl (Bool.or_eq_true_iff.2 (.inl (isDigit_of_mem_itoa h)))))

theorem of_mem_format6 (hgs : ∀ g ∈ gs, g < 0x10000) (h : b ∈ format6 gs) :
    b = 58 ∨ isHex b = true := by
  have hjoin : ∀ gs' ⊆ gs, b ∈ join colon (gs'.map hexText) → b = 58 ∨ isHex b = true := by
    intro gs' hsub hb
    rcases mem_join hb with hb | ⟨part, hpart, hb⟩
    · exact .inl (List.mem_singleton.1 hb)
    · obtain ⟨g, hg, rfl⟩ := List.mem_map.1 hpart
      exact .inr (isHex_of_mem_hexText (hgs g (hsub hg)) hb)
  unfold format6 at h
  split at h
  · exact hjoin gs (List.Subset.refl gs) h
  rw [List.mem_append, List.mem_append] at h
  rcases h with (h | h) | h
  · exact hjoin _ (List.take_subset ..) h
  · exact .inl (by simpa using h)
  · exact hjoin _ (List.drop_subset ..) h

theorem mem_join_sep {sep part : Bytes} {parts : List Bytes} (hne : parts ≠ []) {c : UInt8}
    (hc : c ∈ sep) : c ∈ join sep (part :: parts) := by
  rw [join_cons hne]
  simp [hc]

theorem colon_mem_format6 (hlen : gs.length = 8) : 58 ∈ format6 gs := by
  unfold format6
  split
  · obtain ⟨g, gs, rfl⟩ := List.exists_cons_of_ne_nil (List.ne_nil_of_length_eq_add_one hlen)
    refine mem_join_sep ?_ (by simp [colon])
    rintro hnil
    simp_all
  · simp

/-- The separator that stands between digits is the first that is found. -/
theorem find_separator {c : UInt8} (hc : c = 46 ∨ c = 58) (hmem : c ∈ s)
    (honly : ∀ b ∈ s, b = c ∨ isHex b = true) :
    37 ∉ s ∧ s.find? (fun b => b == 46 || b == 58) = some c := by
  constructor
  · intro h
    rcases honly 37 h with rfl | hhex
    · exact absurd hc (by decide)
    · cases hhex
  · cases hfind : s.find? fun b => b == 46 || b == 58 with
    | none => exact absurd (List.find?_eq_none.1 hfind c hmem) (by simp [hc])
    | some b =>
      rcases honly b (List.mem_of_find?_eq_some hfind) with rfl | hhex
      · rfl
      have hb : b = 46 ∨ b = 58 := by simpa using List.find?_some hfind
      rcases hb with rfl | rfl
      · cases hhex
      · cases hhex

theorem parseAddr_format : parseAddr (format a) = some (is4 a, a) := by
  unfold format
  split
  · rename_i h4
    have hdot : (46 : UInt8) ∈ format4 a := by
      obtain ⟨d, ds, hds⟩ := List.exists_cons_of_ne_nil
        (List.ne_nil_of_length_eq_add_one (length_digitsOf 256 4 (a.toNat % 2 ^ 32)))
      rw [format4, hds]
      refine mem_join_sep ?_ (by simp)
      rintro hnil
      have hlen := congrArg List.length hds
      rw [List.map_eq_nil_iff.1 hnil] at hlen
      cases hlen
    obtain ⟨hno, hfind⟩ := find_separator (.inl rfl) hdot fun b => of_mem_format4
    have hvalue : 0xffff * 2 ^ 32 + a.toNat % 2 ^ 32 = a.toNat := by
      have hhigh := (is4_iff a).1 h4
      omega
    rw [parseAddr, if_neg hno, hfind, h4]
    simp only [parse4_format4, Option.map_some, hvalue, BitVec.ofNat_toNat, BitVec.setWidth_eq]
  · rename_i h4
    have hlen : (groups a).length = 8 := length_digitsOf ..
    obtain ⟨hno, hfind⟩ := find_separator (.inr rfl) (colon_mem_format6 hlen)
      fun b => of_mem_format6 (groups_lt a)
    rw [parseAddr, if_neg hno, hfind, Bool.eq_false_iff.2 h4]
    simp only [parse6_format6 hlen (groups_lt a), Option.map_some, ofDigits_groups,
      BitVec.ofNat_toNat, BitVec.setWidth_eq]

theorem parseIP_format : parseIP (format a) = some a := by
  rw [parseIP, parseAddr_format]
  rfl

theorem format_ne_nil : format a ≠ [] := by
  intro h
  have hread := parseIP_format a
  rw [h] at hread
  exact absurd hread (by simp [parseIP, parseAddr])

theorem slash_notMem_format : 47 ∉ format a := by
  unfold format
  split
  · intro h
    rcases of_mem_format4 h with h | h <;> cases h
  · intro h
    rcases of_mem_format6 (groups_lt a) h with h | h <;> cases h

/-! ## Prefixes -/

theorem getLsbD_truncate (bits : Nat) (a : Address) (i : Nat) :
    (truncate bits a).getLsbD i = (decide (128 - bits ≤ i) && a.getLsbD i) := by
  rw [truncate, BitVec.getLsbD_shiftLeft]
  by_cases hi : i < 128
  · by_cases hk : i < 128 - bits
    · simp [hk, Nat.not_le.2 hk]
    · have hle := Nat.not_lt.1 hk
      simp [hi, hk, hle, Nat.add_sub_cancel' hle]
  · have hout : a.getLsbD i = false := BitVec.getLsbD_of_ge a i (Nat.not_lt.1 hi)
    simp [hi, hout]

theorem truncate_truncate {m : Nat} (h : m ≤ n) (a : Address) :
    truncate m (truncate n a) = truncate m a := by
  apply BitVec.eq_of_getLsbD_eq
  intro i hi
  rw [getLsbD_truncate, getLsbD_truncate, getLsbD_truncate, ← Bool.and_assoc, ← Bool.decide_and]
  congr 2
  apply propext
  omega

/-- A prefix of 96 bits or more tells the families apart. -/
theorem is4_truncate {bits : Nat} (h : 96 ≤ bits) (a : Address) : is4 (truncate bits a) = is4 a := by
  have heq : truncate bits a >>> 32 = a >>> 32 := by
    apply BitVec.eq_of_getLsbD_eq
    intro i hi
    rw [BitVec.getLsbD_ushiftRight, getLsbD_truncate]
    have hle : 128 - bits ≤ 32 + i := by omega
    simp [hle]
  rw [is4, is4, heq]

/-- No IPv4 address begins with a shorter prefix followed by zeros. -/
theorem is4_truncate_of_lt {bits : Nat} (h : bits < 96) (a : Address) :
    is4 (truncate bits a) = false := by
  rw [Bool.eq_false_iff]
  intro h4
  have hbit := congrArg (fun b : Address => b.getLsbD 0) (beq_iff_eq.1 h4)
  simp only [BitVec.getLsbD_ushiftRight, getLsbD_truncate] at hbit
  have hle : ¬ 128 - bits ≤ 32 + 0 := by omega
  simp [hle] at hbit

/-! ## Networks -/

/-- A network; `four` is set when it is written with an IPv4 address, and `ones` counts the
prefix in the sixteen octet form. -/
structure Network where
  base : Address
  ones : Nat
  four : Bool
  deriving DecidableEq

namespace Network

def contains (n : Network) (a : Address) : Bool :=
  is4 a == is4 n.base && truncate n.ones a == n.base

def format (n : Network) : Bytes :=
  IpAddress.format n.base ++ [47] ++ itoa (if is4 n.base then n.ones - 96 else n.ones)

end Network

def parseCIDR (s : Bytes) : Option Network :=
  match cut [47] s with
  | none => none
  | some (addr, mask) =>
    match parseAddr addr with
    | none => none
    | some (four, a) =>
      if isDecimal mask && decide (decimalValue mask ≤ if four then 32 else 128) then
        let ones := decimalValue mask + if four then 96 else 0
        some { base := truncate ones a, ones, four }
      else none

theorem parseCIDR_format {n : Network} (hbase : truncate n.ones n.base = n.base)
    (hones : n.ones ≤ 128) : parseCIDR n.format = some { n with four := is4 n.base } := by
  have hwide : is4 n.base = true → 96 ≤ n.ones := by
    intro h4
    refine Nat.le_of_not_lt fun hlt => ?_
    rw [← hbase, is4_truncate_of_lt hlt] at h4
    exact Bool.false_ne_true h4
  have hcut : cut [47] n.format =
      some (format n.base, itoa (if is4 n.base then n.ones - 96 else n.ones)) := by
    rw [Network.format, List.append_assoc, cut_append_of_notMem (slash_notMem_format n.base),
      cut_self_append]
    simp
  rw [parseCIDR, hcut]
  simp only [parseAddr_format, decimalValue_itoa]
  cases h4 : is4 n.base with
  | true =>
    have hge := hwide h4
    have hle : n.ones - 96 ≤ 32 := by omega
    have hsum : n.ones - 96 + 96 = n.ones := by omega
    simp [isDecimal_itoa, hle, hsum, hbase]
  | false => simp [isDecimal_itoa, hones, hbase]

theorem truncate_of_parseCIDR {n : Network} (h : parseCIDR s = some n) :
    truncate n.ones n.base = n.base ∧ n.ones ≤ 128 := by
  unfold parseCIDR at h
  split at h
  · cases h
  split at h
  · cases h
  rename_i four a _
  rw [Option.ite_none_right_eq_some] at h
  obtain ⟨hmask, heq⟩ := h
  cases heq
  simp only [Bool.and_eq_true, decide_eq_true_eq] at hmask
  refine ⟨truncate_truncate le_rfl a, ?_⟩
  have hle := hmask.2
  cases four with
  | true =>
    simp only [if_true] at hle ⊢
    omega
  | false => simpa using hle

/-! ## Host and port -/

def splitHost (s : Bytes) : Option Bytes :=
  match s.reverse.idxOf? 58 with
  | none => none
  | some k =>
    let last := s.length - 1 - k
    if s.head? = some 91 then
      match s.idxOf? 93 with
      | none => none
      | some close =>
        if close + 1 = last ∧ 91 ∉ s.drop 1 ∧ 93 ∉ s.drop last then
          some ((s.take close).drop 1)
        else none
    else
      if 58 ∈ s.take last ∨ 91 ∈ s ∨ 93 ∈ s then none
      else some (s.take last)

example : splitHost (lit "[2001:db8::1]:443") = some (lit "2001:db8::1") := by decide +kernel

example : splitHost (lit "2001:db8::1") = none := by decide +kernel

end IpAddress

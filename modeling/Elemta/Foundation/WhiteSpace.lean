import Elemta.Foundation.Bytes

/-!
# Trimming and words

White space is a list of patterns, none of which starts another or overlaps one. Taking
leading patterns off is therefore a recursion on the text by patterns, and this is the
induction the facts below go by: trimming twice is trimming once, and the words of a
text are those of the trimmed text.
-/

namespace Bytes

/-! ## Leading patterns -/

section Patterns

variable {patterns : List Bytes} {s : Bytes}

/-- No pattern starts the text. -/
def Tight (patterns : List Bytes) (s : Bytes) : Prop :=
  ∀ p ∈ patterns, ¬ p <+: s

/-- No pattern is empty, and none starts another. -/
structure PrefixFree (patterns : List Bytes) : Prop where
  ne_nil : [] ∉ patterns
  eq_of_starts : ∀ p ∈ patterns, ∀ q ∈ patterns, p <+: q → p = q

theorem Tight.of_front {t : Bytes} (h : Tight patterns s) (hpre : t <+: s) : Tight patterns t :=
  fun p hp hstart => h p hp (hstart.trans hpre)

theorem Tight.matchLen_eq (h : Tight patterns s) : matchLen patterns s = 0 := by
  have hnone : patterns.find? (fun p => p.isPrefixOf s) = none :=
    List.find?_eq_none.2 fun p hp hpre => h p hp (List.isPrefixOf_iff_prefix.1 hpre)
  rw [matchLen, hnone]

theorem Tight.dropPatterns_eq (h : Tight patterns s) : dropPatterns patterns 0 s = s := by
  cases s with
  | nil => rfl
  | cons b r => rw [dropPatterns, h.matchLen_eq]

theorem tight_or_matchLen (patterns : List Bytes) (s : Bytes) :
    Tight patterns s ∨ ∃ p ∈ patterns, p <+: s ∧ matchLen patterns s = p.length := by
  cases hfind : patterns.find? (fun p => p.isPrefixOf s) with
  | none =>
    refine .inl fun p hp hpre => ?_
    exact List.find?_eq_none.1 hfind p hp (List.isPrefixOf_iff_prefix.2 hpre)
  | some p =>
    have hpre := List.find?_some hfind
    exact .inr ⟨p, List.mem_of_find?_eq_some hfind, List.isPrefixOf_iff_prefix.1 hpre,
      by rw [matchLen, hfind]⟩

theorem dropPatterns_passed (w s : Bytes) :
    dropPatterns patterns w.length (w ++ s) = dropPatterns patterns 0 s := by
  induction w with
  | nil => rfl
  | cons b w ih => exact ih

namespace PrefixFree

variable {p : Bytes}

section

variable (h : PrefixFree patterns)

include h

theorem matchLen_append (hp : p ∈ patterns) (s : Bytes) :
    matchLen patterns (p ++ s) = p.length := by
  have hstart : p <+: p ++ s := List.prefix_append p s
  rcases tight_or_matchLen patterns (p ++ s) with htight | ⟨q, hq, hpre, hlen⟩
  · exact absurd hstart (htight p hp)
  · -- two patterns that start one text are the same
    rcases List.prefix_or_prefix_of_prefix hpre hstart with hqp | hpq
    · rw [hlen, h.eq_of_starts q hq p hp hqp]
    · rw [hlen, h.eq_of_starts p hp q hq hpq]

theorem dropPatterns_append (hp : p ∈ patterns) (s : Bytes) :
    dropPatterns patterns 0 (p ++ s) = dropPatterns patterns 0 s := by
  have hlen := h.matchLen_append hp s
  cases p with
  | nil => exact absurd hp h.ne_nil
  | cons b p =>
    rw [List.cons_append] at hlen ⊢
    rw [dropPatterns, hlen]
    exact dropPatterns_passed p s

/-- A text is tight, or it is a pattern with a text behind it. -/
@[elab_as_elim]
theorem induction {motive : Bytes → Prop} (tight : ∀ s, Tight patterns s → motive s)
    (step : ∀ p ∈ patterns, ∀ s, motive s → motive (p ++ s)) (s : Bytes) : motive s := by
  induction hn : s.length using Nat.strong_induction_on generalizing s with
  | _ n ih =>
    rcases tight_or_matchLen patterns s with htight | ⟨p, hp, ⟨r, rfl⟩, -⟩
    · exact tight s htight
    refine step p hp r (ih r.length ?_ r rfl)
    have hne : p ≠ [] := fun hnil => h.ne_nil (hnil ▸ hp)
    have hpos := List.length_pos_iff.2 hne
    rw [← hn, List.length_append]
    omega

theorem tight_dropPatterns (s : Bytes) : Tight patterns (dropPatterns patterns 0 s) := by
  induction s using h.induction with
  | tight s hs => rwa [hs.dropPatterns_eq]
  | step p hp s ih => rwa [h.dropPatterns_append hp]

end

end PrefixFree

end Patterns

/-! ## Trimming -/

theorem prefixFree_spaces : PrefixFree spaces :=
  ⟨by decide, by decide +kernel⟩

theorem prefixFree_spaces_reversed : PrefixFree (spaces.map List.reverse) :=
  ⟨by decide, by decide +kernel⟩

theorem trimSpace_front (s : Bytes) : trimSpace s <+: dropPatterns spaces 0 s := by
  rw [← List.reverse_suffix, trimSpace, List.reverse_reverse]
  exact dropPatterns_suffix _ 0 _

theorem trimSpace_trimSpace (s : Bytes) : trimSpace (trimSpace s) = trimSpace s := by
  have hleft : dropPatterns spaces 0 (trimSpace s) = trimSpace s :=
    ((prefixFree_spaces.tight_dropPatterns s).of_front (trimSpace_front s)).dropPatterns_eq
  have hright : dropPatterns (spaces.map List.reverse) 0 (trimSpace s).reverse =
      (trimSpace s).reverse := by
    have htight := prefixFree_spaces_reversed.tight_dropPatterns (dropPatterns spaces 0 s).reverse
    rw [trimSpace, List.reverse_reverse]
    exact htight.dropPatterns_eq
  rw [trimSpace, hleft, hright, List.reverse_reverse]

def Solid (b : UInt8) : Prop :=
  ∀ p ∈ spaces, b ∉ p

instance (b : UInt8) : Decidable (Solid b) :=
  inferInstanceAs (Decidable (∀ p ∈ spaces, b ∉ p))

variable {b : UInt8} {p w q : Bytes}

theorem solid_of_graphic (h : 33 ≤ b) (h' : b ≤ 127) : Solid b := by
  have hspaces : ∀ p ∈ spaces, p.all (fun c => decide (c ≤ 32 ∨ 128 ≤ c)) = true := by decide
  intro p hp hb
  rcases forall_of_all (hspaces p hp) b hb with hlow | hhigh
  · exact absurd (UInt8.le_trans h hlow) (by decide)
  · exact absurd (UInt8.le_trans hhigh h') (by decide)

theorem Solid.tight (h : Solid b) (r : Bytes) : Tight spaces (b :: r) := by
  intro p hp hpre
  cases p with
  | nil => exact prefixFree_spaces.ne_nil hp
  | cons c p =>
    obtain ⟨rfl, -⟩ := List.cons_prefix_cons.1 hpre
    exact h _ hp (List.mem_cons_self ..)

theorem Solid.tight_reversed (h : Solid b) (r : Bytes) :
    Tight (spaces.map List.reverse) (b :: r) := by
  intro p hp hpre
  obtain ⟨q, hq, rfl⟩ := List.mem_map.1 hp
  have hmem {c : UInt8} (hc : c ∈ q.reverse) : c ∈ q := List.mem_reverse.1 hc
  cases hrev : q.reverse with
  | nil => exact prefixFree_spaces_reversed.ne_nil (hrev ▸ hp)
  | cons c p =>
    rw [hrev] at hpre
    obtain ⟨rfl, -⟩ := List.cons_prefix_cons.1 hpre
    exact h q hq (hmem (by rw [hrev]; exact List.mem_cons_self ..))

section Ends

variable {s : Bytes}

theorem dropPatterns_reverse_of_solid (hlast : ∀ b ∈ s.getLast?, Solid b) :
    dropPatterns (spaces.map List.reverse) 0 s.reverse = s.reverse := by
  cases hs : s.reverse with
  | nil => rfl
  | cons b r =>
    have hb : Solid b := hlast b (by rw [← List.head?_reverse, hs]; rfl)
    exact (hb.tight_reversed r).dropPatterns_eq

theorem trimSpace_of_solid (hfirst : ∀ b ∈ s.head?, Solid b)
    (hlast : ∀ b ∈ s.getLast?, Solid b) : trimSpace s = s := by
  have hleft : dropPatterns spaces 0 s = s := by
    cases s with
    | nil => rfl
    | cons b r => exact ((hfirst b rfl).tight r).dropPatterns_eq
  simp only [trimSpace, hleft, dropPatterns_reverse_of_solid hlast, List.reverse_reverse]

/-- The line break goes with the white space at the end. -/
theorem trimSpace_line (hfirst : ∀ b ∈ s.head?, Solid b) (hlast : ∀ b ∈ s.getLast?, Solid b) :
    trimSpace (s ++ [13, 10]) = s := by
  cases s with
  | nil => decide
  | cons b r =>
    have hleft : dropPatterns spaces 0 (b :: r ++ [13, 10]) = b :: r ++ [13, 10] :=
      ((hfirst b rfl).tight _).dropPatterns_eq
    have hfree := prefixFree_spaces_reversed
    have hcr : [13] ∈ spaces.map List.reverse := by decide
    have hlf : [10] ∈ spaces.map List.reverse := by decide
    have hright : dropPatterns (spaces.map List.reverse) 0 (b :: r ++ [13, 10]).reverse =
        (b :: r).reverse := by
      rw [List.reverse_append]
      exact ((hfree.dropPatterns_append hlf (13 :: (b :: r).reverse)).trans
        (hfree.dropPatterns_append hcr (b :: r).reverse)).trans
        (dropPatterns_reverse_of_solid hlast)
    simp only [trimSpace, hleft, hright, List.reverse_reverse]

end Ends

/-! ## Words -/

theorem fieldsAux_passed (w cur s : Bytes) :
    fieldsAux w.length cur (w ++ s) = fieldsAux 0 cur s := by
  induction w with
  | nil => rfl
  | cons b w ih => exact ih

theorem fieldsAux_space (hp : p ∈ spaces) (cur s : Bytes) :
    fieldsAux 0 cur (p ++ s) = (if cur = [] then [] else [cur.reverse]) ++ fields s := by
  have hlen := prefixFree_spaces.matchLen_append hp s
  cases p with
  | nil => exact absurd hp prefixFree_spaces.ne_nil
  | cons b p =>
    rw [List.cons_append] at hlen ⊢
    rw [fieldsAux, hlen]
    simp only [List.length_cons, fieldsAux_passed, fields]
    split <;> rfl

theorem fieldsAux_tight {cur r : Bytes} (h : Tight spaces (b :: r)) :
    fieldsAux 0 cur (b :: r) = fieldsAux 0 (b :: cur) r := by
  rw [fieldsAux, h.matchLen_eq]

theorem fieldsAux_solid (hw : ∀ b ∈ w, Solid b) (cur s : Bytes) :
    fieldsAux 0 cur (w ++ s) = fieldsAux 0 (w.reverse ++ cur) s := by
  induction w generalizing cur with
  | nil => rfl
  | cons b w ih =>
    have hb := (hw b (List.mem_cons_self ..)).tight (w ++ s)
    rw [List.cons_append, fieldsAux_tight hb, ih fun c hc => hw c (List.mem_cons_of_mem b hc),
      List.reverse_cons, List.append_assoc, List.singleton_append]

theorem fields_word (hw : ∀ b ∈ w, Solid b) (hne : w ≠ []) (s : Bytes) :
    fields (w ++ 32 :: s) = w :: fields s := by
  have hblank : [32] ∈ spaces := by decide
  rw [fields, fieldsAux_solid hw, List.append_nil]
  refine (fieldsAux_space hblank w.reverse s).trans ?_
  rw [if_neg (by simpa using hne), List.reverse_reverse, List.singleton_append]

theorem fields_solid (hw : ∀ b ∈ w, Solid b) (hne : w ≠ []) : fields w = [w] := by
  have hall := fieldsAux_solid hw [] []
  rw [List.append_nil, List.append_nil] at hall
  rw [fields, hall, fieldsAux, if_neg (by simpa using hne), List.reverse_reverse]

theorem fields_dropPatterns (s : Bytes) : fields (dropPatterns spaces 0 s) = fields s := by
  induction s using prefixFree_spaces.induction with
  | tight s hs => rw [hs.dropPatterns_eq]
  | step p hp s ih =>
    rw [prefixFree_spaces.dropPatterns_append hp, ih, fields, fields, fieldsAux_space hp]
    simp [fields]

/-- White space that starts in front of a pattern does not reach into it. -/
theorem spaces_disjoint {u v : Bytes} (hp : p ∈ spaces) (hq : q ∈ spaces) (hu : u ≠ [])
    (h : q = u ++ v) (hv : v ≠ []) : ¬ v <+: p ∧ ¬ p <+: v := by
  have hall : ∀ p ∈ spaces, ∀ q ∈ spaces, ∀ i < q.length, i ≠ 0 →
      ¬ q.drop i <+: p ∧ ¬ p <+: q.drop i := by decide +kernel
  subst h
  have hpos := List.length_pos_iff.2 hv
  have hcut := hall p hp (u ++ v) hq u.length (by rw [List.length_append]; omega)
    (fun hzero => hu (List.length_eq_zero_iff.1 hzero))
  rwa [List.drop_left] at hcut

/-- White space behind a text starts no earlier word. -/
theorem prefix_of_space_append {s t : Bytes} (hp : p ∈ spaces) (hq : q ∈ spaces) (hs : s ≠ [])
    (h : q <+: s ++ (p ++ t)) : q <+: s := by
  obtain ⟨r, hr⟩ := h
  rcases List.append_eq_append_iff.1 hr with ⟨s', rfl, -⟩ | ⟨v, rfl, hv⟩
  · exact List.prefix_append q s'
  by_cases hnil : v = []
  · subst hnil
    rw [List.append_nil]
  · have hdisjoint := spaces_disjoint hp hq hs rfl hnil
    rcases List.prefix_or_prefix_of_prefix ⟨r, hv.symm⟩ (List.prefix_append p t) with hpre | hpre
    · exact absurd hpre hdisjoint.1
    · exact absurd hpre hdisjoint.2

theorem fieldsAux_append_space (hp : p ∈ spaces) (cur s t : Bytes) :
    fieldsAux 0 cur (s ++ (p ++ t)) = fieldsAux 0 cur s ++ fields t := by
  induction hn : s.length using Nat.strong_induction_on generalizing s cur with
  | _ n ih =>
    rcases tight_or_matchLen spaces s with htight | ⟨q, hq, ⟨r, rfl⟩, -⟩
    · cases s with
      | nil => rw [List.nil_append, fieldsAux_space hp, fieldsAux]
      | cons b r =>
        have hwhole : Tight spaces (b :: r ++ (p ++ t)) := fun q hq hpre =>
          htight q hq (prefix_of_space_append hp hq (by simp) hpre)
        rw [List.cons_append] at hwhole ⊢
        rw [fieldsAux_tight htight, fieldsAux_tight hwhole]
        exact ih r.length (by rw [← hn, List.length_cons]; omega) _ r rfl
    · have hpos : q ≠ [] := fun hnil => prefixFree_spaces.ne_nil (hnil ▸ hq)
      have hlen := List.length_pos_iff.2 hpos
      rw [List.length_append] at hn
      rw [List.append_assoc, fieldsAux_space hq, fieldsAux_space hq, fields, fields,
        ih r.length (by omega) [] r rfl, List.append_assoc]

theorem fields_append_space (hp : p ∈ spaces) (s t : Bytes) :
    fields (s ++ (p ++ t)) = fields s ++ fields t :=
  fieldsAux_append_space hp [] s t

theorem fields_trimSpace (s : Bytes) : fields (trimSpace s) = fields s := by
  have hright (u : Bytes) :
      fields (dropPatterns (spaces.map List.reverse) 0 u).reverse = fields u.reverse := by
    induction u using prefixFree_spaces_reversed.induction with
    | tight u hu => rw [hu.dropPatterns_eq]
    | step p hp u ih =>
      obtain ⟨q, hq, rfl⟩ := List.mem_map.1 hp
      rw [prefixFree_spaces_reversed.dropPatterns_append hp, ih, List.reverse_append,
        List.reverse_reverse, ← List.append_nil q, fields_append_space hq]
      exact (List.append_nil _).symm
  rw [trimSpace, hright, List.reverse_reverse, fields_dropPatterns]

end Bytes

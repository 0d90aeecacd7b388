import Mathlib.Data.List.Nodup

/-!
# Lists that change in one place

The calls in progress of a system are a list in which a step replaces one entry and a new
call is added at the end. Entries that lock things are apart if no two of them have locked
the same thing. Counters of the entries with a property follow the list by what changes.
-/

namespace Slots

variable {α β κ : Type*} {l : List α} {i : Nat} {x y : α}

theorem forall_concat {P : α → Prop} (h : ∀ z ∈ l, P z) (hy : P y) : ∀ z ∈ l ++ [y], P z :=
  List.forall_mem_append.2 ⟨h, List.forall_mem_singleton.2 hy⟩

theorem nodup_concat {f : α → β} (h : (l.map f).Nodup) (hy : f y ∉ l.map f) :
    ((l ++ [y]).map f).Nodup := by
  rw [List.map_append, List.map_cons, List.map_nil, ← List.concat_eq_append]
  exact h.concat hy

theorem forall_set {P : α → Prop} (h : ∀ z ∈ l, P z) (hy : P y) : ∀ z ∈ l.set i y, P z := by
  intro z hz
  rcases List.mem_or_eq_of_mem_set hz with hold | rfl
  · exact h z hold
  · exact hy

theorem mem_set_cases {z : α} (h : z ∈ l.set i x) : z = x ∨ ∃ j, j ≠ i ∧ l[j]? = some z := by
  obtain ⟨j, hj⟩ := List.mem_iff_getElem?.1 h
  by_cases hji : j = i
  · subst hji
    obtain ⟨hlt, hget⟩ := List.getElem?_eq_some_iff.1 hj
    rw [List.getElem_set_self] at hget
    exact .inl hget.symm
  · rw [List.getElem?_set_ne (Ne.symm hji)] at hj
    exact .inr ⟨j, hji, hj⟩

theorem map_set_of_eq (f : α → β) (hx : l[i]? = some x) (hy : f y = f x) :
    (l.set i y).map f = l.map f := by
  refine List.ext_getElem? fun j => ?_
  by_cases hji : i = j
  · subst hji
    obtain ⟨hlt, -⟩ := List.getElem?_eq_some_iff.1 hx
    simp only [List.getElem?_map, List.getElem?_set_self hlt, hx, Option.map_some, hy]
  · simp only [List.getElem?_map, List.getElem?_set_ne hji]

theorem countP_set (f : α → Bool) (hx : l[i]? = some x) :
    (l.set i y).countP f + (f x).toNat = l.countP f + (f y).toNat := by
  obtain ⟨hi, rfl⟩ := List.getElem?_eq_some_iff.1 hx
  have hle := List.boole_getElem_le_countP (p := f) hi
  rw [List.countP_set hi]
  generalize f l[i] = before at hle ⊢
  cases before <;> cases f y <;>
    simp only [Bool.toNat_true, Bool.toNat_false, Bool.false_eq_true, reduceIte] at hle ⊢ <;> omega

def Apart (locks : α → κ → Bool) (l : List α) : Prop :=
  ∀ (i j : Nat) (x y : α), l[i]? = some x → l[j]? = some y → i ≠ j →
    ∀ k, locks x k = true → locks y k = false

variable {locks : α → κ → Bool}

theorem apart_nil : Apart locks [] :=
  fun _ _ _ _ hx => by cases hx

/-- An entry changes and locks only what nobody has locked. -/
theorem Apart.set (h : Apart locks l) (hx : l[i]? = some x)
    (hlocks : ∀ k, locks y k = true → locks x k = true ∨ ∀ z ∈ l, locks z k = false) :
    Apart locks (l.set i y) := by
  have hi : i < l.length := (List.getElem?_eq_some_iff.1 hx).1
  -- the new entry against any other one
  have hnew : ∀ (j : Nat) z k, l[j]? = some z → i ≠ j → locks y k = true → locks z k = false := by
    intro j z k hz hij hlock
    rcases hlocks k hlock with hbefore | hfree
    · exact h i j x z hx hz hij k hbefore
    · exact hfree z (List.mem_of_getElem? hz)
  intro j j' z z' hz hz' hjj k hlock
  by_cases hj : i = j
  · subst hj
    rw [List.getElem?_set_self hi] at hz
    cases hz
    rw [List.getElem?_set_ne hjj] at hz'
    exact hnew j' z' k hz' hjj hlock
  · rw [List.getElem?_set_ne hj] at hz
    by_cases hj' : i = j'
    · subst hj'
      rw [List.getElem?_set_self hi] at hz'
      cases hz'
      refine Bool.eq_false_iff.2 fun htrue => ?_
      rw [hnew j z k hz hj htrue] at hlock
      cases hlock
    · rw [List.getElem?_set_ne hj'] at hz'
      exact h j j' z z' hz hz' hjj k hlock

theorem Apart.concat (h : Apart locks l) (hidle : ∀ k, locks y k = false) : Apart locks (l ++ [y]) := by
  have hold : ∀ (j : Nat) z k, (l ++ [y])[j]? = some z → locks z k = true → l[j]? = some z := by
    intro j z k hz hlock
    rw [List.getElem?_append] at hz
    split at hz
    · exact hz
    rw [List.getElem?_singleton] at hz
    split at hz
    · cases hz
      rw [hidle k] at hlock
      cases hlock
    · cases hz
  intro j j' z z' hz hz' hjj k hlock
  refine Bool.eq_false_iff.2 fun htrue => ?_
  exact Bool.eq_false_iff.1 (h j j' z z' (hold j z k hz hlock) (hold j' z' k hz' htrue) hjj k hlock) htrue

variable {f f' : κ → Nat} {P : κ → α → Bool} {k : κ}

def Counts (f : κ → Nat) (P : κ → α → Bool) (l : List α) : Prop :=
  ∀ k, f k = l.countP (P k)

theorem Counts.set (h : Counts f P l) (hx : l[i]? = some x)
    (hf : ∀ k, f' k + (P k x).toNat = f k + (P k y).toNat) : Counts f' P (l.set i y) := by
  intro k
  have hcount := countP_set (y := y) (P k) hx
  have hold := h k
  have hnew := hf k
  omega

theorem Counts.pos (h : Counts f P l) (hx : x ∈ l) (hk : P k x = true) : 0 < f k := by
  rw [h k]
  exact List.countP_pos_iff.2 ⟨x, hx, hk⟩

end Slots

import Mathlib.Data.List.Basic
import Mathlib.Logic.Function.Basic
import Mathlib.Order.Lattice

/-!
# Tables of leases

A table gives each key at most one lease, with its holder and the time up to which it
is good. A key is free when it has no lease or an expired one; `take` leases the first
free keys of a listing to one holder.
-/

namespace Leases

variable {κ ω τ : Type*}

structure Lease (ω τ : Type*) where
  holder : ω
  expires : τ
  deriving DecidableEq

abbrev Table (κ ω τ : Type*) := κ → Option (Lease ω τ)

section

variable [LT τ] [DecidableLT τ]

def free (t : Table κ ω τ) (now : τ) (k : κ) : Bool :=
  match t k with
  | none => true
  | some lease => decide (lease.expires < now)

def prune (t : Table κ ω τ) (now : τ) : Table κ ω τ :=
  fun k => (t k).filter fun lease => decide (¬ lease.expires < now)

variable [DecidableEq κ]

/-- The first `limit` free keys of the listing, and the table with their leases. -/
def take (lease : Lease ω τ) (now : τ) : Nat → List κ → Table κ ω τ → List κ × Table κ ω τ
  | 0, _, t => ([], t)
  | _, [], t => ([], t)
  | limit + 1, k :: rest, t =>
    if free t now k then
      let more := take lease now limit rest (Function.update t k (some lease))
      (k :: more.1, more.2)
    else take lease now (limit + 1) rest t

variable {lease : Lease ω τ} {now : τ} {limit : Nat} {listing : List κ} {t : Table κ ω τ} {k : κ}

theorem take_sublist : (take lease now limit listing t).1.Sublist listing := by
  fun_induction take lease now limit listing t with
  | case1 => exact List.nil_sublist _
  | case2 => exact List.nil_sublist _
  | case3 limit k rest t hfree more ih => exact ih.cons_cons k
  | case4 limit k rest t hfree ih => exact ih.cons k

theorem take_other (h : k ∉ (take lease now limit listing t).1) :
    (take lease now limit listing t).2 k = t k := by
  fun_induction take lease now limit listing t with
  | case1 => rfl
  | case2 => rfl
  | case3 limit k' rest t hfree more ih =>
    rw [List.mem_cons, not_or] at h
    exact (ih h.2).trans (Function.update_of_ne h.1 _ _)
  | case4 limit k' rest t hfree ih => exact ih h

theorem take_taken (hnodup : listing.Nodup) (h : k ∈ (take lease now limit listing t).1) :
    free t now k = true ∧ (take lease now limit listing t).2 k = some lease := by
  fun_induction take lease now limit listing t with
  | case1 => cases h
  | case2 => cases h
  | case3 limit k' rest t hfree more ih =>
    rw [List.nodup_cons] at hnodup
    have hfresh : k' ∉ more.1 := fun hmem => hnodup.1 (take_sublist.subset hmem)
    rcases List.mem_cons.1 h with rfl | hmem
    · exact ⟨hfree, (take_other hfresh).trans (Function.update_self _ _ _)⟩
    have hne : k ≠ k' := fun heq => hfresh (heq ▸ hmem)
    obtain ⟨hfree', hleased⟩ := ih hnodup.2 hmem
    have hsame : Function.update t k' (some lease) k = t k := Function.update_of_ne hne _ _
    refine ⟨?_, hleased⟩
    rwa [free, hsame] at hfree'
  | case4 limit k' rest t hfree ih => exact ih (List.nodup_cons.1 hnodup).2 h

end

theorem prune_of_current [LinearOrder τ] {t : Table κ ω τ} {now : τ} {k : κ} {lease : Lease ω τ}
    (h : t k = some lease) (hnow : now ≤ lease.expires) : prune t now k = some lease := by
  simp [prune, h, hnow]

theorem prune_cases [LT τ] [DecidableLT τ] (t : Table κ ω τ) (now : τ) (k : κ) :
    prune t now k = t k ∨ prune t now k = none := by
  unfold prune
  cases t k with
  | none => exact .inl rfl
  | some lease => by_cases h : lease.expires < now <;> simp [h]

end Leases

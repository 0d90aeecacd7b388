import Mathlib.Data.List.Basic

/-!
# Change logs

A content has at most one row for each key. A log of numbered entries, each about one key,
covers the way from one content to a later one if, behind a starting number, it has an
entry for every key whose row has changed. It does not say what the row was, and it may say
too much. To come from the first content to the second, it is enough to take the rows of
the keys in these entries from the second.
-/

namespace ChangeLog

variable {κ ρ : Type*}

abbrev Content (κ ρ : Type*) := κ → Option ρ

structure Entry (κ : Type*) where
  number : Nat
  key : κ
  deriving DecidableEq

/-- Every key whose row has changed has an entry behind the starting number. -/
def Covers (log : List (Entry κ)) (since : Nat) (first second : Content κ ρ) : Prop :=
  ∀ key, first key ≠ second key → ∃ e ∈ log, since < e.number ∧ e.key = key

def touched (log : List (Entry κ)) (since : Nat) : List κ :=
  (log.filter fun e => decide (since < e.number)).map Entry.key

def overwrite [DecidableEq κ] (first second : Content κ ρ) (keys : List κ) : Content κ ρ :=
  fun key => if key ∈ keys then second key else first key

variable {log log' new : List (Entry κ)} {since : Nat} {first second third : Content κ ρ}

theorem mem_touched {key : κ} : key ∈ touched log since ↔ ∃ e ∈ log, since < e.number ∧ e.key = key := by
  simp [touched, and_assoc]

theorem Covers.refl (log : List (Entry κ)) (since : Nat) (content : Content κ ρ) :
    Covers log since content content :=
  fun _ hne => absurd rfl hne

/-- More has changed, and more is logged. -/
theorem Covers.append (h : Covers log since first second) (hnew : Covers new since second third) :
    Covers (log ++ new) since first third := by
  intro key hne
  by_cases hold : first key = second key
  · obtain ⟨e, he, hnumber, hkey⟩ := hnew key (hold ▸ hne)
    exact ⟨e, List.mem_append_right _ he, hnumber, hkey⟩
  · obtain ⟨e, he, hnumber, hkey⟩ := h key hold
    exact ⟨e, List.mem_append_left _ he, hnumber, hkey⟩

/-- Entries up to the starting number are not needed. -/
theorem Covers.prune (h : Covers log since first second)
    (hkept : ∀ e ∈ log, since < e.number → e ∈ log') : Covers log' since first second := by
  intro key hne
  obtain ⟨e, he, hnumber, hkey⟩ := h key hne
  exact ⟨e, hkept e he hnumber, hnumber, hkey⟩

theorem Covers.overwrite_touched [DecidableEq κ] (h : Covers log since first second) :
    overwrite first second (touched log since) = second := by
  funext key
  unfold overwrite
  split
  · rfl
  · rename_i hnot
    by_contra hne
    exact hnot (mem_touched.2 (h key hne))

end ChangeLog

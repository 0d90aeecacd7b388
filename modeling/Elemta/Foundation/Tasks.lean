import Mathlib.Logic.Function.Basic

/-!
# Programs that run side by side

Each task has a list of operations that it is still to make, and operations of different
tasks may come in any order. One operation is atomic: it changes what the tasks share, with
an answer from outside, and may put further operations in front of those that are left.
-/

namespace Elemta

/-- What the tasks share, and what each of them has still to do. -/
structure Tasks (σ τ ω : Type*) where
  shared : σ
  todo : τ → List ω

namespace Tasks

variable {σ τ ω α : Type*} [DecidableEq τ]

def spawn (s : Tasks σ τ ω) (g : τ) (ops : List ω) : Tasks σ τ ω :=
  if s.todo g = [] then { s with todo := Function.update s.todo g ops } else s

/-- An operation has been made: what is shared now, and what it puts in front of the rest. -/
def perform (s : Tasks σ τ ω) (g : τ) (rest : List ω) (result : σ × List ω) : Tasks σ τ ω :=
  { shared := result.1, todo := Function.update s.todo g (result.2 ++ rest) }

def advance (exec : σ → ω → α → σ × List ω) (s : Tasks σ τ ω) (g : τ) (answer : α) : Tasks σ τ ω :=
  match s.todo g with
  | [] => s
  | op :: rest => s.perform g rest (exec s.shared op answer)

variable {s : Tasks σ τ ω} {g : τ} {op : ω} {rest : List ω}

@[simp] theorem shared_perform (result : σ × List ω) :
    (s.perform g rest result).shared = result.1 := rfl

variable {g' : τ} {op' : ω} {result : σ × List ω}

/-- What a task has to do after an operation it had to do before, or was put there by it. -/
theorem mem_todo_perform (h : s.todo g = op :: rest)
    (hmem : op' ∈ (s.perform g rest result).todo g') :
    op' ∈ s.todo g' ∨ g' = g ∧ op' ∈ result.2 := by
  unfold perform at hmem
  dsimp only at hmem
  by_cases hg : g' = g
  · subst hg
    rw [Function.update_self] at hmem
    rcases List.mem_append.1 hmem with hmem | hmem
    · exact .inr ⟨rfl, hmem⟩
    · exact .inl (h ▸ List.mem_cons_of_mem _ hmem)
  · rw [Function.update_of_ne hg] at hmem
    exact .inl hmem

/-- Only the operation that was made is no longer to be done. -/
theorem mem_perform_todo (h : s.todo g = op :: rest)
    (hne : g' = g → op' ≠ op) (hmem : op' ∈ s.todo g') :
    op' ∈ (s.perform g rest result).todo g' := by
  unfold perform
  dsimp only
  by_cases hg : g' = g
  · subst hg
    rw [Function.update_self]
    rw [h] at hmem
    rcases List.mem_cons.1 hmem with hop | hmem
    · exact absurd hop (hne rfl)
    · exact List.mem_append_right _ hmem
  · rwa [Function.update_of_ne hg]

theorem mem_perform_self (hmem : op ∈ result.2) : op ∈ (s.perform g rest result).todo g := by
  unfold perform
  dsimp only
  rw [Function.update_self]
  exact List.mem_append_left _ hmem

/-- A fact that is kept by the operation that a task makes next, if it has one. -/
theorem advance_induction {P : Tasks σ τ ω → Prop} (exec : σ → ω → α → σ × List ω) (h : P s)
    (answer : α)
    (hop : ∀ op rest, s.todo g = op :: rest → P (s.perform g rest (exec s.shared op answer))) :
    P (s.advance exec g answer) := by
  unfold advance
  split
  · exact h
  · next op rest htodo => exact hop op rest htodo

/-- What holds of every operation that is to be done is kept by giving a task operations of which
it holds. -/
theorem mem_todo_spawn {ops : List ω} (hmem : op' ∈ (s.spawn g ops).todo g') :
    op' ∈ s.todo g' ∨ op' ∈ ops := by
  unfold spawn at hmem
  split at hmem
  · dsimp only at hmem
    by_cases hg : g' = g
    · subst hg
      rw [Function.update_self] at hmem
      exact .inr hmem
    · rw [Function.update_of_ne hg] at hmem
      exact .inl hmem
  · exact .inl hmem

theorem mem_spawn_todo (ops : List ω) (hmem : op' ∈ s.todo g') : op' ∈ (s.spawn g ops).todo g' := by
  unfold spawn
  split
  · next hdone =>
    dsimp only
    by_cases hg : g' = g
    · subst hg
      rw [hdone] at hmem
      cases hmem
    · rwa [Function.update_of_ne hg]
  · exact hmem

@[simp] theorem shared_spawn (ops : List ω) : (s.spawn g ops).shared = s.shared := by
  unfold spawn
  split <;> rfl

end Tasks
end Elemta

import Mathlib.Data.List.Induction

/-!
# Runs of a machine that is driven from outside

A machine is a function from a state and an input to the next state. What the
outside world decides (a clock, a remote peer, a failing disk) is part of the
input, so a run is determined by its inputs, and a claim about every run is a
claim about every list of inputs. A condition on steps may look at the state a
step starts from; `Along` says that every step of a run meets it.
-/

namespace Machine

variable {σ ι : Type*} {step : σ → ι → σ}

def run (step : σ → ι → σ) (s : σ) (inputs : List ι) : σ :=
  inputs.foldl step s

/-- Every step of the run meets `G` in the state that it starts from. -/
def Along (step : σ → ι → σ) (G : σ → ι → Prop) : σ → List ι → Prop
  | _, [] => True
  | s, i :: rest => G s i ∧ Along step G (step s i) rest

@[simp] theorem run_nil (s : σ) : run step s [] = s := rfl

@[simp] theorem run_cons (s : σ) (i : ι) (rest : List ι) :
    run step s (i :: rest) = run step (step s i) rest := rfl

theorem run_append (s : σ) (first second : List ι) :
    run step s (first ++ second) = run step (run step s first) second :=
  List.foldl_append

instance decidableAlong (G : σ → ι → Prop) [∀ s i, Decidable (G s i)] :
    ∀ (s : σ) (inputs : List ι), Decidable (Along step G s inputs)
  | _, [] => .isTrue trivial
  | s, i :: rest =>
    haveI := decidableAlong G (step s i) rest
    inferInstanceAs (Decidable (G s i ∧ Along step G (step s i) rest))

variable {G : σ → ι → Prop} {inputs : List ι} {s : σ}

theorem Along.mono {G' : σ → ι → Prop} (h : ∀ s i, G s i → G' s i) (hrun : Along step G s inputs) :
    Along step G' s inputs := by
  induction inputs generalizing s with
  | nil => trivial
  | cons i rest ih => exact ⟨h s i hrun.1, ih hrun.2⟩

theorem along_append {first second : List ι} :
    Along step G s (first ++ second) ↔
      Along step G s first ∧ Along step G (run step s first) second := by
  induction first generalizing s with
  | nil => simp [Along]
  | cons i rest ih => simp [Along, ih, and_assoc]

/-- What every permitted step preserves holds at the end of every permitted run. -/
theorem Along.run_invariant (Inv : σ → Prop) (hstep : ∀ s i, G s i → Inv s → Inv (step s i))
    (hrun : Along step G s inputs) (hinit : Inv s) : Inv (run step s inputs) := by
  induction inputs generalizing s with
  | nil => exact hinit
  | cons i rest ih => exact ih hrun.2 (hstep s i hrun.1 hinit)

/-- What every step preserves holds at the end of every run. -/
theorem run_invariant (Inv : σ → Prop) (hstep : ∀ s i, Inv s → Inv (step s i)) (hinit : Inv s)
    (inputs : List ι) : Inv (run step s inputs) := by
  induction inputs generalizing s with
  | nil => exact hinit
  | cons i rest ih => exact ih (hstep s i hinit)

/-- What a run ends with has been there all the time, or ever since one of its steps brought it
in. -/
theorem run_since {ρ : Type*} (Has : σ → ρ → Prop) (Gains : σ → ι → ρ → Prop)
    (hstep : ∀ s i r, Has (step s i) r → Has s r ∨ Gains s i r) {r : ρ}
    (h : Has (run step s inputs) r) :
    (∀ first, first <+: inputs → Has (run step s first) r) ∨
      ∃ before i after, inputs = before ++ i :: after ∧ Gains (run step s before) i r ∧
        ∀ first, first <+: after → Has (run step s (before ++ i :: first)) r := by
  induction inputs using List.reverseRecOn with
  | nil =>
    refine .inl fun first hfirst => ?_
    rw [List.prefix_nil.1 hfirst]
    exact h
  | append_singleton inputs j ih =>
    have hlast : Has (step (run step s inputs) j) r := by
      rwa [run_append, run_cons, run_nil] at h
    rcases hstep _ _ _ hlast with hhas | hgain
    · -- it was there before the last step, so the last step adds one more state that has it
      rcases ih hhas with hall | ⟨before, i, after, rfl, hgain, hall⟩
      · refine .inl fun first hfirst => ?_
        rcases List.prefix_concat_iff.1 hfirst with rfl | hfirst
        · exact h
        · exact hall first hfirst
      refine .inr ⟨before, i, after ++ [j], by simp, hgain, fun first hfirst => ?_⟩
      rcases List.prefix_concat_iff.1 hfirst with rfl | hfirst
      · simpa using h
      · exact hall first hfirst
    · refine .inr ⟨inputs, j, [], rfl, hgain, fun first hfirst => ?_⟩
      rw [List.prefix_nil.1 hfirst]
      exact h

end Machine

import Mathlib.Logic.Function.Basic
import Mathlib.Logic.Relation

/-!
# Programs that may die between two writes

A program reads a state and changes it by single writes, and the process that
runs it may die between any two of them. `Prog.wp` is its weakest precondition
for two conditions at once: one on the answer and the final state, and one that
every state it can be found dead in has to meet. A caller that finds its process
dead starts again; `Retries` is any number of such attempts.

The second part is the state that such programs usually have, a disk, with the
usual way of replacing a file on it: write a temporary file, then rename it.
-/

namespace Crash

universe u v w

inductive Prog (σ : Type u) (α : Type v) where
  | done (a : α)
  | read (next : σ → Prog σ α)
  | write (f : σ → σ) (next : Prog σ α)

namespace Prog

variable {σ : Type u} {α : Type v} {β : Type w}

def bind : Prog σ α → (α → Prog σ β) → Prog σ β
  | done a, k => k a
  | read next, k => read fun s => (next s).bind k
  | write f next, k => write f (next.bind k)

variable (p : Prog σ α) (k : α → Prog σ β)

theorem bind_assoc {γ : Type*} (l : β → Prog σ γ) :
    (p.bind k).bind l = p.bind fun a => (k a).bind l := by
  induction p with
  | done a => rfl
  | read next ih => exact congrArg read (funext fun s => ih s)
  | write f next ih => exact congrArg (write f) ih

def run : Prog σ α → σ → α × σ
  | done a, s => (a, s)
  | read next, s => (next s).run s
  | write f next, s => next.run (f s)

theorem run_bind (s : σ) : (p.bind k).run s = (k (p.run s).1).run (p.run s).2 := by
  induction p generalizing s with
  | done a => rfl
  | read next ih => exact ih s s
  | write f next ih => exact ih (f s)

/-- The state that is found when the process dies after `n` writes. -/
def after : Prog σ α → Nat → σ → σ
  | done _, _, s => s
  | read next, n, s => (next s).after n s
  | write _ _, 0, s => s
  | write f next, n + 1, s => next.after n (f s)

/-- The program ends with `Q`, and `C` holds wherever it dies. -/
def wp : Prog σ α → (α → σ → Prop) → (σ → Prop) → σ → Prop
  | done a, Q, C, s => Q a s ∧ C s
  | read next, Q, C, s => (next s).wp Q C s
  | write f next, Q, C, s => C s ∧ next.wp Q C (f s)

variable {Q Q' : α → σ → Prop} {C C' : σ → Prop} {s : σ}

@[simp] theorem wp_done (a : α) : (done a : Prog σ α).wp Q C s ↔ Q a s ∧ C s := Iff.rfl

@[simp] theorem wp_read (next : σ → Prog σ α) :
    (read next).wp Q C s ↔ (next s).wp Q C s := Iff.rfl

@[simp] theorem wp_write (f : σ → σ) (next : Prog σ α) :
    (write f next).wp Q C s ↔ C s ∧ next.wp Q C (f s) := Iff.rfl

theorem wp_mono (hQ : ∀ a s, Q a s → Q' a s) (hC : ∀ s, C s → C' s)
    (h : p.wp Q C s) : p.wp Q' C' s := by
  induction p generalizing s with
  | done a => exact ⟨hQ a s h.1, hC s h.2⟩
  | read next ih => exact ih s h
  | write f next ih => exact ⟨hC s h.1, ih h.2⟩

theorem wp_start (h : p.wp Q C s) : C s := by
  induction p generalizing s with
  | done a => exact h.2
  | read next ih => exact ih s h
  | write f next ih => exact h.1

theorem wp_bind {Q : β → σ → Prop}
    (h : p.wp (fun a s => (k a).wp Q C s) C s) : (p.bind k).wp Q C s := by
  induction p generalizing s with
  | done a => exact h.1
  | read next ih => exact ih s h
  | write f next ih => exact ⟨h.1, ih h.2⟩

theorem wp_run (h : p.wp Q C s) : Q (p.run s).1 (p.run s).2 := by
  induction p generalizing s with
  | done a => exact h.1
  | read next ih => exact ih s h
  | write f next ih => exact ih h.2

theorem wp_after (h : p.wp Q C s) (n : Nat) : C (p.after n s) := by
  induction p generalizing s n with
  | done a => exact h.2
  | read next ih => exact ih s h n
  | write f next ih =>
    cases n with
    | zero => exact h.1
    | succ n => exact ih h.2 n

/-- Any number of attempts, each of which died somewhere. -/
def Retries {ι : Type w} (attempt : ι → Prog σ α) : σ → σ → Prop :=
  Relation.ReflTransGen fun s s' => ∃ i n, s' = (attempt i).after n s

/-- What holds wherever an attempt dies, and lets it start again, holds after any number of
them. -/
theorem Retries.invariant {ι : Type w} {attempt : ι → Prog σ α} {s' : σ}
    (hattempt : ∀ i s, C s → ∃ Q, (attempt i).wp Q C s)
    (hretries : Retries attempt s s') (hstart : C s) : C s' := by
  induction hretries with
  | refl => exact hstart
  | tail _ hstep ih =>
    obtain ⟨i, n, rfl⟩ := hstep
    obtain ⟨Q, hwp⟩ := hattempt i _ ih
    exact wp_after _ hwp n

end Prog

/-! ## Disks -/

abbrev Disk (π : Type u) (φ : Type v) := π → Option φ

namespace Disk

variable {π : Type u} {φ : Type v} [DecidableEq π]

def put (d : Disk π φ) (path : π) (file : φ) : Disk π φ :=
  Function.update d path (some file)

def unlink (d : Disk π φ) (path : π) : Disk π φ :=
  Function.update d path none

def rename (d : Disk π φ) (source target : π) : Disk π φ :=
  Function.update (Function.update d target (d source)) source none

@[simp] theorem put_same (d : Disk π φ) (path : π) (file : φ) : d.put path file path = some file := by
  simp [put]

theorem put_other (d : Disk π φ) {path other : π} (file : φ) (h : other ≠ path) :
    d.put path file other = d other := by
  simp [put, h]

@[simp] theorem unlink_same (d : Disk π φ) (path : π) : d.unlink path path = none := by
  simp [unlink]

theorem unlink_other (d : Disk π φ) {path other : π} (h : other ≠ path) :
    d.unlink path other = d other := by
  simp [unlink, h]

variable {target temp : π} {d : Disk π φ} {unfinished : φ}

theorem rename_put (file : φ) (hne : temp ≠ target) (hfree : d temp = none) :
    (d.put temp file).rename temp target = d.put target file := by
  funext path
  by_cases htemp : path = temp
  · simp [rename, put, htemp, hne, hfree]
  · by_cases htarget : path = target
    · simp [rename, put, htarget, Ne.symm hne]
    · simp [rename, put, htemp, htarget]

/-- Writes `file` under `target` by way of the new file `temp`, which holds `unfinished` while it
is being written. The answer is whether `temp` was free. -/
def atomicWrite (temp target : π) (unfinished file : φ) : Prog (Disk π φ) Bool :=
  .read fun d =>
    if (d temp).isSome then .done false
    else
      .write (·.put temp unfinished) <|
        .write (·.put temp file) <| .write (·.rename temp target) <| .done true

theorem run_atomicWrite {file : φ} (hne : temp ≠ target) (hfree : d temp = none) :
    (atomicWrite temp target unfinished file).run d = (true, d.put target file) := by
  have hrewrite : (d.put temp unfinished).put temp file = d.put temp file := by simp [put]
  simp [atomicWrite, Prog.run, hfree, hrewrite, rename_put file hne hfree]

theorem wp_atomicWrite {file : φ} {Q : Bool → Disk π φ → Prop} {C : Disk π φ → Prop}
    (hne : temp ≠ target) (hstart : C d) (htaken : d temp ≠ none → Q false d)
    (htemp : ∀ f, d temp = none → C (d.put temp f))
    (hdone : d temp = none → Q true (d.put target file) ∧ C (d.put target file)) :
    (atomicWrite temp target unfinished file).wp Q C d := by
  unfold atomicWrite
  rw [Prog.wp_read]
  split
  · rename_i hsome
    exact ⟨htaken (Option.isSome_iff_ne_none.1 hsome), hstart⟩
  rename_i hfree
  have hnone : d temp = none := by simpa using hfree
  have hrewrite : (d.put temp unfinished).put temp file = d.put temp file := by
    simp [put]
  simp only [Prog.wp_write, Prog.wp_done, hrewrite, rename_put file hne hnone]
  exact ⟨hstart, htemp unfinished hnone, htemp file hnone, hdone hnone⟩

end Disk

end Crash

import Elemta.Foundation.Machine

/-!
# Jobs that share a state

A pool is a shared state and a list of jobs, each at a place of its own. A job
advances by single calls, which read and change the shared state at once; which job
makes the next call is the input, so a claim about every interleaving is a claim
about every list of job numbers. A call that has to wait gives `none`, and so does a
job that has ended.

Jobs that exclude each other wait for one another. When every other pair of jobs is
kept apart, the pool does one job after the other, in the order of its log: `Rules`
says what has to be shown of a single job, and `Serial.run` is the result.
-/

namespace Interleaving

variable {σ ι κ : Type*}

structure System (σ ι κ : Type*) where
  /-- The next call of a job at its place. -/
  call : σ → ι → κ → Option (σ × κ)
  /-- The job has made its first call and not its last. -/
  running : κ → Bool
  succeeded : κ → Bool
  not_running : ∀ {place}, succeeded place = true → running place = false
  /-- The job keeps other such jobs out while it runs. -/
  exclusive : ι → Bool

structure Pool (σ ι κ : Type*) where
  shared : σ
  jobs : List (ι × κ)
  /-- The jobs that succeeded, in the order in which they ended. -/
  log : List ι

namespace Pool

def step (sys : System σ ι κ) (p : Pool σ ι κ) (i : Nat) : Pool σ ι κ :=
  match p.jobs[i]? with
  | none => p
  | some (job, place) =>
    match sys.call p.shared job place with
    | none => p
    | some (shared, next) =>
      { shared := shared
        jobs := p.jobs.set i (job, next)
        log := if sys.succeeded next then p.log ++ [job] else p.log }

variable (sys : System σ ι κ)

def Quiet (p : Pool σ ι κ) : Prop :=
  ∀ (i : Nat) (job : ι) (place : κ), p.jobs[i]? = some (job, place) → sys.running place = false

/-- A job that is under way while job `i` makes a call keeps it out. -/
def Apart (p : Pool σ ι κ) (i : Nat) : Prop :=
  ∀ (j : Nat) (job : ι) (place : κ), j ≠ i → p.jobs[j]? = some (job, place) → sys.running place = true →
    sys.exclusive job = true ∧
      ∀ job' place', p.jobs[i]? = some (job', place') → sys.exclusive job' = true

def apart (p : Pool σ ι κ) (i : Nat) : Bool :=
  (p.jobs.eraseIdx i).all fun job => !sys.running job.2 ||
    (sys.exclusive job.1 && (p.jobs[i]?).all fun job' => sys.exclusive job'.1)

variable {sys}

variable {p : Pool σ ι κ}

theorem apart_of_test {i : Nat} (h : p.apart sys i = true) : p.Apart sys i := by
  intro j job place hj hget hrun
  have hmem : (job, place) ∈ p.jobs.eraseIdx i :=
    List.mem_eraseIdx_iff_getElem?.2 ⟨j, hj, hget⟩
  have hkept := List.all_eq_true.1 h _ hmem
  simp only [hrun, Bool.not_true, Bool.false_or, Bool.and_eq_true] at hkept
  exact ⟨hkept.1, fun job' place' hget' => by simpa [hget'] using hkept.2⟩

theorem quiet_of_all (h : p.jobs.all (fun job => !sys.running job.2) = true) : p.Quiet sys := by
  intro i job place hget
  have hidle := List.all_eq_true.1 h _ (List.mem_of_getElem? hget)
  simpa using hidle

end Pool

section

variable (sys : System σ ι κ) (Settled : σ → List ι → Prop) (Midway : σ → List ι → ι → κ → Prop)

/-- What has to hold behind a call: the job goes on, or it has ended and may be in the log. -/
def After (s : σ) (log : List ι) (job : ι) (next : κ) : Prop :=
  if sys.running next then Midway s log job next
  else Settled s (if sys.succeeded next then log ++ [job] else log)

/-- What has to be shown of single jobs. `Settled` holds between two jobs, `Midway` while a job is
under way. -/
structure Rules : Prop where
  start : ∀ {s log job place s' next}, Settled s log → sys.running place = false →
    sys.call s job place = some (s', next) → After sys Settled Midway s' log job next
  go : ∀ {s log job place s' next}, Midway s log job place → sys.running place = true →
    sys.call s job place = some (s', next) → After sys Settled Midway s' log job next
  wait : ∀ {s log job place job' place'}, Midway s log job place → sys.running place = true →
    sys.exclusive job = true → sys.exclusive job' = true → sys.running place' = false →
    sys.call s job' place' = none

inductive Serial (p : Pool σ ι κ) : Prop where
  | quiet (jobs : p.Quiet sys) (settled : Settled p.shared p.log)
  | busy (i : Nat) (job : ι) (place : κ) (here : p.jobs[i]? = some (job, place))
      (runs : sys.running place = true)
      (others : ∀ (j : Nat) (job' : ι) (place' : κ), j ≠ i → p.jobs[j]? = some (job', place') →
        sys.running place' = false)
      (midway : Midway p.shared p.log job place)

variable {sys Settled Midway}

variable {p : Pool σ ι κ}

theorem Serial.settled (h : Serial sys Settled Midway p) (hquiet : p.Quiet sys) :
    Settled p.shared p.log := by
  cases h with
  | quiet _ settled => exact settled
  | busy i job place here runs _ _ =>
    rw [hquiet i job place here] at runs
    cases runs

/-- Behind a call of job `i`, with no other job under way, the pool is serial again. -/
theorem Serial.of_after {i : Nat} {job : ι} {place next : κ} {s : σ}
    (hhere : p.jobs[i]? = some (job, place))
    (hothers : ∀ (j : Nat) (job' : ι) (place' : κ), j ≠ i → p.jobs[j]? = some (job', place') →
      sys.running place' = false) (hafter : After sys Settled Midway s p.log job next) :
    Serial sys Settled Midway
      { shared := s
        jobs := p.jobs.set i (job, next)
        log := if sys.succeeded next then p.log ++ [job] else p.log } := by
  have hi : i < p.jobs.length := (List.getElem?_eq_some_iff.1 hhere).1
  have hset : (p.jobs.set i (job, next))[i]? = some (job, next) := by simp [hi]
  have hrest : ∀ j, j ≠ i → (p.jobs.set i (job, next))[j]? = p.jobs[j]? :=
    fun j hj => List.getElem?_set_ne (Ne.symm hj)
  unfold After at hafter
  cases hrun : sys.running next with
  | true =>
    have hnot : sys.succeeded next = false := by
      cases hsucc : sys.succeeded next with
      | false => rfl
      | true => exact absurd (sys.not_running hsucc) (by simp [hrun])
    rw [hrun] at hafter
    refine .busy i job next hset hrun (fun j job' place' hj hget => ?_) ?_
    · rw [hrest j hj] at hget
      exact hothers j job' place' hj hget
    · simpa [hnot] using hafter
  | false =>
    rw [hrun] at hafter
    refine .quiet (fun j job' place' hget => ?_) hafter
    by_cases hj : j = i
    · subst hj
      obtain ⟨-, rfl⟩ := Prod.mk.inj (Option.some.inj (hset.symm.trans hget))
      exact hrun
    · rw [hrest j hj] at hget
      exact hothers j job' place' hj hget

theorem Serial.step (rules : Rules sys Settled Midway) {i : Nat}
    (hp : Serial sys Settled Midway p) (hapart : p.Apart sys i) :
    Serial sys Settled Midway (p.step sys i) := by
  unfold Pool.step
  split
  · exact hp
  rename_i job place hget
  split
  · exact hp
  rename_i s next hcall
  cases hp with
  | quiet jobs settled =>
    exact .of_after hget (fun j job' place' _ h => jobs j job' place' h)
      (rules.start settled (jobs i job place hget) hcall)
  | busy j job' place' here runs others midway =>
    by_cases hj : j = i
    · subst hj
      obtain ⟨rfl, rfl⟩ := Prod.mk.inj (Option.some.inj (here.symm.trans hget))
      exact .of_after hget others (rules.go midway runs hcall)
    · -- the job that is under way keeps this one out
      obtain ⟨hours, htheirs⟩ := hapart j job' place' hj here runs
      have hidle := others i job place (Ne.symm hj) hget
      rw [rules.wait midway runs hours (htheirs job place hget) hidle] at hcall
      cases hcall

theorem Serial.run (rules : Rules sys Settled Midway) {schedule : List Nat}
    (hp : Serial sys Settled Midway p)
    (hapart : Machine.Along (Pool.step sys) (Pool.Apart sys) p schedule) :
    Serial sys Settled Midway (Machine.run (Pool.step sys) p schedule) :=
  hapart.run_invariant _ (fun _ _ h hs => hs.step rules h) hp

end

end Interleaving

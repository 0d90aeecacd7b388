import Elemta.Foundation.Bytes
import Elemta.Foundation.Machine
import Elemta.Foundation.Slots

/-!
# Locks of single messages

`acquire` finds or makes the lock object of an id and counts itself under the mutex of the
registry, and only then waits for the mutex of the object. The release function frees the
object first and gives its reference back in a second section of the registry, and the last
one to do so removes the entry. Goroutines take these four steps in any order.
-/

namespace Elemta.Queue.MessageLocks

/-- A lock object: the id that it was made for, and a number that no object before it had. -/
abbrev Lock := Bytes × Nat

inductive Place where
  | outside
  | waiting (lock : Lock)
  | holding (lock : Lock)
  /-- The object is free again, and the reference is still counted. -/
  | leaving (lock : Lock)
  deriving DecidableEq

/-- `refs` and `locked` are the fields of the objects, zero in those that are not made yet. -/
structure State where
  locks : Bytes → Option Nat
  made : Nat
  refs : Lock → Nat
  locked : Lock → Bool
  places : List Place

namespace State

def start (n : Nat) : State :=
  ⟨fun _ => none, 0, fun _ => 0, fun _ => false, List.replicate n .outside⟩

def addRef (s : State) (i : Nat) (lock : Lock) : State :=
  { s with
    refs := Function.update s.refs lock (s.refs lock + 1)
    places := s.places.set i (.waiting lock) }

def register (s : State) (i : Nat) (id : Bytes) : State :=
  match s.locks id with
  | some n => s.addRef i (id, n)
  | none =>
    addRef { s with locks := Function.update s.locks id (some s.made), made := s.made + 1 } i
      (id, s.made)

def unregister (s : State) (i : Nat) (lock : Lock) : State :=
  { s with
    locks := if s.refs lock - 1 = 0 then Function.update s.locks lock.1 none else s.locks
    refs := Function.update s.refs lock (s.refs lock - 1)
    places := s.places.set i .outside }

def setLocked (s : State) (i : Nat) (lock : Lock) (b : Bool) (p : Place) : State :=
  { s with locked := Function.update s.locked lock b, places := s.places.set i p }

end State

/-- Goroutine `i` takes its next step; outside, it calls `acquire` with the id. -/
def step (s : State) (input : Nat × Bytes) : State :=
  let (i, id) := input
  match s.places[i]? with
  | none => s
  | some .outside => s.register i id
  | some (.waiting lock) => if s.locked lock then s else s.setLocked i lock true (.holding lock)
  | some (.holding lock) => s.setLocked i lock false (.leaving lock)
  | some (.leaving lock) => s.unregister i lock

def Place.refersTo (lock : Lock) (p : Place) : Bool :=
  p = .waiting lock ∨ p = .holding lock ∨ p = .leaving lock

def Place.holds (lock : Lock) (p : Place) : Bool :=
  p = .holding lock

/-- The fields count the goroutines that refer to an object and that hold it, and the registered
objects are those with references. -/
structure Ok (s : State) : Prop where
  counted : Slots.Counts s.refs Place.refersTo s.places
  held : Slots.Counts (fun lock => (s.locked lock).toNat) Place.holds s.places
  registered : ∀ lock, s.refs lock ≠ 0 ↔ s.locks lock.1 = some lock.2

section

variable {s : State} {i : Nat} {lock : Lock} (h : Ok s)

include h

/-- A goroutine begins to refer to the object of its id, which may be a new one. -/
theorem Ok.register (hp : s.places[i]? = some .outside) (id : Bytes) : Ok (s.register i id) := by
  have hold := h.registered
  unfold State.register
  split
  all_goals
    refine ⟨h.counted.set hp fun other => ?_, h.held.set hp fun _ => rfl, fun other => ?_⟩
    · simp only [State.addRef]
      grind [Function.update_apply, Place.refersTo]
    · simp only [State.addRef]
      grind [Function.update_apply]

/-- A reference is given back, and with the last one the entry goes. -/
theorem Ok.unregister (hp : s.places[i]? = some (.leaving lock)) : Ok (s.unregister i lock) := by
  have hold := h.registered
  have hpos := h.counted.pos (k := lock) (List.mem_of_getElem? hp) (by simp [Place.refersTo])
  refine ⟨h.counted.set hp fun other => ?_, h.held.set hp fun _ => rfl, fun other => ?_⟩
  · simp only [State.unregister]
    grind [Function.update_apply, Place.refersTo]
  · simp only [State.unregister]
    grind [Function.update_apply]

/-- The mutex of an object changes hands with the place of a goroutine that refers to it. -/
theorem Ok.setLocked {p q : Place} {b : Bool} (hp : s.places[i]? = some p)
    (hsame : ∀ other, p.refersTo other = q.refersTo other)
    (hb : ∀ other, (Function.update s.locked lock b other).toNat + (p.holds other).toNat =
      (s.locked other).toNat + (q.holds other).toNat) : Ok (s.setLocked i lock b q) := by
  refine ⟨h.counted.set hp fun other => ?_, h.held.set hp hb, h.registered⟩
  rw [hsame other]
  rfl

theorem Ok.step (input : Nat × Bytes) : Ok (step s input) := by
  fun_cases MessageLocks.step s input with
  | case1 | case3 => exact h
  | case2 i id hp => exact h.register hp id
  | case4 i id lock hp hfree =>
    refine h.setLocked hp (fun other => ?_) fun other => ?_
    · simp [Place.refersTo]
    · grind [Function.update_apply, Place.holds]
  | case5 i id lock hp =>
    have hpos := h.held.pos (k := lock) (List.mem_of_getElem? hp) (by simp [Place.holds])
    have hone := Bool.toNat_le (s.locked lock)
    refine h.setLocked hp (fun other => ?_) fun other => ?_
    · simp [Place.refersTo]
    · grind [Function.update_apply, Place.holds]
  | case6 i id lock hp => exact h.unregister hp

end

/-- At most one goroutine holds the lock of an id, the next to try a lock that nobody holds gets it,
and the registry has the ids of the goroutines between their two sections. -/
theorem one_holder_per_id (n : Nat) (inputs : List (Nat × Bytes)) :
    let s := Machine.run step (State.start n) inputs
    (∀ (i j : Nat) (id : Bytes) (k l : Nat), s.places[i]? = some (.holding (id, k)) →
      s.places[j]? = some (.holding (id, l)) → i = j) ∧
    (∀ i lock id, s.places[i]? = some (.waiting lock) → .holding lock ∉ s.places →
      (step s (i, id)).places[i]? = some (.holding lock)) ∧
    (∀ id, s.locks id ≠ none ↔ ∃ p ∈ s.places, ∃ k, p.refersTo (id, k) = true) := by
  intro s
  have hstart : Ok (State.start n) := by
    refine ⟨fun lock => ?_, fun lock => ?_, fun lock => ?_⟩ <;>
      simp [State.start, List.countP_replicate, Place.refersTo, Place.holds]
  have h : Ok s := Machine.run_invariant Ok (fun _ input hs => hs.step input) hstart inputs
  have hregistered : ∀ p ∈ s.places, ∀ id k, p.refersTo (id, k) = true → s.locks id = some k :=
    fun p hp id k hlock => (h.registered _).1 (Nat.ne_of_gt (h.counted.pos hp hlock))
  refine ⟨fun i j id k l hi hj => ?_, fun i lock id hi hnobody => ?_,
    fun id => ⟨fun hsome => ?_, ?_⟩⟩
  · have hsame := hregistered _ (List.mem_of_getElem? hj) id l (by simp [Place.refersTo])
    rw [hregistered _ (List.mem_of_getElem? hi) id k (by simp [Place.refersTo])] at hsame
    cases hsame
    by_contra hij
    -- without goroutine `i` nobody holds the object, and `j` still does
    have hcount := Slots.countP_set (y := .outside) (Place.holds (id, k)) hi
    have hother : 0 < (s.places.set i .outside).countP (Place.holds (id, k)) := by
      rw [← List.getElem?_set_ne hij] at hj
      exact List.countP_pos_iff.2 ⟨_, List.mem_of_getElem? hj, by simp [Place.holds]⟩
    have hone := Bool.toNat_le (s.locked (id, k))
    rw [← h.held (id, k)] at hcount
    simp [Place.holds] at hcount
    omega
  · have hzero : s.places.countP (Place.holds lock) = 0 := by
      rw [List.countP_eq_zero]
      intro p hp hheld
      exact hnobody (of_decide_eq_true hheld ▸ hp)
    have hfree := Bool.toNat_eq_zero.1 ((h.held lock).trans hzero)
    obtain ⟨hlt, -⟩ := List.getElem?_eq_some_iff.1 hi
    simp only [step, hi, hfree, State.setLocked, List.getElem?_set_self hlt, Bool.false_eq_true,
      if_false]
  · obtain ⟨k, hk⟩ := Option.ne_none_iff_exists'.1 hsome
    have hrefs := Nat.pos_of_ne_zero ((h.registered (id, k)).2 hk)
    rw [h.counted, List.countP_pos_iff] at hrefs
    obtain ⟨p, hp, hlock⟩ := hrefs
    exact ⟨p, hp, k, hlock⟩
  · rintro ⟨p, hp, k, hlock⟩
    simp [hregistered p hp id k hlock]

end Elemta.Queue.MessageLocks

import Elemta.Campaign.Runner
import Mathlib.Data.Fintype.Basic

/-!
# Every recipient once

As long as a campaign is not started again before the goroutine of the run before has
ended, one goroutine at a time is between the look at the counters and their increase.
Then no position is handed to the queue twice, and the positions are counted in order.
A campaign that is resumed while a send is under way sends to that recipient twice and
leaves out the next one.
-/

namespace Elemta.Campaign

open Bytes

namespace Op

def sending : Op → Bool
  | .next _ | .check .. | .wait .. | .send .. | .tally .. => true
  | _ => false

def position : Op → Option Nat
  | .check _ i | .wait _ i | .send _ i | .tally _ i _ => some i
  | _ => none

theorem sending_of_position {op : Op} {i : Nat} (h : op.position = some i) : op.sending = true := by
  cases op <;> first | rfl | cases h

end Op

def Outcome.isSent : Outcome → Bool
  | .sent => true
  | _ => false

def Outcome.isFailed : Outcome → Bool
  | .failed _ => true
  | _ => false

def Outcome.isSkipped : Outcome → Bool
  | .skipped => true
  | _ => false

/-- The positions before the present one have been counted, in order, and the counters say as
what. -/
structure Runner.Tallied (r : Runner) : Prop where
  counted : r.outcomes.map Prod.fst = List.range r.index
  sent : r.sent = r.outcomes.countP fun o => o.2.isSent
  failed : r.failed = r.outcomes.countP fun o => o.2.isFailed
  skipped : r.skipped = r.outcomes.countP fun o => o.2.isSkipped

theorem Runner.index_count (r : Runner) (i : Nat) (outcome : Outcome) :
    (r.count i outcome).index = r.index + 1 := by
  cases outcome <;> simp only [count, index] <;> omega

theorem Runner.Tallied.count {r : Runner} (h : r.Tallied) (outcome : Outcome) :
    (r.count r.index outcome).Tallied := by
  constructor
  case counted =>
    have houtcomes : (r.count r.index outcome).outcomes = r.outcomes ++ [(r.index, outcome)] := by
      cases outcome <;> rfl
    rw [Runner.index_count, houtcomes, List.map_append, h.counted, List.range_succ]
    rfl
  case sent => cases outcome <;> simp [Runner.count, h.sent, Outcome.isSent]
  case failed => cases outcome <;> simp [Runner.count, h.failed, Outcome.isFailed]
  case skipped => cases outcome <;> simp [Runner.count, h.skipped, Outcome.isSkipped]

namespace Sending

variable {τ : Type}

/-- A run is registered only when no goroutine of an earlier one is left. -/
def Alone (s : Sending τ) : Event τ → Prop
  | .go g _ =>
    .register ∈ s.todo g → s.shared.run = none → ∀ g', ∀ op ∈ s.todo g', op.sending = false
  | .request .. => True

instance [Fintype τ] (s : Sending τ) (e : Event τ) : Decidable (Alone s e) :=
  match e with
  | .go g _ =>
    inferInstanceAs (Decidable (.register ∈ s.todo g → s.shared.run = none →
      ∀ g', ∀ op ∈ s.todo g', op.sending = false))
  | .request .. => .isTrue trivial

structure Steady (c : Content) (s : Sending τ) : Prop where
  content : s.shared.content = c
  single : ∀ g, (s.todo g).length ≤ 1
  alone : ∀ g g' op op', op ∈ s.todo g → op' ∈ s.todo g' → op.sending = true →
    op'.sending = true → g = g'
  picked : ∀ g op i, op ∈ s.todo g → op.position = some i →
    i = s.shared.index ∧ i < c.recipients.length
  reached : s.shared.index ≤ c.recipients.length
  completed : s.shared.state = .completed → c.recipients.length ≤ s.shared.index
  tallied : s.shared.Tallied
  once : s.shared.enqueued.Nodup
  handed : ∀ i ∈ s.shared.enqueued, i < s.shared.index ∨
    i = s.shared.index ∧ ∃ g token outcome, .tally token i outcome ∈ s.todo g

theorem steady_init (c : Content) : Steady c (init c : Sending τ) := by
  constructor
  case content => rfl
  case single => simp [init]
  case alone => simp [init]
  case picked => simp [init]
  case reached => exact Nat.zero_le _
  case completed => simp [init]
  case tallied => exact ⟨rfl, rfl, rfl, rfl⟩
  case once => exact List.nodup_nil
  case handed => simp [init]

variable {c : Content} {s : Sending τ} {g : τ} {op : Op} {rest : List Op}

section

variable (hs : Steady c s) (htodo : s.todo g = op :: rest)

include hs htodo

/-- A task makes one operation after the other. -/
theorem Steady.rest_nil : rest = [] := by
  have hlength := hs.single g
  rw [htodo] at hlength
  simpa using hlength

/-- No other task has picked a recipient. -/
theorem Steady.others (hop : op.sending = true) {g' : τ} (hg : g' ≠ g) {op' : Op}
    (hmem : op' ∈ s.todo g') : op'.sending = false := by
  by_contra hsending
  have hmem' : op ∈ s.todo g := htodo ▸ List.mem_cons_self ..
  exact hg (hs.alone g' g op' op hmem hmem' (by simpa using hsending) hop)

variable [DecidableEq τ] {result : Runner × List Op}

theorem length_todo_perform (hone : result.2.length ≤ 1) (g' : τ) :
    ((s.perform g rest result).todo g').length ≤ 1 := by
  cases hs.rest_nil htodo
  by_cases hg : g' = g
  · subst hg
    simpa [Tasks.perform] using hone
  · simpa [Tasks.perform, hg] using hs.single g'

/-- A task that goes on sending is the one that did, or there was none. -/
theorem alone_perform
    (hrun : ∀ op' ∈ result.2, op'.sending = true →
      op.sending = true ∨ ∀ g', ∀ o ∈ s.todo g', o.sending = false)
    {g₁ g₂ : τ} {op₁ op₂ : Op} (hmem₁ : op₁ ∈ (s.perform g rest result).todo g₁)
    (hmem₂ : op₂ ∈ (s.perform g rest result).todo g₂) (hop₁ : op₁.sending = true)
    (hop₂ : op₂.sending = true) : g₁ = g₂ := by
  have hnew : ∀ {g' op₁ op₂}, op₁ ∈ result.2 → op₁.sending = true → op₂ ∈ s.todo g' →
      op₂.sending = true → g = g' := by
    intro g' op₁ op₂ hpushed hop₁ hmem hop₂
    rcases hrun op₁ hpushed hop₁ with hop | hnone
    · exact hs.alone g g' op op₂ (htodo ▸ List.mem_cons_self ..) hmem hop hop₂
    · exact absurd hop₂ (by simp [hnone g' op₂ hmem])
  rcases Tasks.mem_todo_perform htodo hmem₁ with hold₁ | ⟨rfl, hpushed₁⟩
  · rcases Tasks.mem_todo_perform htodo hmem₂ with hold₂ | ⟨rfl, hpushed₂⟩
    · exact hs.alone g₁ g₂ op₁ op₂ hold₁ hold₂ hop₁ hop₂
    · exact (hnew hpushed₂ hop₂ hold₁ hop₁).symm
  · rcases Tasks.mem_todo_perform htodo hmem₂ with hold₂ | ⟨rfl, -⟩
    · exact hnew hpushed₁ hop₁ hold₂ hop₂
    · rfl

theorem Steady.perform
    {state : State} {run : Option Nat} {nextToken : Nat} {halted : List Nat} {pushed : List Op}
    (hstate : state = .completed →
      s.shared.state = .completed ∨ c.recipients.length ≤ s.shared.index)
    (hone : pushed.length ≤ 1)
    (hrun : ∀ op' ∈ pushed, op'.sending = true →
      op.sending = true ∨ ∀ g', ∀ o ∈ s.todo g', o.sending = false)
    (hpicked : ∀ op' ∈ pushed, ∀ i, op'.position = some i →
      i = s.shared.index ∧ i < c.recipients.length)
    (htally : ∀ token i outcome, op ≠ .tally token i outcome) :
    Steady c (s.perform g rest ({ s.shared with state, run, nextToken, halted }, pushed)) := by
  constructor
  case content => exact hs.content
  case single => exact length_todo_perform hs htodo hone
  case alone => exact fun _ _ _ _ h₁ h₂ => alone_perform hs htodo hrun h₁ h₂
  case picked =>
    intro g' op' i hmem hi
    rcases Tasks.mem_todo_perform htodo hmem with hmem | ⟨-, hpushed⟩
    · exact hs.picked g' op' i hmem hi
    · exact hpicked op' hpushed i hi
  case reached => exact hs.reached
  case completed =>
    intro hcompleted
    rcases hstate hcompleted with hbefore | hreached
    · exact hs.completed hbefore
    · exact hreached
  case tallied => exact { hs.tallied with }
  case once => exact hs.once
  case handed =>
    intro i hi
    rcases hs.handed i hi with hlt | ⟨heq, g', token, outcome, hmem⟩
    · exact .inl hlt
    · exact .inr ⟨heq, g', token, outcome,
        Tasks.mem_perform_todo htodo (fun _ => (htally _ _ _).symm) hmem⟩

end

variable [DecidableEq τ] {i token : Nat} {outcome : Outcome}

/-- A position that is handed over was not handed over before: it is the present one, and nobody
has handed it over and still has to count it. -/
theorem steady_send (hs : Steady c s) (htodo : s.todo g = .send token i :: rest) :
    Steady c (s.perform g rest
      ({ s.shared with enqueued := s.shared.enqueued ++ [i] }, [.tally token i outcome])) := by
  have hsend : .send token i ∈ s.todo g := htodo ▸ List.mem_cons_self ..
  obtain ⟨hi, hlt⟩ := hs.picked g _ i hsend rfl
  have hfresh : ∀ j ∈ s.shared.enqueued, j < s.shared.index := by
    intro j hj
    rcases hs.handed j hj with hlt | ⟨-, g', token', outcome', hmem⟩
    · exact hlt
    cases hs.alone g g' _ _ hsend hmem rfl rfl
    cases hs.rest_nil htodo
    rw [htodo] at hmem
    cases List.mem_singleton.1 hmem
  constructor
  case content => exact hs.content
  case single => exact length_todo_perform hs htodo le_rfl
  case alone =>
    exact fun _ _ _ _ h₁ h₂ => alone_perform hs htodo (fun _ _ _ => .inl rfl) h₁ h₂
  case picked =>
    intro g' op' j hmem hj
    rcases Tasks.mem_todo_perform htodo hmem with hmem | ⟨-, hpushed⟩
    · exact hs.picked g' op' j hmem hj
    · cases List.mem_singleton.1 hpushed
      cases hj
      exact ⟨hi, hlt⟩
  case reached => exact hs.reached
  case completed => exact hs.completed
  case tallied => exact { hs.tallied with }
  case once =>
    refine List.nodup_append.2 ⟨hs.once, List.nodup_singleton i, ?_⟩
    intro j hj k hk
    cases List.mem_singleton.1 hk
    have hbefore := hfresh j hj
    omega
  case handed =>
    intro j hj
    rcases List.mem_append.1 hj with hj | hj
    · exact .inl (hfresh j hj)
    · cases List.mem_singleton.1 hj
      exact .inr ⟨hi, g, token, outcome, Tasks.mem_perform_self (List.mem_singleton_self _)⟩

/-- The present position is counted, and nobody else has picked it. -/
theorem steady_tally (hs : Steady c s) (htodo : s.todo g = .tally token i outcome :: rest) :
    Steady c (s.perform g rest (s.shared.count i outcome, [.next token])) := by
  have htally : .tally token i outcome ∈ s.todo g := htodo ▸ List.mem_cons_self ..
  obtain ⟨rfl, hlt⟩ := hs.picked g _ i htally rfl
  obtain ⟨hcontent, hstate, henqueued⟩ :
      (s.shared.count s.shared.index outcome).content = s.shared.content ∧
      (s.shared.count s.shared.index outcome).state = s.shared.state ∧
      (s.shared.count s.shared.index outcome).enqueued = s.shared.enqueued := by
    cases outcome <;> exact ⟨rfl, rfl, rfl⟩
  constructor
  case content => exact hcontent.trans hs.content
  case single => exact length_todo_perform hs htodo le_rfl
  case alone =>
    exact fun _ _ _ _ h₁ h₂ => alone_perform hs htodo (fun _ _ _ => .inl rfl) h₁ h₂
  case picked =>
    intro g' op' j hmem hj
    have hpicks := Op.sending_of_position hj
    by_cases hg : g' = g
    · subst hg
      cases hs.rest_nil htodo
      simp only [Tasks.perform, Function.update_self, List.append_nil, List.mem_singleton] at hmem
      subst hmem
      cases hj
    · rcases Tasks.mem_todo_perform htodo hmem with hmem | ⟨rfl, -⟩
      · exact absurd hpicks (by simp [hs.others htodo rfl hg hmem])
      · exact absurd rfl hg
  case reached =>
    rw [Tasks.shared_perform, Runner.index_count]
    exact hlt
  case completed =>
    intro hcompleted
    have hreached := hs.completed (hstate ▸ hcompleted)
    omega
  case tallied => exact hs.tallied.count outcome
  case once =>
    rw [Tasks.shared_perform, henqueued]
    exact hs.once
  case handed =>
    rw [Tasks.shared_perform, henqueued, Runner.index_count]
    intro j hj
    rcases hs.handed j hj with hbefore | ⟨rfl, -⟩
    · exact .inl (Nat.lt_succ_of_lt hbefore)
    · exact .inl (Nat.lt_succ_self _)

variable {parses : Bytes → Bool} {a : Answer}

/-- The goroutine goes on with the position that it has picked, or ends. -/
theorem Steady.goesOn {pushed : Op} (hs : Steady c s) (htodo : s.todo g = op :: rest)
    (hop : op.position = some i) (htally : ∀ token i outcome, op ≠ .tally token i outcome)
    (hpushed : pushed.sending = true → pushed.position = some i) :
    Steady c (s.perform g rest (s.shared, [pushed])) := by
  refine hs.perform htodo .inl le_rfl (fun _ _ _ => .inl (Op.sending_of_position hop)) ?_ htally
  intro op' hmem j hj
  cases List.mem_singleton.1 hmem
  cases (hpushed (Op.sending_of_position hj)).symm.trans hj
  exact hs.picked g op i (htodo ▸ List.mem_cons_self ..) hop

theorem steady_exec (hs : Steady c s) (htodo : s.todo g = op :: rest)
    (hregister : op = .register → s.shared.run = none →
      ∀ g', ∀ o ∈ s.todo g', o.sending = false) :
    Steady c (s.perform g rest (s.shared.exec parses op a)) := by
  fun_cases Runner.exec parses s.shared op a with
  | case1 | case15 | case18 =>
    exact hs.perform htodo (by simp) le_rfl (by simp [Op.sending]) (by simp [Op.position]) (by simp)
  | case4 _ hnone =>
    exact hs.perform htodo .inl le_rfl (fun _ _ _ => .inr (hregister rfl hnone))
      (by simp [Op.position]) (by simp)
  -- the goroutine looks how far the campaign is: it ends, or picks the present position
  | case5 =>
    have hlength : s.shared.content.recipients.length = c.recipients.length := by rw [hs.content]
    split
    · next hdone =>
      exact hs.perform htodo (fun _ => .inr (hlength ▸ hdone.1)) le_rfl (by simp [Op.sending])
        (by simp [Op.position]) (by simp)
    · exact hs.perform htodo .inl le_rfl (by simp [Op.sending]) (by simp [Op.position]) (by simp)
  | case6 token _ hgoes =>
    obtain ⟨-, hleft⟩ := not_or.1 hgoes
    refine hs.perform htodo .inl le_rfl (fun _ _ _ => .inl rfl) ?_ (by simp)
    intro op' hmem i hi
    cases List.mem_singleton.1 hmem
    cases hi
    exact ⟨rfl, Nat.lt_of_not_le (hs.content ▸ hleft)⟩
  | case7 token i a =>
    refine hs.goesOn htodo rfl (by simp) ?_
    cases a.yes <;> exact fun _ => rfl
  | case9 => exact hs.goesOn htodo rfl (by simp) fun h => by cases h
  | case8 | case10 | case12 => exact hs.goesOn htodo rfl (by simp) fun _ => rfl
  | case11 => exact steady_send hs htodo
  | case13 => exact steady_tally hs htodo
  | case19 =>
    refine hs.perform htodo .inl ?_ ?_ ?_ (by simp)
    · cases s.shared.run <;> simp
    · simp [Op.sending]
    · simp [Op.position]
  | case14 => split <;> exact hs.perform htodo .inl (by simp) (by simp) (by simp) (by simp)
  | _ => exact hs.perform htodo .inl (by simp) (by simp) (by simp) (by simp)

theorem steady_spawn (hs : Steady c s) (q : Request) : Steady c (s.spawn g [q.op]) := by
  have hop : q.op.sending = false := by cases q <;> rfl
  have hbefore : ∀ {g' op'}, op' ∈ (s.spawn g [q.op]).todo g' → op'.sending = true →
      op' ∈ s.todo g' := by
    intro g' op' hmem hsending
    rcases Tasks.mem_todo_spawn hmem with hmem | hmem
    · exact hmem
    · cases List.mem_singleton.1 hmem
      exact absurd hsending (by simp [hop])
  constructor
  case content => simpa using hs.content
  case single =>
    intro g'
    unfold Tasks.spawn
    split
    · by_cases hg : g' = g
      · subst hg
        simp
      · simpa [hg] using hs.single g'
    · exact hs.single g'
  case alone =>
    intro g₁ g₂ op₁ op₂ hmem₁ hmem₂ hop₁ hop₂
    exact hs.alone g₁ g₂ op₁ op₂ (hbefore hmem₁ hop₁) (hbefore hmem₂ hop₂) hop₁ hop₂
  case picked =>
    intro g' op' i hmem hi
    rw [Tasks.shared_spawn]
    exact hs.picked g' op' i (hbefore hmem (Op.sending_of_position hi)) hi
  case reached => simpa using hs.reached
  case completed => simpa using hs.completed
  case tallied => simpa using hs.tallied
  case once => simpa using hs.once
  case handed =>
    rw [Tasks.shared_spawn]
    intro i hi
    rcases hs.handed i hi with hlt | ⟨heq, g', token, outcome, hmem⟩
    · exact .inl hlt
    · exact .inr ⟨heq, g', token, outcome, Tasks.mem_spawn_todo _ hmem⟩

theorem steady_step {e : Event τ} (he : Alone s e) (hs : Steady c s) :
    Steady c (step parses s e) := by
  cases e with
  | request g q => exact steady_spawn hs q
  | go g a =>
    refine Tasks.advance_induction _ hs a ?_
    intro op rest htodo
    refine steady_exec hs htodo ?_
    rintro rfl
    exact he (htodo ▸ List.mem_cons_self ..)

/-- In every run in which the campaign is started again only after its goroutine has ended, no
recipient is handed to the queue twice. When the campaign is completed, every recipient has been
counted once, in order, and the counters say how many were sent, failed and skipped. -/
theorem recipients_once (parses : Bytes → Bool) (c : Content) (events : List (Event τ))
    (h : Machine.Along (step parses) Alone (init c) events) :
    let r := (Machine.run (step parses) (init c) events).shared
    r.enqueued.Nodup ∧ (∀ i ∈ r.enqueued, i < c.recipients.length) ∧
    (r.state = .completed →
      r.outcomes.map Prod.fst = List.range c.recipients.length ∧
      r.sent = (r.outcomes.countP fun o => o.2.isSent) ∧
      r.failed = (r.outcomes.countP fun o => o.2.isFailed) ∧
      r.skipped = r.outcomes.countP fun o => o.2.isSkipped) := by
  intro r
  have hs : Steady c (Machine.run (step parses) (init c) events) :=
    h.run_invariant (Steady c) (fun s e he hs => steady_step he hs) (steady_init c)
  refine ⟨hs.once, ?_, ?_⟩
  · intro i hi
    rcases hs.handed i hi with hlt | ⟨-, g, token, outcome, hmem⟩
    · exact Nat.lt_of_lt_of_le hlt hs.reached
    · exact (hs.picked g _ i hmem rfl).2
  · intro hcompleted
    have hindex : r.index = c.recipients.length := le_antisymm hs.reached (hs.completed hcompleted)
    obtain ⟨hcounted, hsent, hfailed, hskipped⟩ := hs.tallied
    exact ⟨hindex ▸ hcounted, hsent, hfailed, hskipped⟩

def newsletter : Content :=
  { name := lit "News"
    fromAddress := lit "news@example.com"
    replyTo := []
    subject := lit "News"
    htmlBody := []
    textBody := lit "Hello"
    recipients := [⟨lit "ann@example.com", []⟩, ⟨lit "bob@example.com", []⟩]
    ratePerMinute := 0 }

def good (g : τ) : Event τ :=
  .go g ⟨true, true, []⟩

/-- A start by the task, and its goroutine until the first message has been handed over. -/
def sendsOne (g : τ) : List (Event τ) :=
  [.request g .start, good g, good g, good g, .go g ⟨false, true, []⟩, good g, good g]

def pauses (g : τ) : List (Event τ) :=
  [.request g .pause, good g, good g, good g]

/-- The campaign is paused during the first send and resumed after the goroutine has ended; the
second recipient is suppressed. -/
def resumedLater : List (Event (Fin 2)) :=
  sendsOne 0 ++ pauses 1 ++ [good 0, good 0, good 0] ++
    [.request 1 .start, good 1, good 1, good 1, good 1, good 1, good 1]

theorem recipients_once_resumed :
    let r := (Machine.run (step fun _ => true) (init newsletter) resumedLater).shared
    r.state = .completed ∧ r.enqueued.Nodup ∧ r.outcomes.map Prod.fst = List.range 2 := by
  have h := recipients_once (fun _ => true) newsletter resumedLater (by decide +kernel)
  have hcompleted :
      (Machine.run (step fun _ => true) (init newsletter) resumedLater).shared.state =
        .completed := by decide +kernel
  exact ⟨hcompleted, h.1, (h.2.2 hcompleted).1⟩

/-- The campaign is resumed while the first send is still under way: it is completed with two
messages to the first recipient and none to the second. -/
theorem resumed_during_send :
    let r := (Machine.run (step fun _ => true) (init newsletter)
      (sendsOne 0 ++ pauses 1 ++ sendsOne 2 ++
        ([good 0, good 2, good 2] : List (Event (Fin 3))))).shared
    r.state = .completed ∧ r.enqueued = [0, 0] ∧ r.outcomes.map Prod.fst = [0, 0] := by
  decide +kernel

end Sending
end Elemta.Campaign

import Guestkit.Lib.Trace

/-! Jobs that a worker executes side by side, and the gauge of those that are active.  A step is
what one call of `execute` does until it is suspended or returns. -/

namespace Guestkit.JobExecutor

open Lib List

inductive JobState where
  | completed
  | failed
  | timeout
  deriving DecidableEq

/-- Where a call of `execute` stands.  The transitions of its own state machine are all valid. -/
inductive Stage where
  | validating
  | refusing
  | running
  | writing (state : JobState)
  | returned
  deriving DecidableEq

/-- A call, by the idempotency key of its job. -/
structure Call where
  key : Option String
  stage : Stage

/-- The gauge, the keys in the idempotency cache, and the calls that have begun. -/
structure State where
  activeJobs : ℤ
  idempotencyCache : List String := []
  calls : List Call := []

/-- What is awaited: the validation, the handler or its timeout, the result writer. -/
structure Outcome where
  valid : Bool := true
  state : JobState := .completed
  written : Bool := true

/-- A call begins, or the `i`-th call goes on. -/
inductive Event where
  | execute (key : Option String)
  | turn (i : ℕ) (outcome : Outcome)

/-- The cache has a result for the key of a job. -/
def State.hit (s : State) (key : Option String) : Bool := key.any (· ∈ s.idempotencyCache)

/-- What comes after an await. -/
def next (outcome : Outcome) : Stage → Stage
  | .validating => if outcome.valid then .running else .refusing
  | .running => .writing outcome.state
  | .refusing | .writing _ | .returned => .returned

/-- The gauge is raised at the beginning, and lowered when the handler is over. -/
def step (s : State) : Event → State
  | .execute key =>
    { s with
      activeJobs := s.activeJobs + 1
      calls := s.calls ++ [⟨key, if s.hit key then .returned else .validating⟩] }
  | .turn i outcome =>
    match s.calls[i]? with
    | none => s
    | some call =>
      { activeJobs := if call.stage = .running then s.activeJobs - 1 else s.activeJobs
        idempotencyCache :=
          if call.stage = .writing .completed ∧ outcome.written then
            call.key.toList ++ s.idempotencyCache
          else s.idempotencyCache
        calls := s.calls.set i ⟨call.key, next outcome call.stage⟩ }

/-- The state after a run. -/
def run (events : List Event) (s : State) : State := events.foldl step s

/-- The gauge is above its initial value by the number of calls in progress. -/
def Counts (initial : ℤ) (s : State) : Prop :=
  s.activeJobs = initial + s.calls.countP (·.stage ≠ .returned)

/-- A call begins whose job is not in the cache, or goes on with its validation. -/
def Begins (s : State) : Event → Prop
  | .execute key => s.hit key = false
  | .turn i _ => ∀ call, s.calls[i]? = some call → call.stage = .validating

/-- The event does not settle that a call returns without its handler: by a result in the cache, or
by a validation that fails. -/
def Handled (s : State) : Event → Prop
  | .execute key => s.hit key = false
  | .turn i outcome => ∀ call, s.calls[i]? = some call → call.stage = .validating → outcome.valid

/-- The handler is not over, and the call has not returned. -/
def Stage.Open : Stage → Prop
  | .writing _ | .returned => False
  | _ => True

variable {s : State}

def Stage.underway : Stage → Bool
  | .validating | .running => true
  | _ => false

/-- How far the gauge is above the number of calls on their way to the end of their handlers. -/
def State.excess (s : State) : ℤ := s.activeJobs - s.calls.countP (·.stage.underway)

theorem countP_turn {p : Call → Bool} {i : ℕ} {call call' : Call}
    (hcall : s.calls[i]? = some call) :
    ((s.calls.set i call').countP p : ℤ) =
      s.calls.countP p - (if p call then 1 else 0) + if p call' then 1 else 0 := by
  obtain ⟨hi, hget⟩ := List.getElem?_eq_some_iff.mp hcall
  have hpos : (if p call then 1 else 0) ≤ s.calls.countP p := by
    split_ifs with hp
    · exact countP_pos_iff.mpr ⟨call, mem_of_getElem? hcall, hp⟩
    · exact Nat.zero_le _
  rw [countP_set hi, hget]
  push_cast [hpos]
  rfl

/-- As long as no handler is over and no call has returned, the count survives just the events of
`Begins`. -/
theorem counts_step_iff {initial : ℤ}
    (h : Counts initial s ∧ ∀ call ∈ s.calls, call.stage.Open) (e : Event) :
    Counts initial (step s e) ↔ Begins s e := by
  obtain ⟨hcounts, hopen⟩ := h
  unfold Counts at *
  cases e with
  | execute key =>
    simp only [step, Begins, countP_append, countP_singleton, hcounts]
    cases s.hit key <;> simp
    omega
  | turn i outcome =>
    cases hcall : s.calls[i]? with
    | none => simp [step, Begins, hcall, hcounts]
    | some call =>
      have hstage := hopen call (mem_of_getElem? hcall)
      simp only [step, Begins, hcall, countP_turn hcall, hcounts, Option.some.injEq, forall_eq']
      cases hc : call.stage with
      | validating => cases hv : outcome.valid <;> simp [next, hv]
      | refusing =>
        simp [next]
        omega
      | running => simp [next]
      | writing state => simp [hc, Stage.Open] at hstage
      | returned => simp [hc, Stage.Open] at hstage

theorem open_step (h : ∀ call ∈ s.calls, call.stage.Open) {e : Event} (he : Begins s e) :
    ∀ call ∈ (step s e).calls, call.stage.Open := by
  intro c hc
  cases e with
  | execute key =>
    simp only [step, show s.hit key = false from he, mem_append, mem_singleton] at hc
    obtain hc | rfl := hc
    · exact h c hc
    · trivial
  | turn i outcome =>
    cases hcall : s.calls[i]? with
    | none =>
      simp only [step, hcall] at hc
      exact h c hc
    | some call =>
      simp only [step, hcall] at hc
      obtain hc | rfl := mem_or_eq_of_mem_set hc
      · exact h c hc
      · rw [he call hcall]
        cases hv : outcome.valid <;> simp [next, hv, Stage.Open]

theorem excess_step (e : Event) :
    (Handled s e ∧ (step s e).excess = s.excess) ∨
      (¬Handled s e ∧ (step s e).excess = s.excess + 1) := by
  cases e with
  | execute key =>
    simp only [step, State.excess, Handled, countP_append, countP_singleton]
    cases s.hit key <;> simp [Stage.underway]
    omega
  | turn i outcome =>
    cases hcall : s.calls[i]? with
    | none => simp [step, Handled, hcall]
    | some call =>
      simp only [step, State.excess, Handled, hcall, countP_turn hcall, Option.some.injEq,
        forall_eq']
      cases hc : call.stage with
      | validating =>
        cases hv : outcome.valid <;> simp [next, hv, Stage.underway]
        omega
      | running => simp [next, Stage.underway]
      | refusing => simp [next, Stage.underway]
      | writing state => simp [next, Stage.underway]
      | returned => simp [next, Stage.underway]

/-- The excess never falls, and stays the same just over the runs of `Handled`. -/
theorem excess_run (events : List Event) (s : State) :
    s.excess ≤ (run events s).excess ∧
      ((run events s).excess = s.excess ↔ Throughout step Handled events s) := by
  induction events generalizing s with
  | nil => simp [run, Throughout]
  | cons e events ih =>
    obtain ⟨hle, heq⟩ := ih (step s e)
    simp only [run, foldl_cons, Throughout] at *
    obtain ⟨he, hstep⟩ | ⟨he, hstep⟩ := excess_step (s := s) e
    · rw [hstep] at hle heq
      exact ⟨hle, heq.trans (and_iff_right he).symm⟩
    · exact ⟨by omega, iff_of_false (by omega) fun h => he h.1⟩

/-- After each step of a run the gauge counts the calls in progress just when no call is resumed
that is past its validation, and none is answered from the cache.  When all calls have returned, it
is back at its initial value just when each of them had its handler called. -/
theorem counts_throughout_iff (initial : ℤ) (cache : List String) (events : List Event) :
    (Throughout step (fun s e => Counts initial (step s e)) events ⟨initial, cache, []⟩ ↔
      Throughout step Begins events ⟨initial, cache, []⟩) ∧
    ((∀ call ∈ (run events ⟨initial, cache, []⟩).calls, call.stage = .returned) →
      ((run events ⟨initial, cache, []⟩).activeJobs = initial ↔
        Throughout step Handled events ⟨initial, cache, []⟩)) := by
  constructor
  · refine throughout_congr (fun _ e h => counts_step_iff h e) (fun s e h he => ?_) events _
      ⟨by simp [Counts], by simp⟩
    exact ⟨(counts_step_iff h e).mpr he, open_step h.2 he⟩
  · intro hreturned
    have hnone : (run events ⟨initial, cache, []⟩).calls.countP (·.stage.underway) = 0 :=
      countP_eq_zero.mpr fun call hcall => by simp [hreturned call hcall, Stage.underway]
    rw [← (excess_run events ⟨initial, cache, []⟩).2]
    simp [State.excess, hnone]

/-- A job that is not valid: its call returns, and the gauge stays where it is. -/
def refusal : List Event :=
  [.execute none, .turn 0 { valid := false }, .turn 0 {}]

theorem refusal_stays_active :
    (∀ call ∈ (run refusal ⟨0, [], []⟩).calls, call.stage = .returned) ∧
      (run refusal ⟨0, [], []⟩).activeJobs = 1 ∧
      ¬Throughout step (fun s e => Counts 0 (step s e)) refusal ⟨0, [], []⟩ := by
  refine ⟨by decide, by decide, fun h => ?_⟩
  have hlast : (1 : ℤ) = 0 + 0 := h.2.2.1
  omega

end Guestkit.JobExecutor

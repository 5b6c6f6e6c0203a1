import Mathlib

/-! Workers that take jobs from a Redis stream as one consumer group.  A step is one Redis command
of a worker, an entry that is added, or a crash. -/

namespace Guestkit.Worker

open List

abbrev Entry := List (String × String)

def jobText (entry : Entry) : String := ((entry.find? (·.1 = "job")).map Prod.snd).getD ""

inductive Status where
  | running
  | completed
  | failed
  deriving DecidableEq

/-- Where a worker stands.  Its map of pending jobs has the entry in hand and no other. -/
inductive Stage where
  | polling
  | fetched (entry : Nat) (job : String)
  | running (entry : Nat) (job : String)
  | acked (entry : Nat) (job : String) (ok : Bool)

structure Process where
  consumer : String
  stage : Stage

/-- `next` is the first entry that the group has not been given, `pel` its pending entries with
their consumers.  `published` has the statuses written, each with the entry it is for. -/
structure Cluster (ι : Type) where
  stream : List Entry := []
  next : Nat := 0
  pel : List (Nat × String) := []
  published : List (Nat × String × Status) := []
  processes : ι → Process

inductive Event (ι : Type) where
  | add (entry : Entry)
  | turn (i : ι) (ok : Bool)
  | crash (i : ι) (consumer : String)

section Model

variable {ι : Type} [DecidableEq ι] (parse : String → Option String)

variable (s : Cluster ι)

def Cluster.stage (i : ι) : Stage := (s.processes i).stage

def Cluster.move (i : ι) (stage : Stage) : Cluster ι :=
  { s with processes := Function.update s.processes i { s.processes i with stage } }

/-- The next command of a worker: `XREADGROUP` of a new entry, the status "running", `XACK` when the
job has been executed, the last status. -/
def turn (i : ι) (ok : Bool) : Cluster ι :=
  match s.stage i with
  | .polling =>
    match s.stream[s.next]? with
    | none => s
    | some entry =>
      let given := { s with
        next := s.next + 1
        pel := (s.next, (s.processes i).consumer) :: s.pel }
      given.move i (match parse (jobText entry) with
        | some job => .fetched s.next job
        | none => .polling)
  | .fetched e job =>
    { s with published := (e, job, .running) :: s.published }.move i (.running e job)
  | .running e job => { s with pel := s.pel.filter (·.1 ≠ e) }.move i (.acked e job ok)
  | .acked e job ok =>
    { s with
      published := (e, job, if ok then .completed else .failed) :: s.published }.move i .polling

def step : Event ι → Cluster ι
  | .add entry => { s with stream := s.stream ++ [entry] }
  | .turn i ok => turn parse s i ok
  | .crash i consumer =>
    { s with processes := Function.update s.processes i ⟨consumer, .polling⟩ }

/-- A run from the empty stream; `parse` is the job id of a document that serde accepts. -/
structure Run (ι : Type) where
  parse : String → Option String
  consumers : ι → String
  events : Nat → Event ι

def Run.state (r : Run ι) : Nat → Cluster ι
  | 0 => { processes := fun i => ⟨r.consumers i, .polling⟩ }
  | t + 1 => step r.parse (r.state t) (r.events t)

def Cluster.Pending (e : Nat) : Prop := ∃ consumer, (e, consumer) ∈ s.pel

def Cluster.Settled (e : Nat) : Prop :=
  ∃ job status, status ≠ .running ∧ (e, job, status) ∈ s.published

/-- Every entry gets its last status or is delivered again and again, and none stays pending. -/
def Run.Served (r : Run ι) : Prop :=
  (∀ t, ∀ e < (r.state t).stream.length, (∃ t', (r.state t').Settled e) ∨
    ∀ t₁, ∃ t' ≥ t₁, (r.state t').next = e ∧ (r.state (t' + 1)).next = e + 1) ∧
  ∀ t e, (r.state t).Pending e → ∃ t' ≥ t, ¬(r.state t').Pending e

/-- Each worker, started again after a crash, goes on with its commands. -/
def Run.Fair (r : Run ι) : Prop := ∀ i t, ∃ t' ≥ t, ∃ ok, r.events t' = .turn i ok

/-- All entries parse, and no worker crashes with an entry in hand. -/
structure Run.Calm (r : Run ι) : Prop where
  wellFormed : ∀ t entry, r.events t = .add entry → ∃ job, r.parse (jobText entry) = some job
  uninterrupted : ∀ t i consumer, r.events t = .crash i consumer → (r.state t).stage i = .polling

end Model

def Stage.entry : Stage → Option Nat
  | .polling => none
  | .fetched e _ | .running e _ | .acked e _ _ => some e

def Stage.unacked : Stage → Option Nat
  | .polling | .acked _ _ _ => none
  | .fetched e _ | .running e _ => some e

theorem Cluster.Settled.cons {ι : Type} {s : Cluster ι} {e : Nat} (h : s.Settled e) (status) :
    { s with published := status :: s.published }.Settled e := by
  obtain ⟨job, last, hlast, hmem⟩ := h
  exact ⟨job, last, hlast, mem_cons_of_mem _ hmem⟩

theorem settled_last {ι : Type} (s : Cluster ι) (e : Nat) (job : String) (ok : Bool) :
    { s with published := (e, job, if ok then .completed else .failed) :: s.published }.Settled e :=
  ⟨job, _, by cases ok <;> decide, mem_cons_self⟩

section Runs

variable {ι : Type} [DecidableEq ι] {parse : String → Option String}
variable {s : Cluster ι}

theorem stage_move (s : Cluster ι) (i j : ι) (stage : Stage) :
    (s.move i stage).stage j = if j = i then stage else s.stage j := by
  unfold Cluster.move Cluster.stage
  by_cases h : j = i
  · subst h
    simp
  · simp [h]

/-- What holds at each time of a calm run. -/
structure Kept (parse : String → Option String) (s : Cluster ι) : Prop where
  parses : ∀ entry ∈ s.stream, ∃ job, parse (jobText entry) = some job
  held : ∀ e < s.next, s.Settled e ∨ ∃ i, (s.stage i).entry = some e
  pending : ∀ e, s.Pending e → ∃ i, (s.stage i).unacked = some e

theorem exists_move {f : Stage → Option Nat} {i : ι} {before after : Stage} {e : Nat}
    (h : ∃ j, f (s.stage j) = some e) (hstage : s.stage i = before)
    (hi : f before = some e → f after = some e) :
    ∃ j, f ((s.move i after).stage j) = some e := by
  obtain ⟨j, hj⟩ := h
  refine ⟨j, ?_⟩
  rw [stage_move]
  split
  · next hji => exact hi (by rw [← hstage, ← hji, hj])
  · exact hj

theorem Kept.turn (h : Kept parse s) (i : ι) (ok : Bool) :
    Kept parse (turn parse s i ok) := by
  unfold Worker.turn
  cases hstage : s.stage i with
  | polling =>
    cases hnext : s.stream[s.next]? with
    | none => exact h
    | some entry =>
      obtain ⟨job, hjob⟩ := h.parses entry (mem_of_getElem? hnext)
      simp only [hjob]
      refine ⟨h.parses, fun e he => ?_, ?_⟩
      · rcases Nat.lt_succ_iff_lt_or_eq.mp he with he | rfl
        · exact (h.held e he).imp id (exists_move · hstage nofun)
        · exact .inr ⟨i, by rw [stage_move, if_pos rfl]; rfl⟩
      · rintro e ⟨consumer, hmem⟩
        rcases mem_cons.mp hmem with hmem | hmem
        · cases hmem
          exact ⟨i, by rw [stage_move, if_pos rfl]; rfl⟩
        · exact exists_move (h.pending e ⟨consumer, hmem⟩) hstage nofun
  | fetched e0 job =>
    exact ⟨h.parses, fun e he => (h.held e he).imp (·.cons _) (exists_move · hstage id),
      fun e he => exists_move (h.pending e he) hstage id⟩
  | running e0 job =>
    refine ⟨h.parses, fun e he => (h.held e he).imp id (exists_move · hstage id), ?_⟩
    rintro e ⟨consumer, hmem⟩
    obtain ⟨hmem, hne⟩ : (e, consumer) ∈ s.pel ∧ e ≠ e0 := by simpa using mem_filter.mp hmem
    exact exists_move (h.pending e ⟨consumer, hmem⟩) hstage fun hi =>
      absurd (Option.some.inj hi).symm hne
  | acked e0 job ok =>
    refine ⟨h.parses, fun e he => ?_, fun e he => exists_move (h.pending e he) hstage nofun⟩
    by_cases heq : e = e0
    · exact .inl (heq ▸ settled_last s e0 job ok)
    · exact (h.held e he).imp (·.cons _) (exists_move · hstage fun hi =>
        absurd (Option.some.inj hi).symm heq)

variable {r : Run ι}

theorem stage_crash {i : ι} (h : s.stage i = .polling) (consumer : String) :
    (step parse s (.crash i consumer)).stage = s.stage := by
  funext j
  by_cases hj : j = i
  · subst hj
    rw [h]
    simp [step, Cluster.stage]
  · simp [step, Cluster.stage, hj]

theorem turn_frame (parse : String → Option String) (s : Cluster ι) (i : ι) (ok : Bool) :
    (∀ j ≠ i, (turn parse s i ok).stage j = s.stage j) ∧ s.next ≤ (turn parse s i ok).next ∧
      (turn parse s i ok).stream = s.stream := by
  unfold turn
  split
  · split
    · exact ⟨fun _ _ => rfl, Nat.le_refl _, rfl⟩
    · exact ⟨fun j hj => (stage_move ..).trans (if_neg hj), Nat.le_succ _, rfl⟩
  all_goals exact ⟨fun j hj => (stage_move ..).trans (if_neg hj), Nat.le_refl _, rfl⟩

theorem kept_state (hcalm : r.Calm) (t : Nat) :
    Kept r.parse (r.state t) := by
  induction t with
  | zero => exact ⟨nofun, nofun, nofun⟩
  | succ t ih =>
    rw [Run.state]
    cases hevent : r.events t with
    | add entry =>
      refine ⟨fun entry' hmem => ?_, ih.held, ih.pending⟩
      rcases mem_append.mp hmem with hmem | hmem
      · exact ih.parses entry' hmem
      · exact hcalm.wellFormed t entry' (by rw [hevent, mem_singleton.mp hmem])
    | turn i ok => exact ih.turn i ok
    | crash i consumer =>
      refine ⟨ih.parses, ?_, ?_⟩
      · rw [stage_crash (hcalm.uninterrupted t i consumer hevent)]
        exact ih.held
      · rw [stage_crash (hcalm.uninterrupted t i consumer hevent)]
        exact ih.pending

/-- A worker stands where it is until its next turn. -/
theorem until_turn (hcalm : r.Calm) (hfair : r.Fair) (i : ι) (t : Nat) :
    ∃ t' ≥ t, ∃ ok, r.state (t' + 1) =
        turn r.parse (r.state t') i ok ∧
      (r.state t').stage i = (r.state t).stage i := by
  obtain ⟨t₁, hle, hturn⟩ := hfair i t
  obtain ⟨n, rfl⟩ := Nat.exists_eq_add_of_le hle
  clear hle
  induction n generalizing t with
  | zero =>
    obtain ⟨ok, hturn⟩ := hturn
    exact ⟨t, Nat.le_refl t, ok, congrArg (step r.parse (r.state t)) hturn, rfl⟩
  | succ n ih =>
    by_cases hnow : ∃ ok, r.events t = .turn i ok
    · obtain ⟨ok, hnow⟩ := hnow
      exact ⟨t, Nat.le_refl t, ok, congrArg (step r.parse (r.state t)) hnow, rfl⟩
    · obtain ⟨t', hle, ok, hturn, hstage⟩ :=
        ih (t + 1) (by rwa [← Nat.succ_add_eq_add_succ] at hturn)
      refine ⟨t', by omega, ok, hturn, hstage.trans ?_⟩
      rw [Run.state]
      cases hevent : r.events t with
      | add entry => rfl
      | turn j ok => exact (turn_frame ..).1 i fun hij => hnow ⟨ok, by rw [hevent, hij]⟩
      | crash j consumer => rw [stage_crash (hcalm.uninterrupted t j consumer hevent)]

theorem state_mono (r : Run ι) {t t' : Nat} (h : t ≤ t') :
    (r.state t).next ≤ (r.state t').next ∧
      (r.state t).stream.length ≤ (r.state t').stream.length := by
  induction h with
  | refl => exact ⟨Nat.le_refl _, Nat.le_refl _⟩
  | @step t' hle ih =>
    rw [Run.state]
    cases r.events t' with
    | add entry => exact ⟨ih.1, by simp only [step, length_append]; omega⟩
    | turn i ok =>
      obtain ⟨-, hnext, hstream⟩ := turn_frame r.parse (r.state t') i ok
      exact ⟨Nat.le_trans ih.1 hnext, by rw [step, hstream]; exact ih.2⟩
    | crash i consumer => exact ih

section Progress

variable (hcalm : r.Calm) (hfair : r.Fair) {i : ι} {t e : Nat} {job : String}
include hcalm hfair

theorem acked_settles {ok : Bool}
    (h : (r.state t).stage i = .acked e job ok) :
    ∃ t' ≥ t, (r.state t').stage i = .polling ∧
      (r.state t').Settled e := by
  obtain ⟨t₁, hle, ok', hturn, hstage⟩ := until_turn hcalm hfair i t
  refine ⟨t₁ + 1, by omega, ?_⟩
  rw [hturn, turn, hstage, h]
  exact ⟨by rw [stage_move, if_pos rfl], settled_last _ e job ok⟩

theorem running_settles (h : (r.state t).stage i = .running e job) :
    ∃ t₁ ≥ t, ¬(r.state t₁).Pending e ∧
      ∃ t' ≥ t₁, (r.state t').stage i = .polling ∧
        (r.state t').Settled e := by
  obtain ⟨t₁, hle, ok, hturn, hstage⟩ := until_turn hcalm hfair i t
  refine ⟨t₁ + 1, by omega, ?_, ?_⟩
  · rw [hturn, turn, hstage, h]
    rintro ⟨consumer, hmem⟩
    simpa using (mem_filter.mp hmem).2
  · have hacked : (r.state (t₁ + 1)).stage i = .acked e job ok := by
      rw [hturn, turn, hstage, h]
      exact (stage_move ..).trans (if_pos rfl)
    exact acked_settles hcalm hfair hacked

theorem unacked_settles (h : ((r.state t).stage i).unacked = some e) :
    ∃ t₁ ≥ t, ¬(r.state t₁).Pending e ∧
      ∃ t' ≥ t₁, (r.state t').stage i = .polling ∧ (r.state t').Settled e := by
  cases hstage : (r.state t).stage i with
  | polling | acked =>
    rw [hstage] at h
    cases h
  | running e0 job =>
    rw [hstage] at h
    cases h
    exact running_settles hcalm hfair hstage
  | fetched e0 job =>
    rw [hstage] at h
    cases h
    obtain ⟨t₁, hle, ok, hturn, hsame⟩ := until_turn hcalm hfair i t
    have hrunning : (r.state (t₁ + 1)).stage i = .running e job := by
      rw [hturn, turn, hsame, hstage]
      exact (stage_move ..).trans (if_pos rfl)
    obtain ⟨t2, hle2, hrest⟩ := running_settles hcalm hfair hrunning
    exact ⟨t2, by omega, hrest⟩

theorem polls_again (i : ι) (t : Nat) : ∃ t' ≥ t, (r.state t').stage i = .polling ∧
    ∀ e, ((r.state t).stage i).entry = some e → (r.state t').Settled e := by
  cases hstage : (r.state t).stage i with
  | polling => exact ⟨t, Nat.le_refl t, hstage, nofun⟩
  | acked e job ok =>
    obtain ⟨t', hle, hpolling, hsettled⟩ := acked_settles hcalm hfair hstage
    exact ⟨t', hle, hpolling, by rintro _ ⟨⟩; exact hsettled⟩
  | fetched e job | running e job =>
    obtain ⟨t₁, hle, -, t', hle', hpolling, hsettled⟩ :=
      unacked_settles hcalm hfair (congrArg Stage.unacked hstage)
    exact ⟨t', by omega, hpolling, by rintro _ ⟨⟩; exact hsettled⟩

theorem delivered [Nonempty ι] (h : e < (r.state t).stream.length) :
    ∃ t', e < (r.state t').next := by
  obtain ⟨i⟩ := ‹Nonempty ι›
  -- each turn of a polling worker leaves one entry less before this one
  have hrank : ∀ n t, e < (r.state t).stream.length → e < (r.state t).next + n →
      ∃ t', e < (r.state t').next := by
    intro n
    induction n with
    | zero => exact fun t _ hnext => ⟨t, hnext⟩
    | succ n ih =>
      intro t hlen hnext
      obtain ⟨t₁, hle1, hpolling, -⟩ := polls_again hcalm hfair i t
      obtain ⟨t2, hle2, ok, hturn, hstage⟩ := until_turn hcalm hfair i t₁
      obtain ⟨hmore, hlonger⟩ := state_mono r (Nat.le_trans hle1 hle2)
      by_cases hdone : e < (r.state t2).next
      · exact ⟨t2, hdone⟩
      · have hadvance : (r.state (t2 + 1)).next = (r.state t2).next + 1 := by
          have hnew : (r.state t2).next < (r.state t2).stream.length := by omega
          rw [hturn, turn, hstage, hpolling, List.getElem?_eq_getElem hnew]
          rfl
        obtain ⟨-, hlonger'⟩ := state_mono r (Nat.le_add_right t2 1)
        exact ih (t2 + 1) (by omega) (by omega)
  exact hrank (e + 1) t h (by omega)

end Progress

end Runs

theorem Run.Calm.served {ι : Type} [DecidableEq ι] [Nonempty ι] {r : Run ι} (hfair : r.Fair)
    (hcalm : r.Calm) : r.Served := by
  refine ⟨fun t e he => .inl ?_, fun t e he => ?_⟩
  · obtain ⟨t₁, hnext⟩ := delivered hcalm hfair he
    rcases (kept_state hcalm t₁).held e hnext with hsettled | ⟨i, hi⟩
    · exact ⟨t₁, hsettled⟩
    · obtain ⟨t', -, -, hsettled⟩ := polls_again hcalm hfair i t₁
      exact ⟨t', hsettled e hi⟩
  · obtain ⟨i, hi⟩ := (kept_state hcalm t).pending e he
    obtain ⟨t₁, hle, hacked, -⟩ := unacked_settles hcalm hfair hi
    exact ⟨t₁, hle, hacked⟩

def inspectJob : String :=
  "\x7b\"version\":\"1.0\",\"job_id\":\"job-1\",\"created_at\":\"2026-01-01T00:00:00Z\"," ++
    "\"kind\":\"VMOperation\",\"operation\":\"guestkit.inspect\"," ++
    "\"payload\":\x7b\"type\":\"guestkit.inspect.v1\",\"data\":null\x7d\x7d"

def readJob (text : String) : Option String := if text = inspectJob then some "job-1" else none

theorem readJob_inspectJob : readJob (jobText [("job", inspectJob)]) = some "job-1" := by
  simp [readJob, jobText]

def crashRun : Run Unit where
  parse := readJob
  consumers _ := "worker-1"
  events
    | 0 => .add [("job", inspectJob)]
    | 2 => .crash () "worker-1"
    | _ => .turn () true

theorem crashRun_not_served : crashRun.Fair ∧ ¬crashRun.Served := by
  have hstuck : ∀ t, crashRun.state (t + 3) = crashRun.state 3 := by
    intro t
    induction t with
    | zero => rfl
    | succ t ih =>
      rw [Run.state, ih]
      simp [Run.state, crashRun, step, turn, Cluster.stage, Cluster.move]
  refine ⟨fun _ t => ⟨t + 3, by omega, true, rfl⟩, fun ⟨_, hpending⟩ => ?_⟩
  obtain ⟨t, hle, hfree⟩ := hpending 3 0 ⟨"worker-1", by decide⟩
  obtain ⟨n, rfl⟩ := Nat.exists_eq_add_of_le' hle
  rw [hstuck] at hfree
  exact hfree ⟨"worker-1", by decide⟩

/-- The worker crashes while it polls. -/
def calmRun : Run Unit where
  parse := readJob
  consumers _ := "worker-1"
  events
    | 0 => .add [("job", inspectJob)]
    | 1 => .crash () "worker-2"
    | _ => .turn () true

theorem Run.Calm.served_one : calmRun.Served := by
  refine Run.Calm.served (fun _ t => ⟨t + 2, by omega, true, rfl⟩) ⟨fun t entry h => ?_, ?_⟩
  · match t, h with
    | 0, h =>
      cases h
      simp [calmRun, readJob_inspectJob]
    | 1, h => cases h
    | t + 2, h => cases h
  · intro t i consumer h
    match t, h with
    | 0, h => cases h
    | 1, _ => simp [Run.state, calmRun, step, Cluster.stage]
    | t + 2, h => cases h

end Guestkit.Worker

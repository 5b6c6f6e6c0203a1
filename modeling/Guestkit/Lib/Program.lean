import Mathlib

/-! Programs that call operations one after the other, and machines on which any number of them run
at the same time.  An operation takes effect at once; between two operations of a program those of
others can come, time can pass, and the machine can crash.  Two rules for such runs are at the end:
one for programs that others disturb only in ways they can rely on, and one for programs that run
one at a time. -/

namespace Guestkit.Lib

open Option

/-- A program calls an operation and goes on with what it replies. -/
inductive Program (Op : Type) (Reply : Op → Type) (α : Type) where
  | ret (value : α)
  | call (op : Op) (next : Reply op → Program Op Reply α)

namespace Program

variable {Op : Type} {Reply : Op → Type} {α β : Type}

def bind : Program Op Reply α → (α → Program Op Reply β) → Program Op Reply β
  | ret value, f => f value
  | call op next, f => call op fun reply => (next reply).bind f

instance : Monad (Program Op Reply) where
  pure := ret
  bind := bind

def perform (op : Op) : Program Op Reply (Reply op) := call op ret

def Every (P : Op → Prop) : Program Op Reply α → Prop
  | ret _ => True
  | call op next => P op ∧ ∀ reply, (next reply).Every P

theorem Every.bind {P : Op → Prop} {program : Program Op Reply α} {f : α → Program Op Reply β}
    (h : program.Every P) (hf : ∀ value, (f value).Every P) : (program >>= f).Every P := by
  induction program with
  | ret value => exact hf value
  | call op next ih => exact ⟨h.1, fun reply => ih reply (h.2 reply)⟩

theorem Every.imp {P Q : Op → Prop} (h : ∀ op, P op → Q op) {program : Program Op Reply α}
    (hP : program.Every P) : program.Every Q := by
  induction program with
  | ret value => trivial
  | call op next ih => exact ⟨h op hP.1, fun reply => ih reply (hP.2 reply)⟩

theorem Every.perform {P : Op → Prop} {op : Op} (h : P op) :
    (perform op : Program Op Reply (Reply op)).Every P :=
  ⟨h, fun _ => trivial⟩

theorem Every.step {P : Op → Prop} {op : Op} {f : Reply op → Program Op Reply β} (h : P op)
    (hf : ∀ reply, (f reply).Every P) : (Program.perform op >>= f).Every P :=
  .bind (.perform h) hf

end Program

/-- What programs run on.  An `Outcome` is what an operation meets with; with the state it decides
what the operation does.  An operation that has to wait does nothing yet. -/
structure Machine (Op : Type) (Reply : Op → Type) (Outcome σ Call α : Type) where
  program : Call → Program Op Reply α
  arrive : Call → σ → Option σ
  exec : (op : Op) → Outcome → σ → Option (Reply op × σ)
  pass : ℕ → σ → σ
  crash : σ → σ

namespace Machine

/-- The threads, each with the call it was started for and what is left of its program, and the
state they share. -/
structure Config (Op : Type) (Reply : Op → Type) (σ Call α : Type) where
  threads : List (Call × Program Op Reply α)
  shared : σ

def Config.thread {Op : Type} {Reply : Op → Type} {σ Call α : Type}
    (c : Config Op Reply σ Call α) (t : ℕ) : Option (Call × Program Op Reply α) :=
  c.threads[t]?

inductive Event (Outcome Call : Type) where
  | start (call : Call)
  | act (t : ℕ) (outcome : Outcome)
  | pass (duration : ℕ)
  | crash

variable {Op : Type} {Reply : Op → Type} {Outcome σ Call α : Type}

def Config.add (c : Config Op Reply σ Call α) (thread : Call × Program Op Reply α) (shared : σ) :
    Config Op Reply σ Call α :=
  ⟨c.threads ++ [thread], shared⟩

def Config.put (c : Config Op Reply σ Call α) (t : ℕ) (thread : Call × Program Op Reply α)
    (shared : σ) : Config Op Reply σ Call α :=
  ⟨c.threads.set t thread, shared⟩

section Steps

variable (m : Machine Op Reply Outcome σ Call α)
variable {c c' : Config Op Reply σ Call α} {e : Event Outcome Call}
  {thread : Call × Program Op Reply α} {t : ℕ}

def step (c : Config Op Reply σ Call α) : Event Outcome Call → Option (Config Op Reply σ Call α)
  | .start call => (m.arrive call c.shared).map (c.add (call, m.program call))
  | .act t outcome =>
    match c.thread t with
    | some (call, .call op next) => (m.exec op outcome c.shared).map fun (reply, shared) =>
        c.put t (call, next reply) shared
    | _ => none
  | .pass duration => some { c with shared := m.pass duration c.shared }
  | .crash => some ⟨[], m.crash c.shared⟩

/-- If the thread is about to do an operation, then `P` says so of it. -/
def AtNext (P : Call → Op → Prop) : Option (Call × Program Op Reply α) → Prop
  | some (call, .call op _) => P call op
  | _ => True

instance (P : Call → Op → Prop) [∀ call op, Decidable (P call op)] :
    (thread : Option (Call × Program Op Reply α)) → Decidable (AtNext P thread)
  | some (call, .call op _) => inferInstanceAs (Decidable (P call op))
  | some (_, .ret _) => .isTrue trivial
  | none => .isTrue trivial

def finished : Option (Call × Program Op Reply α) → Option Call
  | some (call, .ret _) => some call
  | _ => none

def unfinished : Option (Call × Program Op Reply α) → Option Call
  | some (call, .call _ _) => some call
  | _ => none

theorem finished_eq_some {thread : Option (Call × Program Op Reply α)} {call : Call}
    (h : finished thread = some call) : ∃ value, thread = some (call, .ret value) := by
  cases thread with
  | none => cases h
  | some thread =>
    obtain ⟨call', program⟩ := thread
    cases program with
    | ret value =>
      cases h
      exact ⟨value, rfl⟩
    | call op next => cases h

inductive Steps (c : Config Op Reply σ Call α) :
    Event Outcome Call → Config Op Reply σ Call α → Prop
  | start (call : Call) {shared : σ} : m.arrive call c.shared = some shared →
      Steps c (.start call) (c.add (call, m.program call) shared)
  | act (t : ℕ) (outcome : Outcome) {call : Call} {op : Op}
      {next : Reply op → Program Op Reply α} {reply : Reply op} {shared : σ} :
      c.thread t = some (call, .call op next) →
      m.exec op outcome c.shared = some (reply, shared) →
      Steps c (.act t outcome) (c.put t (call, next reply) shared)
  | pass (duration : ℕ) : Steps c (.pass duration) { c with shared := m.pass duration c.shared }
  | crash : Steps c .crash ⟨[], m.crash c.shared⟩

variable {m}

theorem steps_of_step (h : m.step c e = some c') : Steps m c e c' := by
  cases e with
  | start call =>
    obtain ⟨shared, harrive, rfl⟩ := map_eq_some_iff.mp h
    exact .start call harrive
  | act t outcome =>
    unfold step at h
    dsimp only at h
    split at h
    · next call op next hthread =>
      obtain ⟨⟨reply, shared⟩, hexec, rfl⟩ := map_eq_some_iff.mp h
      exact .act t outcome hthread hexec
    · cases h
  | pass duration =>
    cases h
    exact .pass duration
  | crash =>
    cases h
    exact .crash

section

variable {c : Config Op Reply σ Call α} {shared : σ} {thread' : Call × Program Op Reply α}

theorem Config.thread_add (h : (c.add thread shared).thread t = some thread') :
    c.thread t = some thread' ∨ t = c.threads.length ∧ thread' = thread := by
  change (c.threads ++ [thread])[t]? = some thread' at h
  rcases Nat.lt_trichotomy t c.threads.length with hlt | rfl | hgt
  · rw [List.getElem?_append_left hlt] at h
    exact .inl h
  · rw [List.getElem?_concat_length] at h
    exact .inr ⟨rfl, (some.inj h).symm⟩
  · rw [List.getElem?_eq_none (by simpa using Nat.succ_le_of_lt hgt)] at h
    cases h

theorem Config.thread_add_of_some (h : c.thread t = some thread') :
    (c.add thread shared).thread t = some thread' := by
  rw [← h]
  exact List.getElem?_append_left (List.getElem?_eq_some_iff.mp h).1

end

theorem Config.thread_add_length (c : Config Op Reply σ Call α)
    (thread : Call × Program Op Reply α) (shared : σ) :
    (c.add thread shared).thread c.threads.length = some thread :=
  List.getElem?_concat_length

theorem Config.put_self {c : Config Op Reply σ Call α} (h : c.thread t = some thread)
    (thread' : Call × Program Op Reply α) (shared : σ) :
    (c.put t thread' shared).thread t = some thread' :=
  List.getElem?_set_self (List.getElem?_eq_some_iff.mp h).1

theorem Config.put_of_ne (c : Config Op Reply σ Call α) {t t' : ℕ} (h : t' ≠ t)
    (thread : Call × Program Op Reply α) (shared : σ) :
    (c.put t thread shared).thread t' = c.thread t' :=
  List.getElem?_set_ne h.symm

/-- Where a thread comes from: it was there before, it has just been started, or it has just done
one operation. -/
theorem Steps.thread_cases (h : Steps m c e c') {call : Call} {program : Program Op Reply α}
    (hthread : c'.thread t = some (call, program)) :
    ((∀ outcome, e ≠ .act t outcome) ∧ e ≠ .crash ∧ c.thread t = some (call, program)) ∨
      ((e = .start call ∧ t = c.threads.length) ∧ program = m.program call ∧
        m.arrive call c.shared = some c'.shared) ∨
      ∃ outcome op next reply, e = .act t outcome ∧ c.thread t = some (call, .call op next) ∧
        program = next reply ∧ m.exec op outcome c.shared = some (reply, c'.shared) := by
  cases h with
  | start call' harrive =>
    obtain hthread | ⟨rfl, heq⟩ := Config.thread_add hthread
    · exact .inl ⟨by simp, by simp, hthread⟩
    · obtain ⟨rfl, rfl⟩ := Prod.mk.inj heq
      exact .inr (.inl ⟨⟨rfl, rfl⟩, rfl, harrive⟩)
  | @act t' outcome call' op next reply shared hthread' hexec =>
    by_cases ht : t = t'
    · subst ht
      rw [Config.put_self hthread'] at hthread
      obtain ⟨rfl, rfl⟩ := Prod.mk.inj (some.inj hthread)
      exact .inr (.inr ⟨outcome, op, next, reply, rfl, hthread', rfl, hexec⟩)
    · rw [Config.put_of_ne c ht] at hthread
      refine .inl ⟨fun outcome' heq => ht ?_, by simp, hthread⟩
      exact (Event.act.inj heq).1.symm
  | pass duration => exact .inl ⟨by simp, by simp, hthread⟩
  | crash => cases hthread

theorem Steps.thread_kept (h : Steps m c e c') (hne : ∀ outcome, e ≠ .act t outcome)
    (hcrash : e ≠ .crash) (hthread : c.thread t = some thread) :
    c'.thread t = some thread := by
  cases h with
  | start call harrive => exact Config.thread_add_of_some hthread
  | @act t' outcome _ _ _ _ _ _ _ =>
    rw [Config.put_of_ne c (fun heq => hne outcome (by rw [heq]))]
    exact hthread
  | pass duration => exact hthread
  | crash => exact absurd rfl hcrash

theorem Steps.thread_acted {outcome : Outcome} (h : Steps m c (.act t outcome) c') {call : Call}
    {op : Op} {next : Reply op → Program Op Reply α}
    (hthread : c.thread t = some (call, .call op next)) :
    ∃ reply, m.exec op outcome c.shared = some (reply, c'.shared) ∧
      c'.thread t = some (call, next reply) := by
  cases h with
  | act _ _ hthread' hexec =>
    rw [hthread] at hthread'
    cases hthread'
    exact ⟨_, hexec, Config.put_self hthread _ _⟩

variable (m)

structure Entry (Op : Type) (Reply : Op → Type) (Outcome σ Call α : Type) where
  before : Config Op Reply σ Call α
  event : Event Outcome Call

/-- The configurations that are reached by events that are allowed where they happen. -/
inductive Run (allowed : Config Op Reply σ Call α → Event Outcome Call → Prop)
    (start : Config Op Reply σ Call α) :
    List (Entry Op Reply Outcome σ Call α) → Config Op Reply σ Call α → Prop
  | start : Run allowed start [] start
  | step {entries c e c'} : Run allowed start entries c → allowed c e → m.step c e = some c' →
      Run allowed start (entries ++ [⟨c, e⟩]) c'

def follow (allowed : Config Op Reply σ Call α → Event Outcome Call → Prop)
    [∀ c e, Decidable (allowed c e)] : List (Event Outcome Call) →
    List (Entry Op Reply Outcome σ Call α) × Config Op Reply σ Call α →
    Option (List (Entry Op Reply Outcome σ Call α) × Config Op Reply σ Call α)
  | [], run => some run
  | e :: events, (entries, c) =>
    if allowed c e then
      match m.step c e with
      | none => none
      | some c' => follow allowed events (entries ++ [⟨c, e⟩], c')
    else none

end Steps

namespace Run

variable {m : Machine Op Reply Outcome σ Call α}
  {allowed : Config Op Reply σ Call α → Event Outcome Call → Prop}
  {start c : Config Op Reply σ Call α} {entries : List (Entry Op Reply Outcome σ Call α)}

theorem of_follow [∀ c e, Decidable (allowed c e)] {events : List (Event Outcome Call)}
    {run run' : List (Entry Op Reply Outcome σ Call α) × Config Op Reply σ Call α}
    (h : Run m allowed start run.1 run.2) (hfollow : follow m allowed events run = some run') :
    Run m allowed start run'.1 run'.2 := by
  induction events generalizing run with
  | nil =>
    cases hfollow
    exact h
  | cons e events ih =>
    unfold follow at hfollow
    split at hfollow
    · next hallowed =>
      split at hfollow
      · cases hfollow
      · next c' hstep => exact ih (h.step hallowed hstep) hfollow
    · cases hfollow

theorem exists_of_follow [∀ c e, Decidable (allowed c e)] (events : List (Event Outcome Call))
    {P : List (Entry Op Reply Outcome σ Call α) → Config Op Reply σ Call α → Prop}
    [∀ entries c, Decidable (P entries c)]
    (h : (follow m allowed events ([], start)).any (fun run => P run.1 run.2) = true) :
    ∃ entries c, Run m allowed start entries c ∧ P entries c := by
  obtain ⟨hsome, hP⟩ := (any_eq_true_iff_get _ _).mp h
  exact ⟨_, _, of_follow .start (some_get hsome).symm, of_decide_eq_true hP⟩

theorem allowed_of_mem {entry : Entry Op Reply Outcome σ Call α}
    (h : Run m allowed start entries c) (hentry : entry ∈ entries) :
    allowed entry.before entry.event := by
  induction h with
  | start => cases hentry
  | step h hallowed hs ih =>
    obtain hentry | hentry := List.mem_append.mp hentry
    · exact ih hentry
    · rw [List.mem_singleton] at hentry
      rw [hentry]
      exact hallowed

/-- What holds at the start and is kept by every allowed step holds everywhere. -/
theorem invariant {Inv : Config Op Reply σ Call α → Prop} (hstart : Inv start)
    (hstep : ∀ c e c', allowed c e → Steps m c e c' → Inv c → Inv c')
    (h : Run m allowed start entries c) : Inv c := by
  induction h with
  | start => exact hstart
  | step h hallowed hs ih => exact hstep _ _ _ hallowed (steps_of_step hs) ih

theorem with_invariant {Inv : Config Op Reply σ Call α → Prop}
    (hinv : ∀ entries c, Run m allowed start entries c → Inv c)
    (h : Run m allowed start entries c) :
    Run m (fun c e => allowed c e ∧ Inv c) start entries c := by
  induction h with
  | start => exact .start
  | step h hallowed hs ih => exact ih.step ⟨hallowed, hinv _ _ h⟩ hs

theorem of_threads {S : Call → Program Op Reply α → Prop}
    (hprogram : ∀ call, S call (m.program call))
    (hnext : ∀ call op next reply, S call (.call op next) → S call (next reply))
    (hstart : start.threads = []) (h : Run m allowed start entries c) :
    ∀ t call program, c.thread t = some (call, program) → S call program := by
  intro t call program hthread
  induction h generalizing t call program with
  | start =>
    unfold Config.thread at hthread
    rw [hstart] at hthread
    cases hthread
  | step h hallowed hs ih =>
    obtain ⟨-, -, hthread'⟩ | ⟨-, rfl, -⟩ | ⟨-, op, next, reply, -, hthread', rfl, -⟩ :=
      (steps_of_step hs).thread_cases hthread
    · exact ih t call program hthread'
    · exact hprogram call
    · exact hnext call op next reply (ih t call _ hthread')

/-- What holds after an event that `mark` tells from others, and is kept by the others, holds since
the last such event. -/
theorem since {β : Type} {mark : Entry Op Reply Outcome σ Call α → Option β}
    {Since : β → Config Op Reply σ Call α → Prop}
    (hmark : ∀ c e c' b, allowed c e → Steps m c e c' → mark ⟨c, e⟩ = some b → Since b c')
    (hkept : ∀ c e c' b, allowed c e → Steps m c e c' → mark ⟨c, e⟩ = none → Since b c → Since b c')
    (h : Run m allowed start entries c) {i : ℕ} {entry : Entry Op Reply Outcome σ Call α} {b : β}
    (hentry : entries[i]? = some entry) (hb : mark entry = some b)
    (hlast : ∀ j entry, i < j → entries[j]? = some entry → mark entry = none) : Since b c := by
  induction h with
  | start => simp at hentry
  | @step entries c e c' h hallowed hs ih =>
    rcases Nat.lt_trichotomy i entries.length with hlt | rfl | hgt
    · rw [List.getElem?_append_left hlt] at hentry
      refine hkept c e c' b hallowed (steps_of_step hs) ?_ (ih hentry fun j entry hj hentry => ?_)
      · exact hlast entries.length ⟨c, e⟩ hlt List.getElem?_concat_length
      · have hlt' := (List.getElem?_eq_some_iff.mp hentry).1
        exact hlast j entry hj (by rwa [List.getElem?_append_left hlt'])
    · rw [List.getElem?_concat_length] at hentry
      cases hentry
      exact hmark c e c' b hallowed (steps_of_step hs) hb
    · rw [List.getElem?_eq_none (by simpa using Nat.succ_le_of_lt hgt)] at hentry
      cases hentry

end Run

structure Act (Op Outcome : Type) where
  op : Op
  outcome : Outcome

section Performs

variable {β γ : Type} (m : Machine Op Reply Outcome σ Call α)

/-- The program runs from one state to another, with nothing in between. -/
inductive Performs : Program Op Reply β → σ → List (Act Op Outcome) → β → σ → Prop
  | ret (value : β) (s : σ) : Performs (.ret value) s [] value s
  | call {op : Op} {next : Reply op → Program Op Reply β} (outcome : Outcome) {reply : Reply op}
      {s s₁ s₂ : σ} {acts : List (Act Op Outcome)} {value : β} :
      m.exec op outcome s = some (reply, s₁) → Performs (next reply) s₁ acts value s₂ →
      Performs (.call op next) s (⟨op, outcome⟩ :: acts) value s₂

variable {m} {s s' : σ} {acts : List (Act Op Outcome)}

theorem Performs.of_bind {program : Program Op Reply β} {f : β → Program Op Reply γ} {value : γ}
    (h : Performs m (program >>= f) s acts value s') :
    ∃ acts1 acts2 value1 s₁, acts = acts1 ++ acts2 ∧ Performs m program s acts1 value1 s₁ ∧
      Performs m (f value1) s₁ acts2 value s' := by
  induction program generalizing s acts with
  | ret value1 => exact ⟨[], acts, value1, s, rfl, .ret value1 s, h⟩
  | call op next ih =>
    cases h with
    | call outcome hexec h =>
      obtain ⟨acts1, acts2, value1, s₁, rfl, h1, h2⟩ := ih _ h
      exact ⟨_, acts2, value1, s₁, rfl, .call outcome hexec h1, h2⟩

theorem Performs.every {program : Program Op Reply β} {P : Op → Prop} {value : β}
    (h : Performs m program s acts value s') (hprogram : program.Every P) :
    ∀ act ∈ acts, P act.op := by
  induction h with
  | ret value s => exact fun act hact => by cases hact
  | call outcome hexec h ih =>
    intro act hact
    obtain rfl | hact := List.mem_cons.mp hact
    · exact hprogram.1
    · exact ih (hprogram.2 _) act hact

end Performs

section Holds

variable {β γ : Type} (m : Machine Op Reply Outcome σ Call α) (relies : Call → Op → σ → σ → Prop)
  (before : Call → Op → σ → Prop) (met : Call → Op → Outcome → σ → Prop) (call : Call)

/-- If others do only what the program relies on, and its operations meet only with what is assumed
of them, then each is executed where `before` holds, and the program ends with `ended`. -/
def Holds (ended : β → σ → Prop) : Program Op Reply β → σ → Prop
  | .ret value, s => ended value s
  | .call op next, s => ∀ s₁, relies call op s s₁ → before call op s₁ ∧
      ∀ outcome reply s₂, met call op outcome s₁ → m.exec op outcome s₁ = some (reply, s₂) →
        Holds ended (next reply) s₂

variable {m relies before met call}

theorem Holds.bind {ended : γ → σ → Prop} {program : Program Op Reply β}
    {f : β → Program Op Reply γ} {s : σ}
    (h : Holds m relies before met call
      (fun value s => Holds m relies before met call ended (f value) s) program s) :
    Holds m relies before met call ended (program >>= f) s := by
  induction program generalizing s with
  | ret value => exact h
  | call op next ih =>
    intro s₁ hrelies
    obtain ⟨hbefore, hnext⟩ := h s₁ hrelies
    exact ⟨hbefore, fun outcome reply s₂ hmet hexec => ih reply (hnext outcome reply s₂ hmet hexec)⟩

theorem Holds.imp {ended ended' : β → σ → Prop} (himp : ∀ value s, ended value s → ended' value s)
    {program : Program Op Reply β} {s : σ} (h : Holds m relies before met call ended program s) :
    Holds m relies before met call ended' program s := by
  induction program generalizing s with
  | ret value => exact himp value s h
  | call op next ih =>
    intro s₁ hrelies
    obtain ⟨hbefore, hnext⟩ := h s₁ hrelies
    exact ⟨hbefore, fun outcome reply s₂ hmet hexec => ih reply (hnext outcome reply s₂ hmet hexec)⟩

theorem Holds.relied (htrans : ∀ call op s₁ s₂ s₃, relies call op s₁ s₂ → relies call op s₂ s₃ →
    relies call op s₁ s₃) {ended : β → σ → Prop} {op : Op} {next : Reply op → Program Op Reply β}
    {s s' : σ} (hrelies : relies call op s s')
    (h : Holds m relies before met call ended (.call op next) s) :
    Holds m relies before met call ended (.call op next) s' :=
  fun s₁ hs1 => h s₁ (htrans call op s s' s₁ hrelies hs1)

end Holds

section Rules

variable {m : Machine Op Reply Outcome σ Call α} {relies : Call → Op → σ → σ → Prop}
  {before : Call → Op → σ → Prop} {met : Call → Op → Outcome → σ → Prop}
  {ended : Call → α → σ → Prop}
  {allowed : Config Op Reply σ Call α → Event Outcome Call → Prop}
  {start c : Config Op Reply σ Call α} {entries : List (Entry Op Reply Outcome σ Call α)}

def AllHold (m : Machine Op Reply Outcome σ Call α) (relies : Call → Op → σ → σ → Prop)
    (before : Call → Op → σ → Prop) (met : Call → Op → Outcome → σ → Prop)
    (ended : Call → α → σ → Prop) (c : Config Op Reply σ Call α) : Prop :=
  ∀ t call op next, c.thread t = some (call, .call op next) →
    Holds m relies before met call (ended call) (.call op next) c.shared

/-- Runs in which nothing happens to a thread that it does not rely on. -/
structure Reliable (m : Machine Op Reply Outcome σ Call α) (relies : Call → Op → σ → σ → Prop)
    (before : Call → Op → σ → Prop) (met : Call → Op → Outcome → σ → Prop)
    (ended : Call → α → σ → Prop)
    (allowed : Config Op Reply σ Call α → Event Outcome Call → Prop) : Prop where
  refl : ∀ call op s, relies call op s s
  trans : ∀ call op s₁ s₂ s₃, relies call op s₁ s₂ → relies call op s₂ s₃ → relies call op s₁ s₃
  meets : ∀ c t outcome call op next, allowed c (.act t outcome) →
    c.thread t = some (call, .call op next) → met call op outcome c.shared
  started : ∀ c call shared, allowed c (.start call) → m.arrive call c.shared = some shared →
    Holds m relies before met call (ended call) (m.program call) shared
  others : ∀ c e c', allowed c e → Steps m c e c' → AllHold m relies before met ended c →
    ∀ t call op next, (∀ outcome, e ≠ .act t outcome) → e ≠ .crash →
      c.thread t = some (call, .call op next) →
      relies call op c.shared c'.shared

theorem Reliable.step (hr : Reliable m relies before met ended allowed) {e : Event Outcome Call}
    {c' : Config Op Reply σ Call α} (hallowed : allowed c e) (hstep : Steps m c e c')
    (h : AllHold m relies before met ended c) : AllHold m relies before met ended c' := by
  intro t call op next hthread
  obtain ⟨hne, hcrash, hthread⟩ | ⟨⟨rfl, -⟩, hprogram, harrive⟩ |
    ⟨outcome, op', next', reply, rfl, hthread', hprogram, hexec⟩ := hstep.thread_cases hthread
  · exact (h t call op next hthread).relied hr.trans
      (hr.others c e c' hallowed hstep h t call op next hne hcrash hthread)
  · rw [hprogram]
    exact hr.started c call c'.shared hallowed harrive
  · rw [hprogram]
    exact (h t call op' next' hthread' c.shared (hr.refl call op' c.shared)).2 outcome reply
      c'.shared (hr.meets c t outcome call op' next' hallowed hthread') hexec

end Rules

section Serial

variable (m : Machine Op Reply Outcome σ Call α) (pauses : Op → Prop) (between : σ → Prop)
  (same : σ → σ → Prop) (before : Call → Op → σ → Prop) (met : Call → Op → Outcome → σ → Prop)
  (ended : Call → α → σ → Prop)

/-- The next operation of the program is not one at which it pauses. -/
def Underway (program : Program Op Reply α) : Prop :=
  ∃ op next, program = .call op next ∧ ¬ pauses op

def Inside (thread : Option (Call × Program Op Reply α)) : Prop :=
  ∃ call program, thread = some (call, program) ∧ Underway pauses program

theorem Inside.lt_length {pauses : Op → Prop} {c : Config Op Reply σ Call α} {t : ℕ}
    (h : Inside pauses (c.thread t)) : t < c.threads.length := by
  obtain ⟨call, program, hthread, -⟩ := h
  exact (List.getElem?_eq_some_iff.mp hthread).1

instance [DecidablePred pauses] :
    (thread : Option (Call × Program Op Reply α)) → Decidable (Inside pauses thread)
  | some (call, .call op next) =>
    if h : pauses op then .isFalse fun ⟨_, _, heq, _, _, heq', hnot⟩ => by
      cases heq
      cases heq'
      exact hnot h
    else .isTrue ⟨call, _, rfl, op, next, rfl, h⟩
  | some (_, .ret _) => .isFalse fun ⟨_, _, heq, _, _, heq', _⟩ => by
      cases heq
      cases heq'
  | none => .isFalse fun ⟨_, _, heq, _⟩ => by cases heq

/-- What a program that is alone from one pause to the next relies on. -/
def Alone (op : Op) (s s₁ : σ) : Prop :=
  (pauses op → between s → between s₁) ∧ (¬ pauses op → same s s₁)

/-- What such a program sees to: `between` where it pauses, and `before` elsewhere. -/
def SeesTo (call : Call) (op : Op) (s : σ) : Prop :=
  (pauses op → between s) ∧ (¬ pauses op → before call op s)

abbrev HoldsAlone (call : Call) : Program Op Reply α → σ → Prop :=
  Holds m (fun _ => Alone pauses between same) (SeesTo pauses between before) met call (ended call)

/-- Runs of programs one at a time. -/
structure Serial (allowed : Config Op Reply σ Call α → Event Outcome Call → Prop) : Prop where
  refl : ∀ s, same s s
  trans : ∀ s₁ s₂ s₃, same s₁ s₂ → same s₂ s₃ → same s₁ s₃
  pass : ∀ s duration, same s (m.pass duration s)
  kept : ∀ s s', same s s' → between s → between s'
  leaves : ∀ call value s, ended call value s → between s
  alone : ∀ c t outcome, allowed c (.act t outcome) →
    ∀ t', t' ≠ t → ¬ Inside pauses (c.thread t')
  meets : ∀ c t outcome call op next, allowed c (.act t outcome) →
    c.thread t = some (call, .call op next) → met call op outcome c.shared
  started : ∀ c call shared, allowed c (.start call) → m.arrive call c.shared = some shared →
    Underway pauses (m.program call) → (∀ t', ¬ Inside pauses (c.thread t')) ∧
      (between c.shared →
        HoldsAlone m pauses between same before met ended call (m.program call) shared)
  waiting : ∀ c call shared, allowed c (.start call) → m.arrive call c.shared = some shared →
    ¬ Underway pauses (m.program call) → same c.shared shared ∧
      ∃ s, HoldsAlone m pauses between same before met ended call (m.program call) s
  crash : ∀ c, allowed c .crash →
    (between c.shared ∨ ∃ t call op next, c.thread t = some (call, .call op next) ∧
      ¬ pauses op ∧ before call op c.shared) → between (m.crash c.shared)

/-- At most one thread is in the middle of its program, and what is left of it holds; if there is
none, `between` holds. -/
structure SerialInv (c : Config Op Reply σ Call α) : Prop where
  one : ∀ t t', Inside pauses (c.thread t) → Inside pauses (c.thread t') → t = t'
  inside : ∀ t call op next, c.thread t = some (call, .call op next) → ¬ pauses op →
    HoldsAlone m pauses between same before met ended call (.call op next) c.shared
  pausing : ∀ t call op next, c.thread t = some (call, .call op next) → pauses op →
    ∃ s, HoldsAlone m pauses between same before met ended call (.call op next) s
  quiet : (∀ t, ¬ Inside pauses (c.thread t)) → between c.shared

variable {m pauses between same before met ended}
  {allowed : Config Op Reply σ Call α → Event Outcome Call → Prop}
  {start c c' : Config Op Reply σ Call α} {entries : List (Entry Op Reply Outcome σ Call α)}

theorem SerialInv.of_no_threads (hthreads : c.threads = []) (hbetween : between c.shared) :
    SerialInv m pauses between same before met ended c := by
  have hnone : ∀ t, c.thread t = none := by
    intro t
    unfold Config.thread
    rw [hthreads]
    rfl
  refine ⟨?_, ?_, ?_, fun _ => hbetween⟩
  · rintro t - ⟨call, program, hthread, -⟩
    rw [hnone] at hthread
    cases hthread
  · intro t call op next hthread
    rw [hnone] at hthread
    cases hthread
  · intro t call op next hthread
    rw [hnone] at hthread
    cases hthread

section

variable (hs : Serial m pauses between same before met ended allowed)
include hs

variable {call : Call} {program : Program Op Reply α}

theorem Serial.alone_refl (op : Op) (s : σ) : Alone pauses between same op s s :=
  ⟨fun _ => id, fun _ => hs.refl s⟩

theorem Serial.between_of_not_underway {s : σ}
    (h : HoldsAlone m pauses between same before met ended call program s)
    (hnot : ¬ Underway pauses program) : between s := by
  cases program with
  | ret value => exact hs.leaves call value s h
  | call op next =>
    have hpauses : pauses op := by
      by_contra hp
      exact hnot ⟨op, next, rfl, hp⟩
    exact (h s (hs.alone_refl op s)).1.1 hpauses

theorem Serial.holds_of_same {op : Op} {next : Reply op → Program Op Reply α} {s s' : σ}
    (hsame : same s s')
    (h : HoldsAlone m pauses between same before met ended call (.call op next) s) :
    HoldsAlone m pauses between same before met ended call (.call op next) s' := by
  intro s₁ ⟨hbetween, hunderway⟩
  refine h s₁ ⟨fun hpauses hs0 => ?_, fun hpauses => ?_⟩
  · exact hbetween hpauses (hs.kept s s' hsame hs0)
  · exact hs.trans s s' s₁ hsame (hunderway hpauses)

variable (hinv : SerialInv m pauses between same before met ended c)
include hinv

theorem Serial.next {t : ℕ} {outcome : Outcome} {op : Op} {next : Reply op → Program Op Reply α}
    {reply : Reply op} {shared : σ} (hallowed : allowed c (.act t outcome))
    (hthread : c.thread t = some (call, .call op next))
    (hexec : m.exec op outcome c.shared = some (reply, shared)) :
    HoldsAlone m pauses between same before met ended call (next reply) shared := by
  have hmet := hs.meets c t outcome call op next hallowed hthread
  by_cases hpauses : pauses op
  · -- The others are not inside, so the state is one that the program goes on from.
    have hquiet : ∀ t', ¬ Inside pauses (c.thread t') := by
      intro t' hinside
      by_cases ht : t' = t
      · subst ht
        obtain ⟨call', program, hthread', op', next', rfl, hnot⟩ := hinside
        rw [hthread] at hthread'
        cases hthread'
        exact hnot hpauses
      · exact hs.alone c t outcome hallowed t' ht hinside
    obtain ⟨s, hholds⟩ := hinv.pausing t call op next hthread hpauses
    exact (hholds c.shared ⟨fun _ _ => hinv.quiet hquiet, fun h => absurd hpauses h⟩).2 outcome
      reply shared hmet hexec
  · have hholds := hinv.inside t call op next hthread hpauses
    exact (hholds c.shared (hs.alone_refl op c.shared)).2 outcome reply shared hmet hexec

theorem Serial.between_or_before : between c.shared ∨ ∃ t call op next,
    c.thread t = some (call, .call op next) ∧ ¬ pauses op ∧ before call op c.shared := by
  by_cases hquiet : ∀ t, ¬ Inside pauses (c.thread t)
  · exact .inl (hinv.quiet hquiet)
  · rw [not_forall_not] at hquiet
    obtain ⟨t, call, program, hthread, op, next, rfl, hpauses⟩ := hquiet
    have hholds := hinv.inside t call op next hthread hpauses
    exact .inr ⟨t, call, op, next, hthread, hpauses,
      (hholds c.shared (hs.alone_refl op c.shared)).1.2 hpauses⟩

theorem Serial.holds_of_only {t : ℕ} (hthread : c'.thread t = some (call, program))
    (hothers : ∀ t' thread, t' ≠ t → c'.thread t' = some thread → c.thread t' = some thread)
    (halone : ∀ t', t' ≠ t → ¬ Inside pauses (c.thread t'))
    (hholds : HoldsAlone m pauses between same before met ended call program c'.shared) :
    SerialInv m pauses between same before met ended c' := by
  have honly : ∀ t', Inside pauses (c'.thread t') → t' = t := by
    rintro t' ⟨call', program', hthread', hunderway⟩
    by_contra ht
    exact halone t' ht ⟨call', program', hothers t' _ ht hthread', hunderway⟩
  constructor
  · intro t1 t2 h1 h2
    rw [honly t1 h1, honly t2 h2]
  · intro t' call' op next hthread' hpauses
    obtain rfl : t' = t := honly t' ⟨call', _, hthread', op, next, rfl, hpauses⟩
    rw [hthread] at hthread'
    cases hthread'
    exact hholds
  · intro t' call' op next hthread' hpauses
    by_cases ht : t' = t
    · subst ht
      rw [hthread] at hthread'
      cases hthread'
      exact ⟨c'.shared, hholds⟩
    · exact hinv.pausing t' call' op next (hothers t' _ ht hthread') hpauses
  · intro hquiet
    refine hs.between_of_not_underway hholds fun hunderway => hquiet t ?_
    exact ⟨call, program, hthread, hunderway⟩

theorem Serial.add_waiting {shared s : σ} (hunderway : ¬ Underway pauses program)
    (hsame : same c.shared shared)
    (hholds : HoldsAlone m pauses between same before met ended call program s) :
    SerialInv m pauses between same before met ended (c.add (call, program) shared) := by
  have hinside : ∀ t, Inside pauses ((c.add (call, program) shared).thread t) →
      Inside pauses (c.thread t) := by
    rintro t ⟨call', program', hthread, h⟩
    obtain hthread | ⟨-, heq⟩ := Config.thread_add hthread
    · exact ⟨call', program', hthread, h⟩
    · cases heq
      exact absurd h hunderway
  constructor
  · exact fun t1 t2 h1 h2 => hinv.one t1 t2 (hinside t1 h1) (hinside t2 h2)
  · intro t call' op next hthread hpauses
    obtain hthread | ⟨-, heq⟩ := Config.thread_add hthread
    · exact hs.holds_of_same hsame (hinv.inside t call' op next hthread hpauses)
    · cases heq
      exact absurd ⟨op, next, rfl, hpauses⟩ hunderway
  · intro t call' op next hthread hpauses
    obtain hthread | ⟨-, heq⟩ := Config.thread_add hthread
    · exact hinv.pausing t call' op next hthread hpauses
    · cases heq
      exact ⟨s, hholds⟩
  · intro hquiet
    refine hs.kept c.shared shared hsame (hinv.quiet fun t h => hquiet t ?_)
    obtain ⟨call', program', hthread, h⟩ := h
    exact ⟨call', program', Config.thread_add_of_some hthread, h⟩

theorem Serial.step {e : Event Outcome Call} (hallowed : allowed c e) (hstep : Steps m c e c') :
    SerialInv m pauses between same before met ended c' := by
  cases hstep with
  | @start call shared harrive =>
    by_cases hunderway : Underway pauses (m.program call)
    · obtain ⟨hquiet, hholds⟩ := hs.started c call shared hallowed harrive hunderway
      refine hs.holds_of_only hinv (c.thread_add_length _ shared) (fun t' thread ht hthread => ?_)
        (fun t' _ => hquiet t') (hholds (hinv.quiet hquiet))
      exact (Config.thread_add hthread).resolve_right fun h => ht h.1
    · obtain ⟨hsame, s, hholds⟩ := hs.waiting c call shared hallowed harrive hunderway
      exact hs.add_waiting hinv hunderway hsame hholds
  | @act t outcome call op next reply shared hthread hexec =>
    refine hs.holds_of_only hinv (Config.put_self hthread _ shared)
      (fun t' thread ht hthread' => ?_)
      (hs.alone c t outcome hallowed) (hs.next hinv hallowed hthread hexec)
    rwa [Config.put_of_ne c ht] at hthread'
  | pass duration =>
    have hsame := hs.pass c.shared duration
    exact ⟨hinv.one, fun t call op next hthread hpauses =>
      hs.holds_of_same hsame (hinv.inside t call op next hthread hpauses), hinv.pausing,
      fun hquiet => hs.kept _ _ hsame (hinv.quiet hquiet)⟩
  | crash =>
    exact .of_no_threads rfl (hs.crash c hallowed (hs.between_or_before hinv))

end

theorem Serial.run (hs : Serial m pauses between same before met ended allowed)
    (hstart : SerialInv m pauses between same before met ended start)
    (h : Run m allowed start entries c) :
    SerialInv m pauses between same before met ended c :=
  h.invariant hstart fun _ _ _ hallowed hstep hinv => hs.step hinv hallowed hstep

theorem Serial.finished (hs : Serial m pauses between same before met ended allowed)
    (hinv : SerialInv m pauses between same before met ended c) {t : ℕ} {outcome : Outcome}
    {call : Call} {value : α} (hallowed : allowed c (.act t outcome))
    (hstep : Steps m c (.act t outcome) c') (hthread : c'.thread t = some (call, .ret value)) :
    ended call value c'.shared := by
  cases hstep with
  | @act _ _ call' op next reply shared hthread' hexec =>
    rw [Config.put_self hthread'] at hthread
    obtain ⟨rfl, heq⟩ := Prod.mk.inj (some.inj hthread)
    have hholds := hs.next hinv hallowed hthread' hexec
    rw [heq] at hholds
    exact hholds

end Serial

end Machine

end Guestkit.Lib

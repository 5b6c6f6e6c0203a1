import Guestkit.Lib.Program

/-! Keeping account of what the threads of a machine have in hand.  An operation moves something
between the hand of its thread and the shared state; if each operation by itself keeps the balance,
so does every run, and a thread that is over has nothing left in hand. -/

namespace Guestkit.Lib.Machine

open List

variable {Op : Type} {Reply : Op → Type} {Outcome σ Call α β γ M : Type}

section Carries

variable (moves : (op : Op) → Reply op → M → M → Prop)
variable {program : Program Op Reply β} {h : M}

/-- With `h` in hand, the program comes to its end as `ended` says, whatever is replied. -/
def Carries (ended : β → M → Prop) : Program Op Reply β → M → Prop
  | .ret value, h => ended value h
  | .call op next, h => ∀ reply, ∃ h', moves op reply h h' ∧ Carries ended (next reply) h'

variable {moves}

theorem Carries.bind {ended : γ → M → Prop} {f : β → Program Op Reply γ}
    (hprogram : Carries moves (fun value h => Carries moves ended (f value) h) program h) :
    Carries moves ended (program >>= f) h := by
  induction program generalizing h with
  | ret value => exact hprogram
  | call op next ih =>
    intro reply
    obtain ⟨h', hmoves, hnext⟩ := hprogram reply
    exact ⟨h', hmoves, ih reply hnext⟩

theorem Carries.imp {ended ended' : β → M → Prop} (himp : ∀ value h, ended value h → ended' value h)
    (hprogram : Carries moves ended program h) : Carries moves ended' program h := by
  induction program generalizing h with
  | ret value => exact himp value h hprogram
  | call op next ih =>
    intro reply
    obtain ⟨h', hmoves, hnext⟩ := hprogram reply
    exact ⟨h', hmoves, ih reply hnext⟩

theorem Carries.perform {op : Op} {ended : Reply op → M → Prop}
    (hop : ∀ reply, ∃ h', moves op reply h h' ∧ ended reply h') :
    Carries moves ended (.perform op) h :=
  hop

theorem Carries.of_every (hprogram : program.Every fun op => ∀ reply h, moves op reply h h) :
    Carries moves (fun _ h' => h' = h) program h := by
  induction program with
  | ret value => rfl
  | call op next ih => exact fun reply => ⟨h, hprogram.1 reply h, ih reply (hprogram.2 reply)⟩

theorem Carries.bind_of_every {ended : γ → M → Prop} {f : β → Program Op Reply γ}
    (hprogram : program.Every fun op => ∀ reply h, moves op reply h h)
    (hf : ∀ value, Carries moves ended (f value) h) : Carries moves ended (program >>= f) h := by
  induction program with
  | ret value => exact hf value
  | call op next ih => exact fun reply => ⟨h, hprogram.1 reply h, ih reply (hprogram.2 reply)⟩

end Carries

theorem exists_inHand {R : Call × Program Op Reply α → M → Prop}
    {threads : List (Call × Program Op Reply α)} {held : List M} (h : List.Forall₂ R threads held)
    {mine : M} (hmine : mine ∈ held) : ∃ (t : ℕ) (thread : _),
      threads[t]? = some thread ∧ R thread mine := by
  induction h with
  | nil => cases hmine
  | @cons thread first threads held hR hrest ih =>
    obtain rfl | hmine := mem_cons.mp hmine
    · exact ⟨0, thread, rfl, hR⟩
    · obtain ⟨t, thread', hthread, hR'⟩ := ih hmine
      exact ⟨t + 1, thread', hthread, hR'⟩

section Ledger

variable [AddCommMonoid M] (m : Machine Op Reply Outcome σ Call α)
  (moves : (op : Op) → Reply op → M → M → Prop) (balance : σ → M → Prop)

def InHand (program : Program Op Reply α) (h : M) : Prop :=
  Carries moves (fun _ h => h = 0) program h

/-- Operations that keep the balance of the state with all that is in hand. -/
structure Ledger (allowed : Config Op Reply σ Call α → Event Outcome Call → Prop) : Prop where
  program : ∀ call, InHand moves (m.program call) 0
  start : ∀ c call shared total, allowed c (.start call) → m.arrive call c.shared = some shared →
    balance c.shared total → balance shared total
  act : ∀ c t outcome call op next reply shared h h' rest, allowed c (.act t outcome) →
    c.thread t = some (call, .call op next) → m.exec op outcome c.shared = some (reply, shared) →
    moves op reply h h' → balance c.shared (rest + h) → balance shared (rest + h')
  pass : ∀ s duration total, balance s total → balance (m.pass duration s) total
  crash : ∀ c total, allowed c .crash → balance c.shared total → balance (m.crash c.shared) 0

def Balanced (c : Config Op Reply σ Call α) : Prop :=
  ∃ held : List M, List.Forall₂ (fun thread h => InHand moves thread.2 h) c.threads held ∧
    balance c.shared held.sum

variable {m moves balance}
  {allowed : Config Op Reply σ Call α → Event Outcome Call → Prop}
  {start c c' : Config Op Reply σ Call α} {entries : List (Entry Op Reply Outcome σ Call α)}

theorem forall₂_set {R : Call × Program Op Reply α → M → Prop}
    {threads : List (Call × Program Op Reply α)} {held : List M} (h : List.Forall₂ R threads held)
    {t : ℕ} {thread : Call × Program Op Reply α} (hthread : threads[t]? = some thread) :
    ∃ mine rest, R thread mine ∧ held.sum = rest + mine ∧ ∀ thread' mine', R thread' mine' →
      ∃ held', List.Forall₂ R (threads.set t thread') held' ∧ held'.sum = rest + mine' := by
  induction h generalizing t with
  | nil => cases hthread
  | @cons first hfirst threads held hR hrest ih =>
    cases t with
    | zero =>
      cases hthread
      refine ⟨hfirst, held.sum, hR, by rw [sum_cons, add_comm], fun thread' mine' hR' => ?_⟩
      exact ⟨mine' :: held, .cons hR' hrest, by rw [sum_cons, add_comm]⟩
    | succ t =>
      obtain ⟨mine, rest, hmine, hsum, hset⟩ := ih hthread
      refine ⟨mine, hfirst + rest, hmine, by rw [sum_cons, hsum, add_assoc], ?_⟩
      intro thread' mine' hR'
      obtain ⟨held', hheld', hsum'⟩ := hset thread' mine' hR'
      exact ⟨hfirst :: held', .cons hR hheld', by rw [sum_cons, hsum', add_assoc]⟩

theorem Ledger.step (hl : Ledger m moves balance allowed) {e : Event Outcome Call}
    (hallowed : allowed c e) (hstep : Steps m c e c') (h : Balanced moves balance c) :
    Balanced moves balance c' := by
  obtain ⟨held, hheld, hbalance⟩ := h
  cases hstep with
  | start call harrive =>
    refine ⟨held ++ [0], rel_append hheld (.cons (hl.program call) .nil), ?_⟩
    rw [sum_append, sum_singleton, add_zero]
    exact hl.start c call _ _ hallowed harrive hbalance
  | @act t outcome call op next reply shared hthread hexec =>
    obtain ⟨mine, rest, hmine, hsum, hset⟩ := forall₂_set hheld hthread
    obtain ⟨mine', hmoves, hnext⟩ := hmine reply
    obtain ⟨held', hheld', hsum'⟩ := hset (call, next reply) mine' hnext
    refine ⟨held', hheld', ?_⟩
    rw [hsum']
    rw [hsum] at hbalance
    exact hl.act c t outcome call op next reply shared mine mine' rest hallowed hthread hexec hmoves
      hbalance
  | pass duration => exact ⟨held, hheld, hl.pass _ _ _ hbalance⟩
  | crash => exact ⟨[], .nil, hl.crash c _ hallowed hbalance⟩

theorem Ledger.run (hl : Ledger m moves balance allowed) (hthreads : start.threads = [])
    (hstart : balance start.shared 0) (h : Run m allowed start entries c) :
    Balanced moves balance c := by
  refine h.invariant ⟨[], ?_, hstart⟩ fun c e c' hallowed hstep => hl.step hallowed hstep
  rw [hthreads]
  exact .nil

end Ledger

end Guestkit.Lib.Machine

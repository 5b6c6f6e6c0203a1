import Mathlib

/-! Programs with a state and errors, where an error keeps the state it was raised in: what follows
from the result of a sequence, and triples of a precondition, a program and postconditions for both
ways it ends. -/

namespace Guestkit.Lib

open List

section Sequences

variable {ε σ α β : Type}
variable {x : EStateM ε σ α} {f : α → EStateM ε σ β} {s s' : σ} {b : β} {a : α}

theorem bind_eq_ok (h : (x >>= f) s = .ok b s') : ∃ a s1, x s = .ok a s1 ∧ f a s1 = .ok b s' := by
  change EStateM.bind x f s = .ok b s' at h
  unfold EStateM.bind at h
  cases hx : x s with
  | ok a s1 =>
    rw [hx] at h
    exact ⟨a, s1, rfl, h⟩
  | error e s1 =>
    rw [hx] at h
    cases h

theorem except_ok_bind_iff {x : Except ε α} {f : α → Except ε β} :
    (x >>= f) = .ok b ↔ ∃ a, x = .ok a ∧ f a = .ok b := by
  constructor
  · intro h
    cases x with
    | ok a => exact ⟨a, rfl, h⟩
    | error e => cases h
  · rintro ⟨a, rfl, h⟩
    exact h

theorem except_unit_bind_iff {x : Except ε Unit} {f : Unit → Except ε β} :
    (x >>= f) = .ok b ↔ x = .ok () ∧ f () = .ok b := by
  rw [except_ok_bind_iff]
  exact ⟨fun ⟨_, h⟩ => h, fun h => ⟨(), h⟩⟩

theorem eq_ok_of_toOption {x : Except ε α} (h : x.toOption = some a) : x = .ok a := by
  cases x with
  | ok b => exact congrArg Except.ok (Option.some.inj h)
  | error e => cases h

section

variable {f : α → Except ε β} {as : List α} {bs : List β} (h : as.mapM f = .ok bs)
include h

theorem forall₂_of_mapM : Forall₂ (f · = .ok ·) as bs := by
  induction as generalizing bs with
  | nil =>
    cases h
    exact .nil
  | cons a as ih =>
    rw [mapM_cons, except_ok_bind_iff] at h
    obtain ⟨b, hb, h⟩ := h
    obtain ⟨bs', hbs', h⟩ := except_ok_bind_iff.mp h
    cases h
    exact .cons hb (ih hbs')

theorem exists_of_mem_mapM (hb : b ∈ bs) : ∃ a ∈ as, f a = .ok b := by
  obtain ⟨i, hi, rfl⟩ := getElem_of_mem hb
  have hall := forall₂_of_mapM h
  exact ⟨_, get_mem _ _, hall.get (hall.length_eq ▸ hi) hi⟩

theorem exists_of_mapM_mem (ha : a ∈ as) : ∃ b ∈ bs, f a = .ok b := by
  obtain ⟨i, hi, rfl⟩ := getElem_of_mem ha
  have hall := forall₂_of_mapM h
  exact ⟨_, get_mem _ _, hall.get hi (hall.length_eq ▸ hi)⟩

end

def bailIf (c : Prop) [Decidable c] (e : ε) : Except ε Unit := if c then .error e else .ok ()

theorem bailIf_eq_ok {c : Prop} [Decidable c] {e : ε} : bailIf c e = .ok () ↔ ¬ c := by
  unfold bailIf
  split <;> simp_all

def withContext (context : ε) : Except ε α → Except ε α
  | .ok value => .ok value
  | .error _ => .error context

theorem withContext_eq_ok {context : ε} {x : Except ε α} :
    withContext context x = .ok a ↔ x = .ok a := by
  cases x <;> simp [withContext]

theorem get_bind (f : σ → EStateM ε σ β) (s : σ) : (get >>= f) s = f s s := rfl

theorem bind_of_ok (h : x s = .ok a s') : (x >>= f) s = f a s' := by
  change EStateM.bind x f s = f a s'
  rw [EStateM.bind, h]

theorem bind_of_error {e : ε} (h : x s = .error e s') : (x >>= f) s = .error e s' := by
  change EStateM.bind x f s = .error e s'
  rw [EStateM.bind, h]

theorem tryCatch_of_ok {f : ε → EStateM ε σ α} (h : x s = .ok a s') :
    (tryCatch x f) s = .ok a s' := by
  change EStateM.tryCatch x f s = .ok a s'
  rw [EStateM.tryCatch, h]

theorem tryCatch_of_error {f : ε → EStateM ε σ α} {e : ε} (h : x s = .error e s') :
    (tryCatch x f) s = f e s' := by
  change EStateM.tryCatch x f s = f e s'
  rw [EStateM.tryCatch, h]
  rfl

theorem modifyGet_eq (f : σ → α × σ) (s : σ) :
    (modifyGet f : EStateM ε σ α) s = .ok (f s).1 (f s).2 := rfl

end Sequences

section Values

variable {ε σ α : Type}

def Returns (P : α → σ → Prop) : EStateM.Result ε σ α → Prop
  | .ok a s => P a s
  | .error _ _ => False

instance {P : α → σ → Prop} [∀ a s, Decidable (P a s)] (r : EStateM.Result ε σ α) :
    Decidable (Returns P r) :=
  match r with
  | .ok a s => inferInstanceAs (Decidable (P a s))
  | .error _ _ => isFalse id

theorem Returns.exists {P : α → σ → Prop} {r : EStateM.Result ε σ α} (h : Returns P r) :
    ∃ a s, r = .ok a s ∧ P a s := by
  cases r with
  | ok a s => exact ⟨a, s, rfl, h⟩
  | error e s => exact h.elim

end Values

section Steps

variable {ε σ α β : Type}
variable {f : α → EStateM ε σ β}

def stateOf : EStateM.Result ε σ α → σ
  | .ok _ s => s
  | .error _ s => s

/-- However it ends, the program takes a state to one that `R` relates to it. -/
def Always (R : σ → σ → Prop) (m : EStateM ε σ α) : Prop :=
  ∀ s, R s (stateOf (m s))

variable {R : σ → σ → Prop} {x : EStateM ε σ α}

theorem stateOf_bind {s : σ} (htrans : ∀ a b c, R a b → R b c → R a c) (hx : R s (stateOf (x s)))
    (hf : ∀ a s1, x s = .ok a s1 → R s1 (stateOf (f a s1))) :
    R s (stateOf ((x >>= f) s)) := by
  cases h : x s with
  | ok a s1 =>
    rw [h] at hx
    rw [bind_of_ok h]
    exact htrans s s1 _ hx (hf a s1 h)
  | error e s1 =>
    rw [h] at hx
    rw [bind_of_error h]
    exact hx

theorem stateOf_bind_pure (x : EStateM ε σ α) (f : α → β) (s : σ) :
    stateOf ((x >>= fun a => pure (f a)) s) = stateOf (x s) := by
  cases h : x s with
  | ok a s1 => rw [bind_of_ok h]; rfl
  | error e s1 => rw [bind_of_error h]; rfl

theorem Always.bind [IsTrans σ R] (hx : Always R x) (hf : ∀ a, Always R (f a)) :
    Always R (x >>= f) :=
  fun s => stateOf_bind IsTrans.trans (hx s) fun a s1 _ => hf a s1

theorem Always.get_bind {f : σ → EStateM ε σ β} (hf : ∀ s, Always R (f s)) :
    Always R (get >>= f) :=
  fun s => hf s s

theorem Always.pure (hrefl : ∀ s, R s s) (a : α) : Always R (pure a : EStateM ε σ α) := hrefl

theorem Always.throw (hrefl : ∀ s, R s s) (e : ε) : Always R (throw e : EStateM ε σ α) := hrefl

theorem Always.tryCatch [IsTrans σ R] {f : ε → EStateM ε σ α} (hx : Always R x)
    (hf : ∀ e, Always R (f e)) : Always R (tryCatch x f) := by
  intro s
  have hstep := hx s
  cases h : x s with
  | ok a s1 =>
    rw [h] at hstep
    rw [tryCatch_of_ok h]
    exact hstep
  | error e s1 =>
    rw [h] at hstep
    rw [tryCatch_of_error h]
    exact Trans.trans hstep (hf e s1)

/-- The program ends with a value, in a state that `R` relates to the one it started in. -/
def Ends (R : σ → σ → Prop) (m : EStateM ε σ α) : Prop :=
  ∀ s, ∃ a s', m s = .ok a s' ∧ R s s'

theorem Ends.bind [IsTrans σ R] (hx : Ends R x) (hf : ∀ a, Ends R (f a)) :
    Ends R (x >>= f) := by
  intro s
  obtain ⟨a, s1, hrun, hstep⟩ := hx s
  obtain ⟨b, s2, hrest, hstep'⟩ := hf a s1
  exact ⟨b, s2, (bind_of_ok hrun).trans hrest, Trans.trans hstep hstep'⟩

theorem Ends.get_bind {f : σ → EStateM ε σ β} (hf : ∀ s, Ends R (f s)) : Ends R (get >>= f) :=
  fun s => hf s s

theorem Ends.pure (hrefl : ∀ s, R s s) (a : α) : Ends R (pure a : EStateM ε σ α) :=
  fun s => ⟨a, s, rfl, hrefl s⟩

end Steps

end Guestkit.Lib

import Mathlib

/-! A store whose entries are dropped when their time is over. -/

namespace Guestkit.Lib

structure Timed (V : Type) where
  value : V
  deadline : ℕ

abbrev Expiring (K V : Type) := K → Option (Timed V)

namespace Expiring

variable {K V : Type}

def get (store : Expiring K V) (now : ℕ) (key : K) : Option V :=
  (store key).bind fun entry => if now < entry.deadline then some entry.value else none

def set [DecidableEq K] (store : Expiring K V) (key : K) (value : V) (deadline : ℕ) :
    Expiring K V :=
  fun k => if k = key then some ⟨value, deadline⟩ else store k

theorem set_same [DecidableEq K] (store : Expiring K V) (key : K) (value : V) (deadline : ℕ) :
    store.set key value deadline key = some ⟨value, deadline⟩ := if_pos rfl

theorem set_other [DecidableEq K] (store : Expiring K V) {key other : K} (h : other ≠ key)
    (value : V) (deadline : ℕ) : store.set key value deadline other = store other := if_neg h

theorem get_isSome {store : Expiring K V} {now : ℕ} {key : K} :
    (store.get now key).isSome = true ↔ ∃ entry, store key = some entry ∧ now < entry.deadline := by
  unfold get
  cases store key with
  | none => simp
  | some entry => by_cases h : now < entry.deadline <;> simp [h]

theorem get_isSome_until {store : Expiring K V} {key : K} {from_ until_ : ℕ}
    (h : from_ < until_) :
    (∀ now, from_ ≤ now → now < until_ → (store.get now key).isSome = true) ↔
      ∃ entry, store key = some entry ∧ until_ ≤ entry.deadline := by
  constructor
  · intro hall
    obtain ⟨entry, hentry, -⟩ := get_isSome.mp (hall from_ (Nat.le_refl _) h)
    refine ⟨entry, hentry, Nat.le_of_not_lt fun hlt => ?_⟩
    -- The first moment without the entry, or the start if there is none since then.
    obtain ⟨entry', hentry', hlater⟩ := get_isSome.mp
      (hall (max from_ entry.deadline) (Nat.le_max_left _ _) (Nat.max_lt.mpr ⟨h, hlt⟩))
    cases hentry.symm.trans hentry'
    exact absurd hlater (Nat.not_lt.mpr (Nat.le_max_right _ _))
  · rintro ⟨entry, hentry, hlasts⟩ now - hnow
    exact get_isSome.mpr ⟨entry, hentry, Nat.lt_of_lt_of_le hnow hlasts⟩

end Expiring

end Guestkit.Lib

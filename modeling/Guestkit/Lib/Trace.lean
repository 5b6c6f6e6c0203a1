import Mathlib

/-! Properties of every step of a run. -/

namespace Guestkit.Lib

variable {σ ε : Type} (step : σ → ε → σ) (P Q : σ → ε → Prop)

/-- `P` holds of each event of a run and the state it comes in. -/
def Throughout : List ε → σ → Prop
  | [], _ => True
  | e :: es, s => P s e ∧ Throughout es (step s e)

variable {step P Q}

/-- Two properties that agree as long as an invariant holds, which each of them keeps. -/
theorem throughout_congr {Inv : σ → Prop} (hagree : ∀ s e, Inv s → (P s e ↔ Q s e))
    (hkeep : ∀ s e, Inv s → Q s e → Inv (step s e)) (es : List ε) (s : σ) (h : Inv s) :
    Throughout step P es s ↔ Throughout step Q es s := by
  induction es generalizing s with
  | nil => rfl
  | cons e es ih =>
    refine (and_congr_left' (hagree s e h)).trans (and_congr_right fun hQ => ?_)
    exact ih (step s e) (hkeep s e h hQ)

end Guestkit.Lib

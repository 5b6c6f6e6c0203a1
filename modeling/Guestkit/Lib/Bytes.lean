import Mathlib

/-! Bytes, the words that a machine of either byte order reads from them, and the bits of a run of
bytes, counted from the highest bit of the first byte. -/

namespace Guestkit.Lib

abbrev Byte := BitVec 8

inductive Endian where
  | little
  | big
  deriving DecidableEq

namespace Endian

def word (e : Endian) (b₀ b₁ b₂ b₃ : Byte) : BitVec 32 :=
  match e with
  | .little => b₃ ++ b₂ ++ b₁ ++ b₀
  | .big => b₀ ++ b₁ ++ b₂ ++ b₃

def half (e : Endian) (b₀ b₁ : Byte) : BitVec 16 :=
  match e with
  | .little => b₁ ++ b₀
  | .big => b₀ ++ b₁

def swapBytes (h : BitVec 16) : BitVec 16 := h.extractLsb' 0 8 ++ h.extractLsb' 8 8

/-- The number that a half word has when its bytes are read as big-endian. -/
def fromBe (e : Endian) (h : BitVec 16) : BitVec 16 :=
  match e with
  | .little => swapBytes h
  | .big => h

variable (e : Endian)

theorem append_inj {m n : Nat} {a a' : BitVec m} {b b' : BitVec n} (h : a ++ b = a' ++ b') :
    a = a' ∧ b = b' := by
  have hbit : ∀ i, (a ++ b).getLsbD i = (a' ++ b').getLsbD i := fun i => by rw [h]
  constructor
  · refine BitVec.eq_of_getLsbD_eq fun i hi => ?_
    have hi' := hbit (n + i)
    rw [BitVec.getLsbD_append, BitVec.getLsbD_append] at hi'
    simpa [show ¬n + i < n by omega] using hi'
  · refine BitVec.eq_of_getLsbD_eq fun i hi => ?_
    have hi' := hbit i
    rw [BitVec.getLsbD_append, BitVec.getLsbD_append] at hi'
    simpa [hi] using hi'

theorem append_and (a0 a1 a2 a3 c0 c1 c2 c3 : Byte) :
    (a0 ++ a1 ++ a2 ++ a3) &&& (c0 ++ c1 ++ c2 ++ c3) =
      (a0 &&& c0) ++ (a1 &&& c1) ++ (a2 &&& c2) ++ (a3 &&& c3) := by
  simp only [BitVec.and_append]

theorem word_and (a0 a1 a2 a3 c0 c1 c2 c3 : Byte) :
    e.word a0 a1 a2 a3 &&& e.word c0 c1 c2 c3 =
      e.word (a0 &&& c0) (a1 &&& c1) (a2 &&& c2) (a3 &&& c3) := by
  cases e with
  | little => exact append_and a3 a2 a1 a0 c3 c2 c1 c0
  | big => exact append_and a0 a1 a2 a3 c0 c1 c2 c3

theorem word_inj {a0 a1 a2 a3 c0 c1 c2 c3 : Byte} :
    e.word a0 a1 a2 a3 = e.word c0 c1 c2 c3 ↔ a0 = c0 ∧ a1 = c1 ∧ a2 = c2 ∧ a3 = c3 := by
  refine ⟨fun h => ?_, fun ⟨h0, h1, h2, h3⟩ => by rw [h0, h1, h2, h3]⟩
  cases e with
  | little =>
    obtain ⟨h, h0⟩ := append_inj h
    obtain ⟨h, h1⟩ := append_inj h
    obtain ⟨h3, h2⟩ := append_inj h
    exact ⟨h0, h1, h2, h3⟩
  | big =>
    obtain ⟨h, h3⟩ := append_inj h
    obtain ⟨h, h2⟩ := append_inj h
    obtain ⟨h0, h1⟩ := append_inj h
    exact ⟨h0, h1, h2, h3⟩

theorem extract_low (a b : Byte) : (a ++ b).extractLsb' 0 8 = b := by
  refine BitVec.eq_of_getLsbD_eq fun i hi => ?_
  rw [BitVec.getLsbD_extractLsb', BitVec.getLsbD_append]
  simp [hi]

theorem extract_high (a b : Byte) : (a ++ b).extractLsb' 8 8 = a := by
  refine BitVec.eq_of_getLsbD_eq fun i hi => ?_
  rw [BitVec.getLsbD_extractLsb', BitVec.getLsbD_append]
  simp [hi, show ¬8 + i < 8 by omega]

theorem fromBe_half (b₀ b₁ : Byte) : e.fromBe (e.half b₀ b₁) = b₀ ++ b₁ := by
  cases e with
  | little =>
    change (b₁ ++ b₀).extractLsb' 0 8 ++ (b₁ ++ b₀).extractLsb' 8 8 = b₀ ++ b₁
    rw [extract_low, extract_high]
  | big => rfl

end Endian

def Byte.bit (b : Byte) (i : Nat) : Bool := b.getLsbD (7 - i)

def Byte.high (n : Nat) : Byte := if n = 0 then 0 else 0xff#8 <<< (8 - n)

theorem Byte.bit_high {n i : Nat} (hn : n ≤ 8) (hi : i < 8) :
    (Byte.high n).bit i = decide (i < n) := by
  have hall : ∀ n ≤ 8, ∀ i < 8, (Byte.high n).bit i = decide (i < n) := by decide
  exact hall n hn i hi

theorem Byte.ext_bit {a b : Byte} (h : ∀ i < 8, a.bit i = b.bit i) : a = b := by
  refine BitVec.eq_of_getLsbD_eq fun i hi => ?_
  have hbit := h (7 - i) (by omega)
  unfold Byte.bit at hbit
  rwa [show 7 - (7 - i) = i by omega] at hbit

theorem Byte.and_high_eq_iff {a b : Byte} {n : Nat} (hn : n ≤ 8) :
    a &&& Byte.high n = b &&& Byte.high n ↔ ∀ i < n, a.bit i = b.bit i := by
  have hand : ∀ (c : Byte) {i : Nat}, i < 8 →
      (c &&& Byte.high n).bit i = (c.bit i && decide (i < n)) := by
    intro c i hi
    rw [← Byte.bit_high hn hi]
    exact BitVec.getLsbD_and
  constructor
  · intro h i hi
    have hbit := congrArg (fun c : Byte => c.bit i) h
    simp only [hand a (show i < 8 by omega), hand b (show i < 8 by omega)] at hbit
    simpa [hi] using hbit
  · intro h
    refine Byte.ext_bit fun i hi => ?_
    rw [hand a hi, hand b hi]
    by_cases hin : i < n
    · rw [h i hin]
    · simp [hin]

end Guestkit.Lib

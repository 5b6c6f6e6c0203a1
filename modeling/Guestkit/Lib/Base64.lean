import Mathlib

/-! Bytes in base 64: the standard alphabet, with padding and no bits left over. -/

namespace Guestkit.Lib.Base64

open List Option

def alphabet : List Char :=
  "ABCDEFGHIJKLMNOPQRSTUVWXYZabcdefghijklmnopqrstuvwxyz0123456789+/".toList

def digit (n : ℕ) : Char := alphabet.getD n '='

def value (c : Char) : Option ℕ := alphabet.findIdx? (· == c)

def encode : List UInt8 → List Char
  | [] => []
  | [a] => [digit (a.toNat / 4), digit (a.toNat % 4 * 16), '=', '=']
  | [a, b] =>
    [digit (a.toNat / 4), digit (a.toNat % 4 * 16 + b.toNat / 16), digit (b.toNat % 16 * 4), '=']
  | a :: b :: c :: rest =>
    digit (a.toNat / 4) :: digit (a.toNat % 4 * 16 + b.toNat / 16) ::
      digit (b.toNat % 16 * 4 + c.toNat / 64) :: digit (c.toNat % 64) :: encode rest

def oneByte (w x : Char) : Option (List UInt8) := do
  let w ← value w
  let x ← value x
  if x % 16 = 0 then some [UInt8.ofNat (w * 4 + x / 16)] else none

def twoBytes (w x y : Char) : Option (List UInt8) := do
  let w ← value w
  let x ← value x
  let y ← value y
  if y % 4 = 0 then some [UInt8.ofNat (w * 4 + x / 16), UInt8.ofNat (x % 16 * 16 + y / 4)] else none

def threeBytes (w x y z : Char) : Option (List UInt8) := do
  let w ← value w
  let x ← value x
  let y ← value y
  let z ← value z
  some [UInt8.ofNat (w * 4 + x / 16), UInt8.ofNat (x % 16 * 16 + y / 4),
    UInt8.ofNat (y % 4 * 64 + z)]

def decode : List Char → Option (List UInt8)
  | [] => some []
  | w :: x :: y :: z :: rest =>
    if z = '=' then
      if rest.isEmpty then if y = '=' then oneByte w x else twoBytes w x y
      else none
    else do
      let bytes ← threeBytes w x y z
      let others ← decode rest
      some (bytes ++ others)
  | _ => none

theorem value_digit {n : ℕ} (h : n < 64) : value (digit n) = some n := by
  have hall : ∀ k : Fin 64, value (digit k) = some k.val := by decide +kernel
  exact hall ⟨n, h⟩

theorem digit_ne_pad {n : ℕ} (h : n < 64) : digit n ≠ '=' := by
  have hall : ∀ k : Fin 64, digit k ≠ '=' := by decide +kernel
  exact hall ⟨n, h⟩

theorem ofNat_eq {n : ℕ} {byte : UInt8} (h : n = byte.toNat) : UInt8.ofNat n = byte := by
  rw [h, UInt8.ofNat_toNat]

theorem oneByte_digit {w x : ℕ} (hw : w < 64) (hx : x < 64) (hpad : x % 16 = 0) {a : UInt8}
    (ha : w * 4 + x / 16 = a.toNat) : oneByte (digit w) (digit x) = some [a] := by
  unfold oneByte
  rw [value_digit hw, value_digit hx]
  simp only [bind_eq_bind, bind_some]
  rw [if_pos hpad, ofNat_eq ha]

theorem twoBytes_digit {w x y : ℕ} (hw : w < 64) (hx : x < 64) (hy : y < 64) (hpad : y % 4 = 0)
    {a b : UInt8} (ha : w * 4 + x / 16 = a.toNat) (hb : x % 16 * 16 + y / 4 = b.toNat) :
    twoBytes (digit w) (digit x) (digit y) = some [a, b] := by
  unfold twoBytes
  rw [value_digit hw, value_digit hx, value_digit hy]
  simp only [bind_eq_bind, bind_some]
  rw [if_pos hpad, ofNat_eq ha, ofNat_eq hb]

theorem threeBytes_digit {w x y z : ℕ} (hw : w < 64) (hx : x < 64) (hy : y < 64) (hz : z < 64)
    {a b c : UInt8} (ha : w * 4 + x / 16 = a.toNat) (hb : x % 16 * 16 + y / 4 = b.toNat)
    (hc : y % 4 * 64 + z = c.toNat) :
    threeBytes (digit w) (digit x) (digit y) (digit z) = some [a, b, c] := by
  unfold threeBytes
  rw [value_digit hw, value_digit hx, value_digit hy, value_digit hz]
  simp only [bind_eq_bind, bind_some]
  rw [ofNat_eq ha, ofNat_eq hb, ofNat_eq hc]

theorem decode_encode (bytes : List UInt8) : decode (encode bytes) = some bytes := by
  -- By groups of three bytes, as both functions go.
  induction bytes using encode.induct with
  | case1 => rfl
  | case2 a =>
    have ha := a.toNat_lt
    exact oneByte_digit (by omega) (by omega) (by omega) (by omega)
  | case3 a b =>
    have ha := a.toNat_lt
    have hb := b.toNat_lt
    rw [encode, decode, if_pos rfl, if_pos isEmpty_nil, if_neg (digit_ne_pad (by omega))]
    exact twoBytes_digit (by omega) (by omega) (by omega) (by omega) (by omega) (by omega)
  | case4 a b c rest ih =>
    have ha := a.toNat_lt
    have hb := b.toNat_lt
    have hc := c.toNat_lt
    rw [encode, decode, if_neg (digit_ne_pad (by omega)), ih,
      threeBytes_digit (a := a) (b := b) (c := c) (by omega) (by omega) (by omega) (by omega)
        (by omega) (by omega) (by omega)]
    rfl

theorem mem_encode {bytes : List UInt8} {c : Char} (h : c ∈ encode bytes) :
    c ∈ '=' :: alphabet := by
  have hdigit : ∀ n, digit n ∈ '=' :: alphabet := by
    intro n
    unfold digit
    rw [getD_eq_getElem?_getD]
    cases hget : alphabet[n]? with
    | none => exact mem_cons_self
    | some c => exact mem_cons_of_mem _ (mem_of_getElem? hget)
  have hpad : '=' ∈ '=' :: alphabet := mem_cons_self
  induction bytes using encode.induct with
  | case1 => exact absurd h not_mem_nil
  | case2 a =>
    simp only [encode, mem_cons, not_mem_nil, or_false] at h
    rcases h with rfl | rfl | rfl | rfl <;> first | exact hdigit _ | exact hpad
  | case3 a b =>
    simp only [encode, mem_cons, not_mem_nil, or_false] at h
    rcases h with rfl | rfl | rfl | rfl <;> first | exact hdigit _ | exact hpad
  | case4 a b c rest ih =>
    simp only [encode, mem_cons] at h
    rcases h with rfl | rfl | rfl | rfl | h
    · exact hdigit _
    · exact hdigit _
    · exact hdigit _
    · exact hdigit _
    · exact ih h

end Guestkit.Lib.Base64

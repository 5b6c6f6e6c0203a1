import Mathlib

/-! The rolling telemetry of the agent: rings that overwrite their oldest value. -/

namespace Guestkit.Agent.Telemetry

open List

structure Ring (α : Type) where
  buf : List (Option α)
  head : ℕ
  len : ℕ
  head_lt : head < buf.length
  len_le : len ≤ buf.length

namespace Ring

variable {α : Type}

def new (capacity : ℕ) (h : 0 < capacity) : Ring α where
  buf := replicate capacity none
  head := 0
  len := 0
  head_lt := by simpa
  len_le := by simp

def push (r : Ring α) (value : α) : Ring α where
  buf := r.buf.set r.head (some value)
  head := (r.head + 1) % r.buf.length
  len := min (r.len + 1) r.buf.length
  head_lt := by simpa using Nat.mod_lt _ (Nat.zero_lt_of_lt r.head_lt)
  len_le := by simp

def cell (r : Ring α) (i : ℕ) : Option α :=
  r.buf.get ⟨i % r.buf.length, Nat.mod_lt _ (Nat.zero_lt_of_lt r.head_lt)⟩

def iter (r : Ring α) : List α :=
  let start := (r.head + r.buf.length - r.len) % r.buf.length
  (range r.len).filterMap fun i => r.cell (start + i)

def latest (r : Ring α) : Option α :=
  if r.len = 0 then none else r.cell (r.head + r.buf.length - 1)

def lastN (r : Ring α) (n : ℕ) : List α :=
  r.iter.drop (r.len - min n r.len)

/-- The ring of capacity `c` after the pushes of `xs`: of the last `c` values, the one pushed as
number `k` is in the cell `k % c`. -/
structure Holds (c : ℕ) (xs : List α) (r : Ring α) : Prop where
  cap : r.buf.length = c
  head : r.head = xs.length % c
  len : r.len = min c xs.length
  cell : ∀ k < xs.length, xs.length ≤ k + c → r.cell k = xs[k]?

variable {c : ℕ} {xs : List α} {r : Ring α}

theorem cell_eq (r : Ring α) (i : ℕ) : some (r.cell i) = r.buf[i % r.buf.length]? :=
  (getElem?_eq_getElem _).symm

theorem cell_congr {i j : ℕ} (h : i % r.buf.length = j % r.buf.length) : r.cell i = r.cell j := by
  apply Option.some.inj
  rw [cell_eq, cell_eq, h]

theorem Holds.new (h : 0 < c) : Holds c [] (new c h : Ring α) where
  cap := by simp [Ring.new]
  head := by simp [Ring.new]
  len := by simp [Ring.new]
  cell := by simp

theorem Holds.push (h : Holds c xs r) (x : α) : Holds c (xs ++ [x]) (r.push x) where
  cap := by simp [Ring.push, h.cap]
  head := by simp [Ring.push, h.cap, h.head]
  len := by
    simp only [Ring.push, h.cap, h.len, length_append, length_singleton]
    omega
  cell := by
    intro k hk hrecent
    rw [length_append, length_singleton] at hk hrecent
    apply Option.some.inj
    rw [cell_eq]
    simp only [Ring.push, length_set, getElem?_set, h.cap, h.head]
    by_cases heq : k = xs.length
    · subst heq
      have hlt := Nat.mod_lt xs.length (h.cap ▸ Nat.zero_lt_of_lt r.head_lt : 0 < c)
      simp [hlt]
    · have hne : xs.length % c ≠ k % c := by
        intro hmod
        have hdvd := Nat.sub_mod_eq_zero_of_mod_eq hmod
        rw [Nat.mod_eq_of_lt (by omega)] at hdvd
        omega
      rw [if_neg hne, ← h.cap, ← cell_eq, h.cell k (by omega) (by omega),
        getElem?_append_left (by omega)]

def pushed (capacity : ℕ) (h : 0 < capacity) (xs : List α) : Ring α :=
  xs.foldl push (new capacity h)

theorem Holds.pushed (h : 0 < c) (xs : List α) : Holds c xs (pushed c h xs) := by
  induction xs using reverseRecOn with
  | nil => exact .new h
  | append_singleton xs x ih =>
    rw [Ring.pushed, foldl_append]
    exact ih.push x

/-- Going back `l` cells from the head leads to the value pushed `l` pushes ago. -/
theorem Holds.back (h : Holds c xs r) {l : ℕ} (hl : l ≤ r.len) :
    (r.head + r.buf.length - l) % r.buf.length = (xs.length - l) % r.buf.length := by
  have hlen := h.len
  rw [h.cap, h.head, Nat.add_sub_assoc (by omega), Nat.mod_add_mod,
    show xs.length + (c - l) = xs.length - l + c by omega, Nat.add_mod_right]

theorem filterMap_range_getElem? (xs : List α) : (range xs.length).filterMap (xs[·]?) = xs := by
  induction xs with
  | nil => rfl
  | cons x xs ih =>
    rw [length_cons, range_succ_eq_map]
    simpa [filterMap_map, Function.comp_def] using ih

theorem Holds.iter (h : Holds c xs r) : r.iter = xs.rtake c := by
  have hlen := h.len
  have hdrop : (xs.rtake c).length = r.len := by
    rw [rtake, length_drop]
    omega
  rw [← filterMap_range_getElem? (xs.rtake c), hdrop, Ring.iter, h.back le_rfl]
  refine filterMap_congr fun i hi => ?_
  have hi := mem_range.mp hi
  rw [cell_congr (Nat.mod_add_mod _ _ _), h.cell _ (by omega) (by omega), rtake, getElem?_drop]
  congr 2
  omega

theorem Holds.latest (h : Holds c xs r) : r.latest = xs.getLast? := by
  have hlen := h.len
  have hcap := h.cap ▸ Nat.zero_lt_of_lt r.head_lt
  unfold Ring.latest
  rw [getLast?_eq_getElem?]
  split
  · rw [getElem?_eq_none (by omega)]
  · rw [cell_congr (h.back (by omega)), h.cell _ (by omega) (by omega)]

/-- A ring holds the last values pushed, as many as its capacity allows. -/
theorem pushed_ring (capacity : ℕ) (h : 0 < capacity) (xs : List α) (n : ℕ) :
    (pushed capacity h xs).iter = xs.rtake (min capacity xs.length) ∧
      (pushed capacity h xs).len = min capacity xs.length ∧
      (pushed capacity h xs).latest = xs.getLast? ∧
      (pushed capacity h xs).lastN n =
        (pushed capacity h xs).iter.rtake (min n (pushed capacity h xs).len) := by
  have hr := Holds.pushed h xs
  have hlen := hr.len
  refine ⟨?_, hlen, hr.latest, ?_⟩
  · rw [hr.iter, rtake, rtake]
    congr 1
    omega
  · rw [lastN, rtake]
    congr 1
    rw [hr.iter, rtake, length_drop]
    omega

theorem pushed_ring_wrapped : 0 < 3 ∧ (pushed 3 (by decide) [1, 2, 3, 4]).iter = [2, 3, 4] :=
  ⟨by decide, (pushed_ring 3 (by decide) [1, 2, 3, 4] 2).1⟩

end Ring

end Guestkit.Agent.Telemetry

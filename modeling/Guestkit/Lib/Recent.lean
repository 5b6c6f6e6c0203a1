import Mathlib

/-! A memory of the items that came last: how far apart two occurrences of an item are if an item
only comes when it is not remembered. -/

namespace Guestkit.Lib

open List

variable {α : Type}
variable {c : ℕ}

def upTo (r : ℕ → Option α) (k : ℕ) : List α := (List.range k).filterMap r

theorem upTo_succ (r : ℕ → Option α) (k : ℕ) : upTo r (k + 1) = upTo r k ++ (r k).toList := by
  unfold upTo
  rw [range_succ, filterMap_append]
  cases h : r k <;> simp [h]

theorem upTo_add (r : ℕ → Option α) (i n : ℕ) :
    upTo r (i + n) = upTo r i ++ (List.range' i n).filterMap r := by
  unfold upTo
  rw [range_add, filterMap_append, List.range'_eq_map_range]

theorem mem_rtake {before recent : List α} {x : α} (hc : recent.length ≤ c) (hx : x ∈ recent) :
    x ∈ (before ++ recent).rtake c := by
  unfold List.rtake
  rw [length_append, drop_append_of_le_length (by omega)]
  exact mem_append_right _ hx

theorem rtake_rtake_concat (hc : 0 < c) (n : ℕ) (items : List α) (x : α) :
    (items.rtake n ++ [x]).rtake c = (items ++ [x]).rtake (min (n + 1) c) := by
  unfold List.rtake
  have hlen : (items.drop (items.length - n)).length = min items.length n := by
    rw [length_drop]
    omega
  rw [length_append, length_append, hlen, length_singleton,
    drop_append_of_le_length (by omega), drop_append_of_le_length (by omega),
    drop_drop]
  congr 2
  omega

/-- Each item of a list is none of the `c` items before it. -/
def Spaced (c : ℕ) (items : List α) : Prop :=
  ∀ before x after, items = before ++ x :: after → x ∉ before.rtake c

theorem spaced_upTo {r : ℕ → Option α} (hr : ∀ k x, r k = some x → x ∉ (upTo r k).rtake c) (k : ℕ) :
    Spaced c (upTo r k) := by
  induction k with
  | zero =>
    intro before x after h
    simp [upTo] at h
  | succ k ih =>
    intro before x after h
    rw [upTo_succ] at h
    cases hk : r k with
    | none =>
      rw [hk, Option.toList_none, append_nil] at h
      exact ih before x after h
    | some y =>
      rw [hk, Option.toList_some] at h
      obtain rfl | ⟨after, last, rfl⟩ := after.eq_nil_or_concat
      · obtain ⟨hbefore, hlast⟩ := append_inj' h rfl
        obtain rfl : y = x := by simpa using hlast
        rw [← hbefore]
        exact hr k y hk
      · rw [concat_eq_append, ← cons_append, ← append_assoc] at h
        exact ih before x after (append_inj' h rfl).1

theorem Spaced.nodup {before after : List α} {x : α} (h : Spaced c (before ++ x :: after)) {n : ℕ}
    (hn : n ≤ c) : (x :: after.take n).Nodup := by
  induction n with
  | zero => simp
  | succ n ih =>
    have hnodup := ih (by omega)
    by_cases hlen : after.length ≤ n
    · rw [take_of_length_le (by omega)]
      rwa [take_of_length_le hlen] at hnodup
    · have hsplit : after = after.take n ++ after[n] :: after.drop (n + 1) := by
        rw [getElem_cons_drop, take_append_drop]
      have hfar : after[n] ∉ (before ++ x :: after.take n).rtake c := by
        apply h (before ++ x :: after.take n) after[n] (after.drop (n + 1))
        rw [append_assoc, cons_append, ← hsplit]
      have hnew : after[n] ∉ x :: after.take n := fun hmem =>
        hfar (mem_rtake (by simp only [length_cons, length_take]; omega) hmem)
      rw [take_succ_eq_append_getElem (by omega), ← cons_append]
      refine nodup_append.mpr ⟨hnodup, by simp, fun y hy z hz heq => hnew ?_⟩
      rwa [← mem_singleton.mp hz, ← heq]

/-- If an item comes only when it is not among the last `c` items, then between two occurrences of
it come `c` others, pairwise different. -/
theorem others_between {r : ℕ → Option α} (hr : ∀ k x, r k = some x → x ∉ (upTo r k).rtake c)
    {i j : ℕ} {x : α} (hij : i < j) (hi : r i = some x) (hj : r j = some x) :
    ∃ others : List α, others.length = c ∧ others.Nodup ∧ x ∉ others ∧
      ∀ y ∈ others, ∃ k, i < k ∧ k < j ∧ r k = some y := by
  obtain ⟨n, rfl⟩ : ∃ n, j = i + 1 + n := ⟨j - (i + 1), by omega⟩
  have hitems : upTo r (i + 1 + n) = upTo r i ++ x :: (List.range' (i + 1) n).filterMap r := by
    rw [upTo_add, upTo_succ, hi, Option.toList_some, append_assoc, singleton_append]
  have hspaced := spaced_upTo hr (i + 1 + n)
  have hgone := hr _ x hj
  rw [hitems] at hspaced hgone
  have hlen : c ≤ ((List.range' (i + 1) n).filterMap r).length := by
    by_contra hshort
    refine hgone (mem_rtake ?_ mem_cons_self)
    rw [length_cons]
    omega
  have hnodup := hspaced.nodup le_rfl
  rw [nodup_cons] at hnodup
  refine ⟨_, length_take_of_le hlen, hnodup.2, hnodup.1, fun y hy => ?_⟩
  obtain ⟨k, hk, hrk⟩ := mem_filterMap.mp (mem_of_mem_take hy)
  rw [mem_range'_1] at hk
  exact ⟨k, by omega, by omega, hrk⟩

end Guestkit.Lib

import Guestkit.Lib.Hoare

/-! Code that returns a value or an error, or stops in a way that its type does not show: an index
or slice out of range, arithmetic that leaves the machine word, or a loop that does not end, which
is a run out of fuel.  `Returns` excludes the last three; the rules below carry it through
sequences and loops. -/

namespace Guestkit.Lib

open List

inductive Stop (ε : Type) where
  | error (e : ε)
  | panic
  | overflow
  | fuel
  deriving DecidableEq

abbrev Attempt (ε α : Type) := Except (Stop ε) α

namespace Attempt

variable {ε α β : Type}
variable {x : Attempt ε α} {f : α → Attempt ε β} {as : List α}

def fail (e : ε) : Attempt ε α := .error (.error e)

def orFail (e : ε) : Option α → Attempt ε α
  | some a => .ok a
  | none => fail e

/-- A value or an error of the code itself. -/
def Returns : Attempt ε α → Prop
  | .ok _ => True
  | .error (.error _) => True
  | .error _ => False

def u64 (n : Nat) : Attempt ε Nat := if n < 2 ^ 64 then .ok n else .error .overflow

theorem returns_ok (a : α) : Returns (.ok a : Attempt ε α) := trivial

theorem returns_fail (e : ε) : Returns (fail e : Attempt ε α) := trivial

theorem returns_orFail (e : ε) (o : Option α) : Returns (orFail e o) := by
  cases o <;> trivial

theorem orFail_eq_ok {e : ε} {o : Option α} {a : α} : orFail e o = .ok a ↔ o = some a := by
  cases o <;> simp [orFail, fail]

theorem u64_eq {n : Nat} (h : n < 2 ^ 64) : (u64 n : Attempt ε Nat) = .ok n := if_pos h

theorem u64_overflows {n : Nat} (h : ¬n < 2 ^ 64) : (u64 n : Attempt ε Nat) = .error .overflow :=
  if_neg h

theorem u64_eq_ok_iff {n m : Nat} : (u64 n : Attempt ε Nat) = .ok m ↔ n < 2 ^ 64 ∧ m = n := by
  by_cases h : n < 2 ^ 64
  · rw [u64_eq h, Except.ok.injEq, and_iff_right h]
    exact eq_comm
  · rw [u64_overflows h]
    exact iff_of_false (by simp) fun hm => h hm.1

theorem returns_bind_iff :
    Returns (x >>= f) ↔ Returns x ∧ ∀ a, x = .ok a → Returns (f a) := by
  cases x with
  | ok a => exact ⟨fun h => ⟨trivial, fun _ ha => by cases ha; exact h⟩, fun h => h.2 a rfl⟩
  | error stop =>
    have hstop : Returns ((.error stop : Attempt ε α) >>= f) ↔
        Returns (.error stop : Attempt ε α) := by
      cases stop <;> rfl
    rw [hstop]
    exact ⟨fun h => ⟨h, fun _ ha => nomatch ha⟩, fun h => h.1⟩

theorem Returns.bind (hx : Returns x) (hf : ∀ a, x = .ok a → Returns (f a)) : Returns (x >>= f) :=
  returns_bind_iff.mpr ⟨hx, hf⟩

theorem returns_map_iff {f : α → β} : Returns (f <$> x) ↔ Returns x := by
  cases x with
  | ok a => rfl
  | error stop => cases stop <;> rfl

theorem exists_map_eq_ok {f : α → β} : (∃ b, f <$> x = .ok b) ↔ ∃ a, x = .ok a := by
  cases x with
  | ok a => exact iff_of_true ⟨f a, rfl⟩ ⟨a, rfl⟩
  | error stop => exact iff_of_false (fun ⟨_, h⟩ => nomatch h) fun ⟨_, h⟩ => nomatch h

theorem returns_mapM_iff :
    Returns (as.mapM f) ↔ ∀ pre a post, as = pre ++ a :: post →
      (∀ b ∈ pre, ∃ r, f b = .ok r) → Returns (f a) := by
  induction as with
  | nil => simp [Returns, pure, Except.pure]
  | cons first as ih =>
    rw [mapM_cons, returns_bind_iff]
    constructor
    · rintro ⟨hfirst, hrest⟩ pre a post hsplit hpre
      cases pre with
      | nil =>
        cases hsplit
        exact hfirst
      | cons b pre =>
        rw [cons_append, List.cons.injEq] at hsplit
        obtain ⟨rfl, hsplit⟩ := hsplit
        obtain ⟨r, hr⟩ := hpre first (by simp)
        have hloop := (returns_bind_iff.mp (hrest r hr)).1
        exact ih.mp hloop pre a post hsplit fun b hb => hpre b (mem_cons_of_mem first hb)
    · intro h
      refine ⟨h [] first as rfl (by simp), fun r hr => ?_⟩
      refine Returns.bind (ih.mpr fun pre a post hsplit hpre => ?_) fun _ _ => trivial
      refine h (first :: pre) a post (by rw [hsplit]; rfl) fun b hb => ?_
      rcases mem_cons.mp hb with rfl | hb
      · exact ⟨r, hr⟩
      · exact hpre b hb

theorem returns_range_iff {f : Nat → Attempt ε β} {n : Nat} :
    Returns ((List.range n).mapM f) ↔
      ∀ i < n, (∀ j < i, ∃ r, f j = .ok r) → Returns (f i) := by
  rw [returns_mapM_iff]
  constructor
  · intro h i hi hbefore
    obtain ⟨k, rfl⟩ : ∃ k, n = i + (k + 1) := ⟨n - (i + 1), by omega⟩
    refine h (List.range i) i (List.range' (i + 1) k) ?_ fun j hj =>
      hbefore j (mem_range.mp hj)
    rw [range_eq_range', range_eq_range', ← List.range'_append_1, Nat.zero_add,
      List.range'_succ]
  · intro h pre i post hsplit hpre
    have hi : (List.range n)[pre.length]? = some i := by rw [hsplit]; simp
    obtain ⟨hlt, rfl⟩ := List.getElem?_eq_some_iff.mp hi
    rw [length_range] at hlt
    rw [getElem_range]
    refine h _ hlt fun j hj => hpre j ?_
    have hj' : (List.range n)[j]? = some j := List.getElem?_range (by omega)
    rw [hsplit, List.getElem?_append_left hj] at hj'
    exact mem_of_getElem? hj'

theorem mapM_eq_ok {g : α → β} (h : ∀ a ∈ as, f a = .ok (g a)) :
    as.mapM f = .ok (as.map g) := by
  induction as with
  | nil => rfl
  | cons a as ih =>
    rw [mapM_cons, h a (by simp), ih fun b hb => h b (mem_cons_of_mem a hb)]
    rfl

theorem exists_map_of_mapM [Inhabited β] {bs : List β} (h : as.mapM f = .ok bs) :
    ∃ g : α → β, bs = as.map g ∧ ∀ a ∈ as, f a = .ok (g a) := by
  refine ⟨fun a => match f a with
    | .ok b => b
    | .error _ => default, ?_⟩
  induction as generalizing bs with
  | nil =>
    cases h
    simp
  | cons a as ih =>
    rw [mapM_cons, except_ok_bind_iff] at h
    obtain ⟨b, hb, h⟩ := h
    obtain ⟨bs', hbs', h⟩ := except_ok_bind_iff.mp h
    cases h
    obtain ⟨hmap, hall⟩ := ih hbs'
    refine ⟨by rw [map_cons, hb, hmap], fun a' ha' => ?_⟩
    rcases mem_cons.mp ha' with rfl | ha'
    · simp only [hb]
    · exact hall a' ha'

theorem mapM_congr_of_returns {f g : α → Attempt ε β} (hfg : ∀ a ∈ as, Returns (f a) → g a = f a)
    (h : Returns (as.mapM f)) :
    as.mapM g = as.mapM f := by
  induction as with
  | nil => rfl
  | cons a as ih =>
    rw [mapM_cons, returns_bind_iff] at h
    rw [mapM_cons, mapM_cons, hfg a (by simp) h.1]
    cases hfa : f a with
    | error stop => rfl
    | ok b =>
      have hrest := (returns_bind_iff.mp (h.2 b hfa)).1
      rw [ih (fun a' ha' => hfg a' (mem_cons_of_mem a ha')) hrest]

def firstOk (d : α) : List (Attempt ε α) → Attempt ε α
  | [] => .ok d
  | .ok a :: _ => .ok a
  | .error (.error _) :: xs => firstOk d xs
  | .error stop :: _ => .error stop

theorem firstOk_returns {d : α} {xs : List (Attempt ε α)} (h : ∀ x ∈ xs, Returns x) :
    Returns (firstOk d xs) := by
  induction xs with
  | nil => trivial
  | cons x xs ih =>
    have hx := h x (by simp)
    match x with
    | .ok a => trivial
    | .error (.error e) => exact ih fun y hy => h y (mem_cons_of_mem _ hy)

theorem firstOk_append_of_fails {d : α} {xs ys : List (Attempt ε α)}
    (h : ∀ x ∈ xs, ∃ e, x = fail e) : firstOk d (xs ++ ys) = firstOk d ys := by
  induction xs with
  | nil => rfl
  | cons x xs ih =>
    obtain ⟨e, rfl⟩ := h x (by simp)
    exact ih fun y hy => h y (mem_cons_of_mem _ hy)

end Attempt

abbrev ByteString := List UInt8

namespace ByteString

variable {ε : Type}
variable {width i : Nat} {b : ByteString}

def ascii (s : String) : ByteString := s.toList.map fun c => c.toNat.toUInt8

def le : ByteString → Nat
  | [] => 0
  | b :: bs => b.toNat + 256 * le bs

def slice (b : ByteString) (i j : Nat) : Attempt ε ByteString :=
  if i ≤ j ∧ j ≤ b.length then .ok ((b.drop i).take (j - i)) else .error .panic

def get (b : ByteString) (i j : Nat) : Option ByteString :=
  if i ≤ j ∧ j ≤ b.length then some ((b.drop i).take (j - i)) else none

def getFrom (b : ByteString) (i : Nat) : Option ByteString :=
  if i ≤ b.length then some (b.drop i) else none

def leAt (width : Nat) (b : ByteString) (i : Nat) : Attempt ε Nat :=
  le <$> slice b i (i + width)

def word (width : Nat) (b : ByteString) (i : Nat) : Nat :=
  le ((b.drop i).take width)

theorem le_lt (b : ByteString) : le b < 256 ^ b.length := by
  induction b with
  | nil => decide
  | cons x b ih =>
    have hx := x.toNat_lt
    rw [le, length_cons, Nat.pow_succ]
    omega

theorem word_lt (width : Nat) (b : ByteString) (i : Nat) : word width b i < 256 ^ width :=
  Nat.lt_of_lt_of_le (le_lt _)
    (Nat.pow_le_pow_right (by decide) (by rw [length_take]; exact Nat.min_le_left _ _))

theorem word_take_drop {width n i j : Nat} (b : ByteString) (h : i + width ≤ n) :
    word width ((b.drop j).take n) i = word width b (j + i) := by
  rw [word, word, drop_take, take_take, drop_drop, Nat.min_eq_left (by omega)]

theorem leAt_eq (h : i + width ≤ b.length) :
    (leAt width b i : Attempt ε Nat) = .ok (word width b i) := by
  rw [leAt, slice, if_pos ⟨Nat.le_add_right i width, h⟩, Nat.add_sub_cancel_left]
  rfl

theorem leAt_panics (h : ¬i + width ≤ b.length) :
    (leAt width b i : Attempt ε Nat) = .error .panic := by
  rw [leAt, slice, if_neg fun hin => h hin.2]
  rfl

theorem leAt_returns_iff :
    Attempt.Returns (leAt width b i : Attempt ε Nat) ↔ i + width ≤ b.length := by
  by_cases h : i + width ≤ b.length
  · rw [leAt_eq h]
    exact iff_of_true trivial h
  · rw [leAt_panics h]
    exact iff_of_false id h

theorem get_eq_some {b d : ByteString} {i j : Nat} :
    get b i j = some d ↔ (i ≤ j ∧ j ≤ b.length) ∧ d = (b.drop i).take (j - i) := by
  unfold get
  split
  · rename_i h
    rw [Option.some.injEq, and_iff_right h]
    exact eq_comm
  · rename_i h
    exact iff_of_false (by simp) fun hd => h hd.1

end ByteString

end Guestkit.Lib

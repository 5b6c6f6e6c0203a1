import Mathlib

/-! Hash maps as association lists with distinct keys, and the order in which a hash map yields its
entries, of which nothing is known but that it yields each entry once. -/

namespace Guestkit.Lib

open List

abbrev HashMap (α β : Type) := AList fun _ : α => β

/-- An iteration order of the hash maps from `α` to `β`. -/
structure HashOrder (α β : Type) where
  iter : HashMap α β → List (α × β)
  perm : ∀ m, (iter m).Perm (m.entries.map fun e => (e.1, e.2))

namespace HashMap

variable {α β : Type} [DecidableEq α]
variable {entries : List (α × β)} {k : α}

variable (m : HashMap α β)

def orInsert (k : α) (v : β) : HashMap α β :=
  if k ∈ m then m else m.insert k v

theorem lookup_insert_eq (k a : α) (v : β) :
    (m.insert k v).lookup a = if a = k then some v else m.lookup a := by
  by_cases h : a = k
  · subst h
    rw [AList.lookup_insert, if_pos rfl]
  · rw [AList.lookup_insert_ne h, if_neg h]

theorem lookup_orInsert (k a : α) (v : β) :
    (m.orInsert k v).lookup a = if a = k then some ((m.lookup k).getD v) else m.lookup a := by
  unfold orInsert
  by_cases hk : k ∈ m
  · obtain ⟨w, hw⟩ := Option.isSome_iff_exists.mp (AList.lookup_isSome.mpr hk)
    rw [if_pos hk]
    by_cases h : a = k
    · subst h
      simp [hw]
    · simp [h]
  · rw [if_neg hk, lookup_insert_eq, AList.lookup_eq_none.mpr hk]
    rfl

def retain (p : α → β → Bool) : HashMap α β :=
  ⟨m.entries.filter fun e => p e.1 e.2, List.NodupKeys.sublist filter_sublist m.nodupKeys⟩

def push (m : HashMap α (List β)) (k : α) (v : β) : HashMap α (List β) :=
  m.insert k ((m.lookup k).getD [] ++ [v])

theorem lookup_foldl_push (entries : List (α × β)) (m : HashMap α (List β)) (k : α) :
    ((entries.foldl (fun m e => m.push e.1 e.2) m).lookup k).getD [] =
      (m.lookup k).getD [] ++ (entries.filter fun e => e.1 = k).map Prod.snd := by
  induction entries generalizing m with
  | nil => simp
  | cons e entries ih =>
    rw [foldl_cons, ih, push, lookup_insert_eq]
    by_cases h : k = e.1
    · subst h
      simp
    · simp [h, Ne.symm h]

def collect (entries : List (α × β)) : HashMap α β :=
  entries.foldl (fun m e => m.insert e.1 e.2) ∅

/-- Of several entries with a key, the last one counts. -/
theorem lookup_collect_eq (entries : List (α × β)) (k : α) :
    (collect entries).lookup k = entries.reverse.lookup k := by
  induction entries using List.reverseRecOn with
  | nil => rfl
  | append_singleton entries e ih =>
    rw [collect, foldl_append]
    change ((collect entries).insert e.1 e.2).lookup k = _
    rw [lookup_insert_eq, ih, reverse_concat, List.lookup_cons]
    by_cases hk : k = e.1
    · simp [hk]
    · simp [hk, beq_false_of_ne hk]

theorem lookup_collect_eq_none : (collect entries).lookup k = none ↔ k ∉ entries.map Prod.fst := by
  rw [lookup_collect_eq, List.lookup_eq_none_iff, mem_map, not_exists]
  refine forall_congr' fun e => ?_
  rw [mem_reverse, bne_iff_ne, not_and, ne_comm]

theorem mem_of_lookup_collect {v : β} (h : (collect entries).lookup k = some v) :
    (k, v) ∈ entries := by
  rw [lookup_collect_eq, List.lookup_eq_some_iff] at h
  obtain ⟨l₁, l₂, hsplit, -⟩ := h
  rw [← mem_reverse, hsplit]
  simp

theorem lookup_collect_of_unique {e : α × β} (he : e ∈ entries)
    (hunique : ∀ e' ∈ entries, e'.1 = e.1 → e' = e) :
    (collect entries).lookup e.1 = some e.2 := by
  obtain ⟨v, hv⟩ := Option.ne_none_iff_exists'.mp fun hnone =>
    lookup_collect_eq_none.mp hnone (mem_map_of_mem he)
  have hsame := hunique (e.1, v) (mem_of_lookup_collect hv) rfl
  rw [hv, ← hsame]

theorem lookup_collect (hkeys : (entries.map Prod.fst).Nodup) {e : α × β} (he : e ∈ entries) :
    (collect entries).lookup e.1 = some e.2 :=
  lookup_collect_of_unique he fun _ he' hkey => inj_on_of_nodup_map hkeys he' he hkey

end HashMap

namespace HashOrder

variable {α β : Type} (order : HashOrder α β) (m : HashMap α β)

theorem mem_iter [DecidableEq α] {k : α} {v : β} : (k, v) ∈ order.iter m ↔ m.lookup k = some v := by
  rw [(order.perm m).mem_iff, ← Option.mem_def, AList.mem_lookup_iff, mem_map]
  constructor
  · rintro ⟨⟨a, b⟩, hab, heq⟩
    cases heq
    exact hab
  · intro h
    exact ⟨⟨k, v⟩, h, rfl⟩

theorem nodup_keys : ((order.iter m).map Prod.fst).Nodup := by
  have hperm := (order.perm m).map Prod.fst
  rw [map_map] at hperm
  exact hperm.nodup_iff.mpr m.keys_nodup

def keysOf [DecidableEq β] (v : β) : List α :=
  ((order.iter m).filter fun e => e.2 = v).map Prod.fst

theorem mem_keysOf [DecidableEq α] [DecidableEq β] {k : α} {v : β} :
    k ∈ order.keysOf m v ↔ m.lookup k = some v := by
  simp only [keysOf, mem_map, mem_filter, decide_eq_true_eq]
  constructor
  · rintro ⟨⟨a, w⟩, ⟨hmem, rfl⟩, rfl⟩
    exact (order.mem_iter m).mp hmem
  · intro h
    exact ⟨(k, v), ⟨(order.mem_iter m).mpr h, rfl⟩, rfl⟩

theorem nodup_keysOf [DecidableEq β] (v : β) : (order.keysOf m v).Nodup :=
  (order.nodup_keys m).sublist (filter_sublist.map Prod.fst)

def newestFirst : HashOrder α β := ⟨fun m => m.entries.map fun e => (e.1, e.2), fun _ => .rfl⟩

end HashOrder

end Guestkit.Lib

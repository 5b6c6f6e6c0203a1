import Guestkit.Ebpf.Loader

/-! What a call of the loader leaves for each cgroup, as the network program finds it. -/

namespace Guestkit.Ebpf

open Lib Lib.Fs

@[ext] structure NpView where
  policy : Option NpPolicy
  rule : Nat → Option NpRule

def NpMaps.view (maps : NpMaps) (cgroupId : Nat) : NpView :=
  ⟨maps.policies.lookup cgroupId, fun slot => maps.rules.lookup ⟨cgroupId, slot⟩⟩

/-- The view after a call with these rules. -/
def NpView.of (policy : NpPolicy) (rules : List NpRule) : NpView :=
  ⟨some { policy with nrules := rules.length }, fun slot => rules[slot]?⟩

namespace GuestEbpf

variable {host : LoaderHost} {policy : NpPolicy} {rules : List NpRule} {s s' : GuestEbpf} {i : Nat}

theorem insert_eq_ok {α β : Type} [DecidableEq α] {map : KernelMap α β} {k : α} {v : β}
    (h : insert host map k v s = .ok () s') :
    s'.maps = map.set s.maps ((map.get s.maps).insert k v) := by
  unfold insert at h
  rw [get_bind] at h
  split at h
  · cases h
  · cases h
    rfl

theorem insertRules_eq_ok {k : Nat} (h : insertRules host i k rules s = .ok () s') (c : Nat) :
    (s'.maps.view c).policy = (s.maps.view c).policy ∧
      ∀ slot, (s'.maps.view c).rule slot =
        if c = i ∧ k ≤ slot ∧ slot < k + rules.length then rules[slot - k]?
        else (s.maps.view c).rule slot := by
  induction rules generalizing k s with
  | nil =>
    cases h
    exact ⟨rfl, fun slot => by rw [if_neg (by simp)]⟩
  | cons r rules ih =>
    obtain ⟨u, s1, hinsert, h⟩ := bind_eq_ok h
    have hmaps := insert_eq_ok hinsert
    obtain ⟨hpolicy, hrule⟩ := ih h
    have hfirst : ∀ slot, (s1.maps.view c).rule slot =
        if c = i ∧ slot = k then some r else (s.maps.view c).rule slot := by
      intro slot
      rw [hmaps]
      change (s.maps.rules.insert ⟨i, k⟩ r).lookup ⟨c, slot⟩ = _
      rw [HashMap.lookup_insert_eq]
      simp only [NpRuleKey.mk.injEq]
      rfl
    refine ⟨by rw [hpolicy, hmaps]; rfl, fun slot => ?_⟩
    rw [hrule, hfirst]
    by_cases hc : c = i
    · rcases Nat.lt_trichotomy slot k with hlt | rfl | hgt
      · rw [if_neg (by omega), if_neg (by omega), if_neg (by omega)]
      · rw [if_neg (by omega), if_pos ⟨hc, rfl⟩, if_pos (by simp [hc])]
        simp
      · simp [hc, show k + 1 ≤ slot from hgt, show slot ≠ k by omega, show k ≤ slot by omega,
          show slot - k = slot - (k + 1) + 1 by omega,
          show slot < k + 1 + rules.length ↔ slot < k + (rules.length + 1) by omega]
    · simp [hc]

theorem forM_remove (keys : List NpRuleKey) (s : GuestEbpf) :
    ∃ s', keys.forM (remove npRules) s = .ok () s' ∧ s'.maps.policies = s.maps.policies ∧
      ∀ k, s'.maps.rules.lookup k = if k ∈ keys then none else s.maps.rules.lookup k := by
  induction keys generalizing s with
  | nil => exact ⟨s, rfl, rfl, fun k => by simp⟩
  | cons key keys ih =>
    obtain ⟨s', hrun, hpolicies, hlookup⟩ :=
      ih { s with maps := npRules.set s.maps ((npRules.get s.maps).erase key) }
    refine ⟨s', hrun, hpolicies, fun k => (hlookup k).trans ?_⟩
    change (if k ∈ keys then none else (s.maps.rules.erase key).lookup k) = _
    by_cases hk : k = key
    · subst hk
      simp
    · simp [hk, AList.lookup_erase_ne hk]

theorem removeWhere_ok (order : HashOrder NpRuleKey NpRule) (p : NpRuleKey → Bool) (s : GuestEbpf) :
    ∃ s', removeWhere npRules order p s = .ok () s' ∧ s'.maps.policies = s.maps.policies ∧
      ∀ k, s'.maps.rules.lookup k = if p k then none else s.maps.rules.lookup k := by
  obtain ⟨s', hrun, hpolicies, hlookup⟩ :=
    forM_remove (((order.iter s.maps.rules).map Prod.fst).filter p) s
  refine ⟨s', hrun, hpolicies, fun k => ?_⟩
  rw [hlookup k]
  cases hp : p k with
  | false => simp [hp]
  | true =>
    cases hk : s.maps.rules.lookup k with
    | none => simp
    | some v => simp [hp, show ∃ v, (k, v) ∈ order.iter s.maps.rules from
        ⟨v, (order.mem_iter _).mpr hk⟩]

theorem npApplyTo_eq_ok (h : npApplyTo host policy rules i s = .ok () s') (c : Nat) :
    s'.maps.view c = if c = i then .of policy rules else s.maps.view c := by
  obtain ⟨u, s1, hrules, h⟩ := bind_eq_ok h
  obtain ⟨u, s2, hremove, hinsert⟩ := bind_eq_ok h
  obtain ⟨hpolicy1, hrule1⟩ := insertRules_eq_ok hrules c
  obtain ⟨s2', hremove', hpolicies2, hlookup2⟩ := removeWhere_ok host.ruleOrder
    (fun k => k.cgroupId = i ∧ rules.length ≤ k.slot) s1
  cases hremove.symm.trans hremove'
  have hrule : ∀ slot, (s'.maps.view c).rule slot =
      if c = i then rules[slot]? else (s.maps.view c).rule slot := by
    intro slot
    rw [insert_eq_ok hinsert]
    refine (hlookup2 ⟨c, slot⟩).trans ?_
    change (if decide (c = i ∧ rules.length ≤ slot) = true then none else
      (s1.maps.view c).rule slot) = _
    rw [hrule1]
    by_cases hc : c = i
    · rcases Nat.lt_or_ge slot rules.length with hlt | hge
      · simp [hc, hlt]
      · simp [hc, hge]
    · simp [hc]
  have hpolicy : (s'.maps.view c).policy =
      if c = i then some { policy with nrules := rules.length } else (s.maps.view c).policy := by
    rw [insert_eq_ok hinsert]
    change (s2.maps.policies.insert i _).lookup c = _
    rw [HashMap.lookup_insert_eq, hpolicies2, ← hpolicy1]
    rfl
  refine NpView.ext (hpolicy.trans ?_) (funext fun slot => (hrule slot).trans ?_)
  · split <;> rfl
  · split <;> rfl

theorem forM_npApplyTo_eq_ok {ids : List Nat}
    (h : ids.forM (npApplyTo host policy rules) s = .ok () s') (c : Nat) :
    s'.maps.view c = if c ∈ ids then .of policy rules else s.maps.view c := by
  induction ids generalizing s with
  | nil =>
    cases h
    simp
  | cons i ids ih =>
    obtain ⟨u, s1, hfirst, hrest⟩ := bind_eq_ok h
    rw [ih hrest, npApplyTo_eq_ok hfirst c]
    by_cases hi : c = i <;> by_cases hmem : c ∈ ids <;> simp [hi, hmem]

theorem npAttach_eq_ok {cgroup : Path} (h : npAttach host i cgroup s = .ok () s') :
    s'.maps = s.maps := by
  unfold npAttach at h
  rw [get_bind] at h
  split at h
  · cases h
    rfl
  · cases hattach : host.attachNp i cgroup with
    | error err =>
      rw [hattach] at h
      cases h
    | ok u =>
      rw [hattach] at h
      cases h
      rfl

theorem npApply_eq_ok {cgroup : Path} {ids : List Nat}
    (h : npApply host cgroup ids policy rules s = .ok () s') (c : Nat) :
    s'.maps.view c = if c ∈ ids then .of policy rules else s.maps.view c := by
  unfold npApply at h
  split at h
  · cases h
  · cases ids with
    | nil => cases h
    | cons top ids =>
      obtain ⟨u, s1, hattach, hrest⟩ := bind_eq_ok h
      rw [forM_npApplyTo_eq_ok hrest c, npAttach_eq_ok hattach]

end GuestEbpf

end Guestkit.Ebpf

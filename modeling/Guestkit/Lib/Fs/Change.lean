import Guestkit.Lib.Fs.Ops

/-! Walks after changes of a tree that keep its directories and links: a path leads where it led,
but for files that are gone and for objects that are new. -/

namespace Guestkit.Lib.Fs

/-- `t` keeps the directories and links of `t₁`, has files only where it had files, and is new only
below `top`. -/
structure Keeps (top : Loc) (t₁ t : Tree) : Prop where
  dir : ∀ loc, t₁.node loc = some .dir → t.node loc = some .dir
  link : ∀ loc target, t₁.node loc = some (.link target) → t.node loc = some (.link target)
  file : ∀ loc data mode, t₁.node loc = some (.file data mode) →
    t.node loc = none ∨ ∃ data' mode', t.node loc = some (.file data' mode')
  fresh : ∀ loc, t₁.node loc = none → t.node loc ≠ none → top <:+ loc

/-- Where a walk stops in `t`, by where it stopped in `t₁`. -/
inductive Stop.After (top : Loc) (t₁ t : Tree) : Stop → Stop → Prop
  | found {loc : Loc} : t.node loc ≠ none → After top t₁ t (.found loc) (.found loc)
  | gone {name : String} {dir : Loc} : t.node (name :: dir) = none →
      After top t₁ t (.found (name :: dir)) (.missing dir name [])
  | missing {dir : Loc} {name : String} {rest : Path} :
      After top t₁ t (.missing dir name rest) (.missing dir name rest)
  | created {dir : Loc} {name : String} {rest : Path} (stop : Stop) : top <:+ name :: dir →
      After top t₁ t (.missing dir name rest) stop
  | notDir {loc : Loc} : After top t₁ t (.notDir loc) (.notDir loc)
  | cut {name : String} {dir : Loc} {rest : Path} :
      After top t₁ t (.notDir (name :: dir)) (.missing dir name rest)
  | loop : After top t₁ t .loop .loop

variable {top : Loc} {t₁ t : Tree}

theorem Keeps.refl (top : Loc) (t : Tree) : Keeps top t t where
  dir _ h := h
  link _ _ h := h
  file _ data mode h := .inr ⟨data, mode, h⟩
  fresh _ hnone hsome := absurd hnone hsome

section

variable (hkeeps : Keeps top t₁ t)
include hkeeps

theorem walkFrom_after {follow : Bool}
    {onLink1 onLink : Loc → Path → Stop}
    (hlink : ∀ cur p, t₁.node cur = some .dir →
      Stop.After top t₁ t (onLink1 cur p) (onLink cur p))
    (cur : Loc) (p : Path) (h : t₁.node cur = some .dir) :
    Stop.After top t₁ t (walkFrom t₁ follow onLink1 cur p) (walkFrom t follow onLink cur p) := by
  have hdir := hkeeps.dir
  induction cur, p, h using walkFrom_induct with
  | nil cur h => exact .found (by rw [hdir cur h]; simp)
  | blank cur c rest h hc ih =>
    rw [walkFrom_blank h hc, walkFrom_blank (hdir cur h) hc]
    exact ih
  | up cur rest h ih =>
    rw [walkFrom_up h, walkFrom_up (hdir cur h)]
    exact ih
  | missing cur c rest h hc hnode =>
    rw [walkFrom_name h hc, hnode]
    by_cases hnew : t.node (c :: cur) = none
    · rw [walkFrom_name (hdir cur h) hc, hnew]
      exact .missing
    · exact .created _ (hkeeps.fresh _ hnode hnew)
  | link cur c target rest h hc hnode =>
    rw [walkFrom_name h hc, walkFrom_name (hdir cur h) hc, hnode, hkeeps.link _ _ hnode]
    dsimp only
    split
    · exact .found (by rw [hkeeps.link _ _ hnode]; simp)
    · exact hlink _ _ (Tree.dir_linkBase h target)
  | file cur c data mode rest h hc hnode =>
    rw [walkFrom_name h hc, walkFrom_name (hdir cur h) hc, hnode]
    dsimp only
    rw [walkFrom_file hnode]
    rcases hkeeps.file _ _ _ hnode with hgone | ⟨data', mode', hnode'⟩
    · rw [hgone]
      split
      · rename_i hrest
        subst hrest
        exact .gone hgone
      · exact .cut
    · rw [hnode']
      dsimp only
      rw [walkFrom_file hnode']
      split
      · exact .found (by rw [hnode']; simp)
      · exact .notDir
  | dir cur c rest h hc hnode ih =>
    rw [walkFrom_name h hc, walkFrom_name (hdir cur h) hc, hnode, hdir _ hnode]
    exact ih

theorem walkN_after (follow : Bool) (n : Nat) (cur : Loc) (p : Path)
    (h : t₁.node cur = some .dir) :
    Stop.After top t₁ t (walkN t₁ follow n cur p) (walkN t follow n cur p) := by
  induction n generalizing cur p with
  | zero => exact walkFrom_after hkeeps (fun _ _ _ => .loop) cur p h
  | succ n ih => exact walkFrom_after hkeeps ih cur p h

theorem walk_after (follow : Bool) (p : Path) :
    Stop.After top t₁ t (t₁.walk follow p) (t.walk follow p) := by
  unfold Tree.walk
  split
  · exact .missing
  · exact walkN_after hkeeps follow maxLinks [] p t₁.root

theorem Keeps.put {t' : Tree} {loc : Loc} {n : Node}
    (hnode : t'.node = Function.update t.node loc (some n))
    (hloc : t₁.node loc = none ∧ top <:+ loc ∨
      (∃ data mode, t₁.node loc = some (.file data mode)) ∧ ∃ data mode, n = .file data mode) :
    Keeps top t₁ t' := by
  have hother : ∀ loc', loc' ≠ loc → t'.node loc' = t.node loc' := by
    intro loc' hne
    rw [hnode, Function.update_of_ne hne]
  have hne : ∀ loc' o, t₁.node loc' = some o → (∀ data mode, o ≠ .file data mode) → loc' ≠ loc := by
    rintro _ o ho hfile rfl
    rcases hloc with ⟨hnone, -⟩ | ⟨⟨data, mode, hold⟩, -⟩
    · simp [hnone] at ho
    · exact hfile data mode (Option.some.inj (ho.symm.trans hold))
  constructor
  · intro loc' h
    rw [hother loc' (hne loc' _ h (by simp))]
    exact hkeeps.dir loc' h
  · intro loc' target h
    rw [hother loc' (hne loc' _ h (by simp))]
    exact hkeeps.link loc' target h
  · intro loc' data mode h
    by_cases heq : loc' = loc
    · rcases hloc with ⟨hnone, -⟩ | ⟨-, data', mode', rfl⟩
      · simp [heq, hnone] at h
      · exact .inr ⟨data', mode', by rw [hnode, heq, Function.update_self]⟩
    · rw [hother loc' heq]
      exact hkeeps.file loc' data mode h
  · intro loc' h hsome
    by_cases heq : loc' = loc
    · rcases hloc with ⟨-, htop⟩ | ⟨⟨data, mode, hold⟩, -⟩
      · exact heq ▸ htop
      · simp [heq, hold] at h
    · rw [hother loc' heq] at hsome
      exact hkeeps.fresh loc' h hsome

end

section Corollaries

variable (hkeeps : Keeps top t₁ t) {follow : Bool} {p : Path} {loc : Loc}

include hkeeps

theorem Keeps.walk_found (hfound : t₁.walk follow p = .found loc) (hnode : t.node loc ≠ none) :
    t.walk follow p = .found loc := by
  have hafter := walk_after hkeeps follow p
  rw [hfound] at hafter
  generalize t.walk follow p = stop at hafter ⊢
  cases hafter with
  | found _ => rfl
  | gone hgone => exact absurd hgone hnode

theorem Keeps.walk_gone (hfound : t₁.walk follow p = .found loc) (hnode : t.node loc = none) :
    ∃ name dir, loc = name :: dir ∧ t.walk follow p = .missing dir name [] := by
  have hafter := walk_after hkeeps follow p
  rw [hfound] at hafter
  generalize t.walk follow p = stop at hafter ⊢
  cases hafter with
  | found hsome => exact absurd hnode hsome
  | @gone name dir _ => exact ⟨name, dir, rfl, rfl⟩

theorem Keeps.walk_not_found (hnone : ∀ loc, t₁.walk follow p ≠ .found loc)
    (htop : ∀ dir name rest, t₁.walk follow p = .missing dir name rest → ¬top <:+ name :: dir) :
    ∀ loc, t.walk follow p ≠ .found loc := by
  intro loc hfound
  have hafter := walk_after hkeeps follow p
  rw [hfound] at hafter
  generalize hstop : t₁.walk follow p = stop at hafter
  cases hafter with
  | found _ => exact hnone loc hstop
  | created _ hnew => exact htop _ _ _ hstop hnew

end Corollaries

end Guestkit.Lib.Fs

import Guestkit.Lib.Fs.Walk

/-! The steps of a walk as a relation.  It counts the links that are followed, so walks of the parts
of a path can be put together although the number of links is bounded. -/

namespace Guestkit.Lib.Fs

open List

/-- Following `k` links, a walk from the directory `cur` along a path comes to a location and has
the last of the paths left. -/
inductive Reaches (t : Tree) : Nat → Loc → Path → Loc → Path → Prop
  | refl {cur : Loc} {p : Path} : Reaches t 0 cur p cur p
  | blank {k : Nat} {cur loc : Loc} {c : String} {rest r : Path} : t.node cur = some .dir →
      (c = "" ∨ c = ".") → Reaches t k cur rest loc r → Reaches t k cur (c :: rest) loc r
  | up {k : Nat} {cur loc : Loc} {rest r : Path} : t.node cur = some .dir →
      Reaches t k cur.tail rest loc r → Reaches t k cur (".." :: rest) loc r
  | name {k : Nat} {cur loc : Loc} {c : String} {rest r : Path} {n : Node} :
      t.node cur = some .dir → IsName c → t.node (c :: cur) = some n →
      (∀ target, n ≠ .link target) → Reaches t k (c :: cur) rest loc r →
      Reaches t k cur (c :: rest) loc r
  | link {k : Nat} {cur loc : Loc} {c target : String} {rest r : Path} : t.node cur = some .dir →
      IsName c → t.node (c :: cur) = some (.link target) →
      Reaches t k (if (Path.ofString target).isAbsolute then [] else cur)
        (Path.ofString target ++ rest) loc r →
      Reaches t (k + 1) cur (c :: rest) loc r

section Reaches

variable {t : Tree} {k j n : Nat} {cur dir loc : Loc} {p q r : Path} {c : String}

namespace Reaches

theorem append (h : Reaches t k cur p loc r) (q : Path) :
    Reaches t k cur (p ++ q) loc (r ++ q) := by
  induction h with
  | refl => exact .refl
  | blank hdir hc _ ih => exact .blank hdir hc ih
  | up hdir _ ih => exact .up hdir ih
  | name hdir hc hnode hlink _ ih => exact .name hdir hc hnode hlink ih
  | link hdir hc hnode _ ih =>
    rw [append_assoc] at ih
    exact .link hdir hc hnode ih

theorem trans (h : Reaches t k cur p dir r) (h' : Reaches t j dir r loc q) :
    Reaches t (k + j) cur p loc q := by
  induction h with
  | refl => rwa [Nat.zero_add]
  | blank hdir hc _ ih => exact .blank hdir hc (ih h')
  | up hdir _ ih => exact .up hdir (ih h')
  | name hdir hc hnode hlink _ ih => exact .name hdir hc hnode hlink (ih h')
  | link hdir hc hnode _ ih =>
    rw [Nat.add_right_comm]
    exact .link hdir hc hnode (ih h')

theorem isName (h : Reaches t k cur p loc r) (hcur : ∀ c ∈ cur, IsName c) :
    ∀ c ∈ loc, IsName c := by
  induction h with
  | refl => exact hcur
  | blank _ _ _ ih => exact ih hcur
  | up _ _ ih => exact ih fun c hc => hcur c (mem_of_mem_tail hc)
  | name _ hc _ _ _ ih => exact ih (forall_mem_cons.mpr ⟨hc, hcur⟩)
  | link _ _ _ _ ih =>
    refine ih ?_
    split
    · simp
    · exact hcur

theorem object (h : Reaches t k cur p loc r)
    (hcur : ∃ o, t.node cur = some o ∧ ∀ target, o ≠ .link target) :
    ∃ o, t.node loc = some o ∧ ∀ target, o ≠ .link target := by
  induction h with
  | refl => exact hcur
  | blank _ _ _ ih => exact ih hcur
  | up hdir _ ih => exact ih ⟨.dir, Tree.dir_tail hdir, by simp⟩
  | name _ _ hnode hlink _ ih => exact ih ⟨_, hnode, hlink⟩
  | link hdir _ _ _ ih => exact ih ⟨.dir, Tree.dir_linkBase hdir _, by simp⟩

theorem mono {t' : Tree} (h : Reaches t k cur p loc r)
    (hkeeps : ∀ loc n, t.node loc = some n → t'.node loc = some n) :
    Reaches t' k cur p loc r := by
  induction h with
  | refl => exact .refl
  | blank hdir hc _ ih => exact .blank (hkeeps _ _ hdir) hc ih
  | up hdir _ ih => exact .up (hkeeps _ _ hdir) ih
  | name hdir hc hnode hlink _ ih => exact .name (hkeeps _ _ hdir) hc (hkeeps _ _ hnode) hlink ih
  | link hdir hc hnode _ ih => exact .link (hkeeps _ _ hdir) hc (hkeeps _ _ hnode) ih

theorem location (hloc : ∀ c ∈ loc, IsName c) {o : Node} (hnode : t.node loc = some o)
    (hlink : ∀ target, o ≠ .link target) : Reaches t 0 [] loc.reverse loc [] := by
  induction loc generalizing o with
  | nil => exact .refl
  | cons c dir ih =>
    have hdir := t.parent_of_some hnode
    obtain ⟨hc, hnames⟩ := forall_mem_cons.mp hloc
    have hreach := (ih hnames hdir (by simp)).append [c]
    rw [reverse_cons]
    exact hreach.trans (.name hdir hc hnode hlink .refl)

end Reaches

variable {follow : Bool} {rest : Path} {name : String}

theorem walkN_eq_walkFrom (t : Tree) (follow : Bool) (n : Nat) :
    ∃ onLink, walkN t follow n = walkFrom t follow onLink := by
  cases n with
  | zero => exact ⟨_, rfl⟩
  | succ n => exact ⟨_, rfl⟩

theorem Reaches.walkN_append (h : Reaches t k cur p loc r) (n : Nat) (q : Path)
    (hq : follow = true ∨ q ≠ []) :
    walkN t follow (n + k) cur (p ++ q) = walkN t follow n loc (r ++ q) := by
  induction h with
  | refl => rfl
  | @blank k cur loc c rest r hdir hc _ ih =>
    obtain ⟨onLink, heq⟩ := walkN_eq_walkFrom t follow (n + k)
    rw [← ih, heq, cons_append, walkFrom_blank hdir hc]
  | @up k cur loc rest r hdir _ ih =>
    obtain ⟨onLink, heq⟩ := walkN_eq_walkFrom t follow (n + k)
    rw [← ih, heq, cons_append, walkFrom_up hdir]
  | @name k cur loc c rest r o hdir hc hnode hlink _ ih =>
    obtain ⟨onLink, heq⟩ := walkN_eq_walkFrom t follow (n + k)
    rw [← ih, heq, cons_append, walkFrom_name hdir hc, hnode]
    cases o with
    | link target => exact absurd rfl (hlink target)
    | file data mode => rfl
    | dir => rfl
  | @link k cur loc c target rest r hdir hc hnode _ ih =>
    rw [← ih, append_assoc, cons_append, ← Nat.add_assoc, walkN,
      walkFrom_name hdir hc, hnode]
    dsimp only
    rw [if_neg]
    rintro ⟨hfollow, hrest⟩
    rcases hq with hq | hq
    · simp [hfollow] at hq
    · exact hq (append_eq_nil_iff.mp hrest).2

theorem Reaches.walkN_eq (h : Reaches t k cur p loc r) (n : Nat) :
    walkN t true (n + k) cur p = walkN t true n loc r := by
  have := h.walkN_append n [] (.inl rfl)
  rwa [append_nil, append_nil] at this

/-- Where a walk that may follow `n` links comes to before it stops. -/
def Stop.Reached (t : Tree) (n : Nat) (cur : Loc) (p : Path) : Stop → Prop
  | .found loc => ∃ k ≤ n, Reaches t k cur p loc []
  | .missing dir name rest => ∃ k ≤ n, Reaches t k cur p dir (name :: rest) ∧ IsName name ∧
      t.node dir = some .dir ∧ t.node (name :: dir) = none
  | .notDir loc => ∃ k ≤ n, ∃ c rest, Reaches t k cur p loc (c :: rest) ∧ t.node loc ≠ some .dir
  | .loop => ∃ dir c rest target, Reaches t n cur p dir (c :: rest) ∧ IsName c ∧
      t.node dir = some .dir ∧ t.node (c :: dir) = some (.link target)

theorem Stop.Reached.step {stop : Stop} {cur' : Loc} {p' : Path} (h : stop.Reached t n cur' p')
    (hstep : ∀ {k loc r}, Reaches t k cur' p' loc r → Reaches t (k + j) cur p loc r) :
    stop.Reached t (n + j) cur p := by
  cases stop with
  | found loc =>
    obtain ⟨k, hk, hreach⟩ := h
    exact ⟨k + j, by omega, hstep hreach⟩
  | missing dir name rest =>
    obtain ⟨k, hk, hreach, hmissing⟩ := h
    exact ⟨k + j, by omega, hstep hreach, hmissing⟩
  | notDir loc =>
    obtain ⟨k, hk, c, rest, hreach, hnode⟩ := h
    exact ⟨k + j, by omega, c, rest, hstep hreach, hnode⟩
  | loop =>
    obtain ⟨dir, c, rest, target, hreach, hlink⟩ := h
    exact ⟨dir, c, rest, target, hstep hreach, hlink⟩

theorem walkFrom_reached {onLink : Loc → Path → Stop}
    (hlink : ∀ cur c target rest, t.node cur = some .dir → IsName c →
      t.node (c :: cur) = some (.link target) →
      (onLink (if (Path.ofString target).isAbsolute then [] else cur)
        (Path.ofString target ++ rest)).Reached t n cur (c :: rest))
    (cur : Loc) (p : Path) (h : t.node cur = some .dir) :
    (walkFrom t true onLink cur p).Reached t n cur p := by
  induction cur, p, h using walkFrom_induct with
  | nil cur h => exact ⟨0, Nat.zero_le n, .refl⟩
  | blank cur c rest h hc ih =>
    rw [walkFrom_blank h hc]
    exact ih.step (j := 0) (.blank h hc)
  | up cur rest h ih =>
    rw [walkFrom_up h]
    exact ih.step (j := 0) (.up h)
  | missing cur c rest h hc hnode =>
    rw [walkFrom_name h hc, hnode]
    exact ⟨0, Nat.zero_le n, .refl, hc, h, hnode⟩
  | link cur c target rest h hc hnode =>
    rw [walkFrom_name h hc, hnode]
    dsimp only
    rw [if_neg (by simp)]
    exact hlink cur c target rest h hc hnode
  | file cur c data mode rest h hc hnode =>
    have hstep : Reaches t 0 cur (c :: rest) (c :: cur) rest := .name h hc hnode (by simp) .refl
    rw [walkFrom_name h hc, hnode]
    dsimp only
    rw [walkFrom_file hnode]
    cases rest with
    | nil => exact ⟨0, Nat.zero_le n, hstep⟩
    | cons d rest => exact ⟨0, Nat.zero_le n, d, rest, hstep, by rw [hnode]; simp⟩
  | dir cur c rest h hc hnode ih =>
    rw [walkFrom_name h hc, hnode]
    exact ih.step (j := 0) (.name h hc hnode (by simp))

theorem walkN_reached (n : Nat) (cur : Loc) (p : Path) (h : t.node cur = some .dir) :
    (walkN t true n cur p).Reached t n cur p := by
  induction n generalizing cur p with
  | zero =>
    refine walkFrom_reached ?_ cur p h
    intro cur c target rest hcur hc hnode
    exact ⟨cur, c, rest, target, .refl, hc, hcur, hnode⟩
  | succ n ih =>
    refine walkFrom_reached ?_ cur p h
    intro cur c target rest hcur hc hnode
    exact (ih _ _ (Tree.dir_linkBase hcur target)).step (.link hcur hc hnode)

theorem reaches_of_found (hcur : t.node cur = some .dir)
    (h : walkN t true n cur p = .found loc) : ∃ k ≤ n, Reaches t k cur p loc [] := by
  have hreached := walkN_reached n cur p hcur
  rwa [h] at hreached

theorem isName_of_walk {loc : Loc} (h : t.walk true p = .found loc) : ∀ c ∈ loc, IsName c := by
  rw [walk_of_ne (ne_of_walk_found h)] at h
  obtain ⟨k, -, hreach⟩ := reaches_of_found t.root h
  exact hreach.isName (by simp)

theorem node_of_walk {loc : Loc} (h : t.walk true p = .found loc) :
    ∃ o, t.node loc = some o ∧ ∀ target, o ≠ .link target := by
  rw [walk_of_ne (ne_of_walk_found h)] at h
  obtain ⟨k, -, hreach⟩ := reaches_of_found t.root h
  exact hreach.object ⟨.dir, t.root, by simp⟩

theorem reaches_of_missing (hcur : t.node cur = some .dir)
    (h : walkN t true n cur p = .missing dir name rest) :
    ∃ k ≤ n, Reaches t k cur p dir (name :: rest) ∧ IsName name ∧ t.node dir = some .dir ∧
      t.node (name :: dir) = none := by
  have hreached := walkN_reached n cur p hcur
  rwa [h] at hreached

theorem walkN_followed (hcur : t.node cur = some .dir)
    (h : walkN t follow n cur p = .missing dir name rest) :
    walkN t true n cur p = .missing dir name rest := by
  cases follow with
  | true => exact h
  | false =>
    rcases walkN_noFollow t n cur p hcur with ⟨loc, hfound⟩ | heq
    · rw [hfound] at h
      cases h
    · rw [← heq, h]

theorem Reaches.found (h : Reaches t k cur p loc []) (hk : k ≤ n) :
    walkN t true n cur p = .found loc := by
  obtain ⟨m, rfl⟩ := Nat.exists_eq_add_of_le' hk
  rw [h.walkN_eq m]
  cases m <;> rfl

theorem walkN_none (n : Nat) (rest : Path) (hdir : t.node dir = some .dir) (hname : IsName name)
    (hnone : t.node (name :: dir) = none) :
    walkN t follow n dir (name :: rest) = .missing dir name rest := by
  obtain ⟨onLink, heq⟩ := walkN_eq_walkFrom t follow n
  rw [heq, walkFrom_name hdir hname, hnone]

theorem Reaches.missing (h : Reaches t k cur p dir (name :: rest)) (hk : k ≤ n)
    (hdir : t.node dir = some .dir) (hname : IsName name) (hnone : t.node (name :: dir) = none) :
    walkN t true n cur p = .missing dir name rest := by
  obtain ⟨m, rfl⟩ := Nat.exists_eq_add_of_le' hk
  rw [h.walkN_eq m, walkN_none m rest hdir hname hnone]

theorem walkN_missing_append (hcur : t.node cur = some .dir)
    (h : walkN t true n cur p = .missing dir name rest) (q : Path) (hq : follow = true ∨ q ≠ []) :
    walkN t follow n cur (p ++ q) = .missing dir name (rest ++ q) := by
  obtain ⟨k, hk, hreach, hname, hdir, hnone⟩ := reaches_of_missing hcur h
  obtain ⟨m, rfl⟩ := Nat.exists_eq_add_of_le' hk
  rw [hreach.walkN_append m q hq, cons_append, walkN_none m _ hdir hname hnone]

theorem walkN_prefix (hcur : t.node cur = some .dir) (q : Path)
    (h : (∃ loc, walkN t true n cur (p ++ q) = .found loc) ∨
      ∃ dir name rest, walkN t true n cur (p ++ q) = .missing dir name rest) :
    (∃ loc, walkN t true n cur p = .found loc) ∨
      ∃ dir name rest, walkN t true n cur p = .missing dir name rest := by
  have hreached := walkN_reached n cur p hcur
  cases hwalk : walkN t true n cur p with
  | found loc => exact .inl ⟨loc, rfl⟩
  | missing dir name rest => exact .inr ⟨dir, name, rest, rfl⟩
  | notDir loc =>
    rw [hwalk] at hreached
    obtain ⟨k, hk, c, rest, hreach, hnode⟩ := hreached
    obtain ⟨m, rfl⟩ := Nat.exists_eq_add_of_le' hk
    obtain ⟨onLink, heq⟩ := walkN_eq_walkFrom t true m
    rw [hreach.walkN_append m q (.inl rfl), heq, cons_append, walkFrom_notDir hnode] at h
    simp at h
  | loop =>
    rw [hwalk] at hreached
    obtain ⟨dir, c, rest, target, hreach, hc, hdir, hnode⟩ := hreached
    have happend := hreach.walkN_append 0 q (.inl rfl)
    rw [Nat.zero_add] at happend
    rw [happend, walkN, cons_append, walkFrom_name hdir hc, hnode] at h
    simp at h

theorem walkN_init (n : Nat) (cur : Loc) (p : Path) (hcur : t.node cur = some .dir)
    (hfound : walkN t true n cur (p ++ [c]) = .found loc) :
    ∃ dir, walkN t true n cur p = .found dir ∧ t.node dir = some .dir := by
  rcases walkN_prefix hcur [c] (.inl ⟨loc, hfound⟩) with ⟨dir, hdir⟩ | ⟨d, name, rest, hmissing⟩
  · refine ⟨dir, hdir, ?_⟩
    by_contra hnot
    obtain ⟨k, hk, hreach⟩ := reaches_of_found hcur hdir
    obtain ⟨m, rfl⟩ := Nat.exists_eq_add_of_le' hk
    obtain ⟨onLink, heq⟩ := walkN_eq_walkFrom t true m
    rw [hreach.walkN_append m [c] (.inl rfl), heq, nil_append, walkFrom_notDir hnot] at hfound
    cases hfound
  · rw [walkN_missing_append hcur hmissing [c] (.inl rfl)] at hfound
    cases hfound

theorem walkN_of_trailing (h : t.node cur = some .dir)
    (hfound : walkN t true n cur (p ++ [""]) = .found loc) :
    walkN t true n cur p = .found loc := by
  obtain ⟨dir, hdir, hnode⟩ := walkN_init n cur p h hfound
  obtain ⟨k, hk, hreach⟩ := reaches_of_found h hdir
  have htrail := ((hreach.append [""]).trans (.blank hnode (.inl rfl) .refl)).found hk
  rw [hdir, ← htrail, hfound]

theorem walkN_strip (n : Nat) (cur : Loc) (p : Path) (h : t.node cur = some .dir)
    (hfound : walkN t true n cur p = .found loc) :
    walkN t true n cur (p.reverse.dropWhile (· = "")).reverse = .found loc := by
  induction p using List.reverseRecOn with
  | nil => exact hfound
  | append_singleton p c ih =>
    by_cases hc : c = ""
    · subst hc
      rw [reverse_append, reverse_singleton, singleton_append,
        dropWhile_cons_of_pos (by simp)]
      exact ih (walkN_of_trailing h hfound)
    · rw [reverse_append, reverse_singleton, singleton_append,
        dropWhile_cons_of_neg (by simpa using hc), reverse_cons, reverse_reverse]
      exact hfound

theorem walk_join {base : Path} {dir : Loc} {name : String} (hbase : t.walk true base = .found dir)
    (hdir : t.node dir = some .dir) (hname : IsName name)
    (hno : ∀ target, t.node (name :: dir) ≠ some (.link target)) :
    t.walk true (base.join [name]) =
      if t.node (name :: dir) = none then .missing dir name [] else .found (name :: dir) := by
  have hstep : ∀ b, walkN t true maxLinks [] b = .found dir →
      t.walk true (b ++ [name]) =
        if t.node (name :: dir) = none then .missing dir name [] else .found (name :: dir) := by
    intro b hb
    have hne : b ++ [name] ≠ [""] := by
      intro heq
      have := congrArg List.getLast? heq
      simp [hname.1] at this
    obtain ⟨k, hk, hreach⟩ := reaches_of_found t.root hb
    have happend := hreach.append [name]
    rw [walk_of_ne hne]
    cases hnode : t.node (name :: dir) with
    | none =>
      rw [if_pos rfl]
      exact happend.missing hk hdir hname hnode
    | some o =>
      rw [if_neg (by simp)]
      have hstep : Reaches t 0 dir [name] (name :: dir) [] :=
        .name hdir hname hnode (fun target heq => hno target (heq ▸ hnode)) .refl
      exact (happend.trans hstep).found hk
  have hfound := hbase
  rw [walk_of_ne (ne_of_walk_found hbase)] at hfound
  unfold Path.join
  rw [if_neg (by simp [Path.isAbsolute])]
  split
  · rename_i hlast
    obtain ⟨b, rfl⟩ := List.getLast?_eq_some_iff.mp hlast
    rw [dropLast_concat]
    exact hstep b (walkN_of_trailing t.root hfound)
  · exact hstep base hfound

end Reaches

section Blank

variable {t : Tree} {k : Nat} {cur loc : Loc} {p p' r : Path} {c : String}

theorem components_idem (p : Path) : Path.components p.components = p.components := by
  simp [Path.components]

theorem sublist_name {rest : Path} (hc : c ≠ "" ∧ c ≠ ".") (hsub : p' <+ c :: rest)
    (hp : p'.components = Path.components (c :: rest)) :
    ∃ rest' : Path, p' = c :: rest' ∧ rest' <+ rest ∧ rest'.components = rest.components := by
  rw [components_cons_name hc] at hp
  cases hsub with
  | cons _ hsub =>
    have hlen : p'.components.length ≤ rest.components.length := (hsub.filter _).length_le
    rw [hp, length_cons] at hlen
    omega
  | cons_cons _ hsub =>
    rw [components_cons_name hc] at hp
    exact ⟨_, rfl, hsub, (List.cons.inj hp).2⟩

/-- A walk goes the same way if blank pieces are left out of its path. -/
theorem Reaches.components (h : Reaches t k cur p loc r) (hsub : p' <+ p)
    (hp : p'.components = p.components) :
    ∃ r' : Path, r' <+ r ∧ r'.components = r.components ∧ Reaches t k cur p' loc r' := by
  induction h generalizing p' with
  | refl => exact ⟨p', hsub, hp, .refl⟩
  | blank hcur hc _ ih =>
    rw [components_cons_blank hc] at hp
    cases hsub with
    | cons _ hsub => exact ih hsub hp
    | cons_cons _ hsub =>
      rw [components_cons_blank hc] at hp
      obtain ⟨r', hr, hcs, hreach⟩ := ih hsub hp
      exact ⟨r', hr, hcs, .blank hcur hc hreach⟩
  | up hcur _ ih =>
    obtain ⟨rest', rfl, hsub, hp⟩ := sublist_name (by decide) hsub hp
    obtain ⟨r', hr, hcs, hreach⟩ := ih hsub hp
    exact ⟨r', hr, hcs, .up hcur hreach⟩
  | name hcur hc hnode hlink _ ih =>
    obtain ⟨rest', rfl, hsub, hp⟩ := sublist_name ⟨hc.1, hc.2.1⟩ hsub hp
    obtain ⟨r', hr, hcs, hreach⟩ := ih hsub hp
    exact ⟨r', hr, hcs, .name hcur hc hnode hlink hreach⟩
  | link hcur hc hnode _ ih =>
    obtain ⟨rest', rfl, hsub, hp⟩ := sublist_name ⟨hc.1, hc.2.1⟩ hsub hp
    obtain ⟨r', hr, hcs, hreach⟩ := ih (hsub.append_left _) (by simpa [Path.components] using hp)
    exact ⟨r', hr, hcs, .link hcur hc hnode hreach⟩

theorem walkN_components (hcur : t.node cur = some .dir) (h : walkN t true n cur p = .found loc) :
    walkN t true n cur p.components = .found loc := by
  obtain ⟨k, hk, hreach⟩ := reaches_of_found hcur h
  obtain ⟨r, hr, -, hcomponents⟩ := hreach.components filter_sublist (components_idem p)
  rw [sublist_nil.mp hr] at hcomponents
  exact hcomponents.found hk

theorem walkN_components_missing {name : String} {rest : Path} (hcur : t.node cur = some .dir)
    (h : walkN t true n cur p = .missing dir name rest) :
    ∃ rest', rest' <+ rest ∧ walkN t true n cur p.components = .missing dir name rest' := by
  obtain ⟨k, hk, hreach, hname, hdir, hnone⟩ := reaches_of_missing hcur h
  obtain ⟨r, hr, hcs, hcomponents⟩ := hreach.components filter_sublist (components_idem p)
  obtain ⟨rest', rfl, hrest, -⟩ := sublist_name ⟨hname.1, hname.2.1⟩ hr hcs
  exact ⟨rest', hrest, hcomponents.missing hk hdir hname hnone⟩

theorem Reaches.skip (hcur : t.node cur = some .dir) {cs : List String}
    (h : p.components = c :: cs) : ∃ rest : Path, rest.components = cs ∧
      ∀ {k loc r}, Reaches t k cur (c :: rest) loc r → Reaches t k cur p loc r := by
  induction p with
  | nil => cases h
  | cons d p ih =>
    by_cases hd : d = "" ∨ d = "."
    · rw [components_cons_blank hd] at h
      obtain ⟨rest, hrest, hskip⟩ := ih h
      exact ⟨rest, hrest, fun hreach => .blank hcur hd (hskip hreach)⟩
    · rw [components_cons_name (not_or.mp hd)] at h
      obtain ⟨rfl, hrest⟩ := List.cons.inj h
      exact ⟨p, hrest, id⟩

theorem Reaches.skipAll (hcur : t.node cur = some .dir) (h : p.components = []) :
    Reaches t 0 cur p cur [] := by
  induction p with
  | nil => exact .refl
  | cons d p ih =>
    by_cases hd : d = "" ∨ d = "."
    · rw [components_cons_blank hd] at h
      exact .blank hcur hd (ih h)
    · rw [components_cons_name (not_or.mp hd)] at h
      cases h

theorem Reaches.respell (h : Reaches t k cur p loc r) (hp : p'.components = p.components) :
    ∃ r' : Path, r'.components = r.components ∧ Reaches t k cur p' loc r' := by
  induction h generalizing p' with
  | refl => exact ⟨p', hp, .refl⟩
  | blank _ hc _ ih => exact ih (hp.trans (components_cons_blank hc _))
  | up hcur _ ih =>
    obtain ⟨rest, hrest, hskip⟩ := Reaches.skip hcur (hp.trans (components_cons_name (by decide) _))
    obtain ⟨r', hr, hreach⟩ := ih hrest
    exact ⟨r', hr, hskip (.up hcur hreach)⟩
  | name hcur hc hnode hlink _ ih =>
    obtain ⟨rest, hrest, hskip⟩ :=
      Reaches.skip hcur (hp.trans (components_cons_name ⟨hc.1, hc.2.1⟩ _))
    obtain ⟨r', hr, hreach⟩ := ih hrest
    exact ⟨r', hr, hskip (.name hcur hc hnode hlink hreach)⟩
  | @link _ _ _ _ target _ _ hcur hc hnode _ ih =>
    obtain ⟨rest, hrest, hskip⟩ :=
      Reaches.skip hcur (hp.trans (components_cons_name ⟨hc.1, hc.2.1⟩ _))
    obtain ⟨r', hr, hreach⟩ := ih (show Path.components (Path.ofString target ++ rest) = _ by
      simpa [Path.components] using hrest)
    exact ⟨r', hr, hskip (.link hcur hc hnode hreach)⟩

theorem Reaches.of_components (h : Reaches t k cur p.components loc [])
    (hloc : t.node loc = some .dir) : Reaches t k cur p loc [] := by
  obtain ⟨r, hr, hreach⟩ := h.respell (components_idem p).symm
  exact hreach.trans (.skipAll hloc hr)

end Blank

end Guestkit.Lib.Fs

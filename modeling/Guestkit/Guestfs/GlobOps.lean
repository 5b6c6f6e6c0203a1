import Guestkit.Guestfs.Confine

/-! `glob_expand`, which matches in the tree of the host and returns paths of the host. -/

namespace Guestkit.Guestfs

open Lib Lib.Fs Lib.Text Lib.HashOrder List

variable (self : Guestfs) (order : HashOrder String String)
  (glob : String → Except String (List String)) (t : Tree) (pattern : String)

def underMount (root : String) : String := root ++ "/" ++ trimStartMatches (· = '/') pattern

def hostPattern : Except Error String :=
  if startsWith "/" pattern then
    match order.iter self.mounted with
    | e :: _ => .ok (underMount pattern e.2)
    | [] => .error (.invalidState "No filesystem mounted")
  else .ok pattern

/-- The paths that the crate `glob` yields are returned as they are. -/
def globExpand : Except Error (List String) := do
  self.ensureReady
  let host ← self.hostPattern order pattern
  (glob host).mapError fun e => .commandFailed ("Glob pattern error: " ++ e)

/-- Every match leads to an object below the guest's root, and leads to it as a guest path too. -/
structure MatchesInGuest (g : Guestfs) : Prop where
  inside : ∀ order paths s, g.globExpand order glob pattern = .ok paths → s ∈ paths →
    ∃ loc m root, t.canonicalize (Path.ofString s) = .ok loc ∧
      g.findRootMountpoint order = .ok m ∧ t.canonicalize (Path.ofString m) = .ok root ∧
      root <:+ loc ∧ g.resolveGuestPath order t s = .ok (Path.ofLoc loc)
  anyOrder : startsWith "/" pattern = true → ∀ order order',
    g.globExpand order glob pattern = g.globExpand order' glob pattern

def Expands (host : String) : Prop :=
  if startsWith "/" pattern then ∃ e ∈ self.mounted.entries, underMount pattern e.2 = host
  else pattern = host

/-- Below no mountpoint there is a match, and if there is an error, it is the same below all. -/
structure MatchesNothing (g : Guestfs) : Prop where
  same : ∀ host host', g.Expands pattern host → g.Expands pattern host' → glob host = glob host'
  nowhere : ∀ host paths, g.Expands pattern host → glob host = .ok paths → paths = []

variable {self order glob t pattern} {host : String}

theorem hostPattern_cases (self : Guestfs) (pattern : String) :
    (∃ e, ∀ order, self.hostPattern order pattern = .error e) ∨
    ∀ order, ∃ host, self.hostPattern order pattern = .ok host ∧ self.Expands pattern host := by
  unfold hostPattern Expands
  split
  · cases hentries : self.mounted.entries with
    | nil =>
      refine .inl ⟨.invalidState "No filesystem mounted", fun order => ?_⟩
      have hperm := order.perm self.mounted
      rw [hentries] at hperm
      rw [hperm.eq_nil]
    | cons e es =>
      refine .inr fun order => ?_
      have hperm := order.perm self.mounted
      rw [hentries] at hperm
      cases hiter : order.iter self.mounted with
      | nil => simp [hiter] at hperm
      | cons x xs =>
        obtain ⟨e', he, rfl⟩ := mem_map.mp (hperm.mem_iff.mp (hiter ▸ mem_cons_self))
        exact ⟨_, rfl, e', he, rfl⟩
  · exact .inr fun _ => ⟨pattern, rfl, rfl⟩

theorem exists_hostPattern (h : self.Expands pattern host) :
    ∃ order, self.hostPattern order pattern = .ok host := by
  unfold Expands at h
  unfold hostPattern
  split at h
  · obtain ⟨e, he, rfl⟩ := h
    -- an order that starts with the entries of this mountpoint
    let p : String × String → Bool := fun x => x.2 = e.2
    refine ⟨⟨fun m => (newestFirst.iter m).filter p ++ (newestFirst.iter m).filter (!p ·),
      fun m => filter_append_perm p _⟩, ?_⟩
    have hmem : (e.1, e.2) ∈ (newestFirst.iter self.mounted).filter p :=
      mem_filter.mpr ⟨mem_map.mpr ⟨e, he, rfl⟩, by simp [p]⟩
    cases hfilter : (newestFirst.iter self.mounted).filter p with
    | nil => simp [hfilter] at hmem
    | cons x xs =>
      have hx : p x = true := (mem_filter.mp (hfilter ▸ mem_cons_self)).2
      simp [*, of_decide_eq_true hx]
  · exact ⟨newestFirst, by simp_all⟩

theorem globExpand_eq (hready : self.state = .ready) {r : Except Error String}
    (h : self.hostPattern order pattern = r) :
    self.globExpand order glob pattern = r.bind fun host =>
      (glob host).mapError fun e => .commandFailed ("Glob pattern error: " ++ e) := by
  rw [globExpand, ensureReady, if_pos hready, h]
  rfl

theorem found_of_append {p rest : Path} {loc : Loc} (hp : p ≠ [""])
    (h : t.walk true (p ++ rest) = .found loc) : ∃ loc', t.walk true p = .found loc' := by
  rw [walk_of_ne hp]
  rw [walk_of_ne (ne_of_walk_found h)] at h
  rcases walkN_prefix t.root rest (.inl ⟨loc, h⟩) with hfound | ⟨d, name, post, hmissing⟩
  · exact hfound
  · rw [walkN_missing_append t.root hmissing rest (.inl rfl)] at h
    cases h

def cleanPath (s : String) : Path := Path.ofString (trimStartMatches (· = '/') s)

theorem candidatePath_append {m x y : String} {rest : Path}
    (h : cleanPath y = cleanPath x ++ rest) :
    candidatePath m y = candidatePath m x ++ rest := by
  have hjoin : ∀ s, candidatePath m s = (if (Path.ofString m).getLast? = some "" then
      (Path.ofString m).dropLast else Path.ofString m) ++ cleanPath s := fun s => by
    rw [candidatePath, Path.join, trimmed_not_absolute, if_neg Bool.false_ne_true, cleanPath]
  rw [hjoin, hjoin, h, append_assoc]

/-- A pattern that matches nothing is fine.  If what the crate yields begins with the mountpoint, and
the guest has nothing at the host path of a mountpoint, no other absolute pattern is. -/
theorem matchesInGuest_iff (hready : self.state = .ready) :
    (self.MatchesNothing glob pattern → self.MatchesInGuest glob t pattern) ∧
      (startsWith "/" pattern = true →
        (∀ e ∈ self.mounted.entries, ∀ paths s, glob (underMount pattern e.2) = .ok paths →
          s ∈ paths → ∃ rest, cleanPath s = cleanPath e.2 ++ rest) →
        (∀ order m, self.findRootMountpoint order = .ok m → ∀ e ∈ self.mounted.entries,
          ∀ loc, t.canonicalize (candidatePath m e.2) ≠ .ok loc) →
        self.MatchesInGuest glob t pattern → self.MatchesNothing glob pattern) := by
  constructor
  · intro h
    obtain ⟨e, he⟩ | hhost := hostPattern_cases self pattern
    · have hrun : ∀ order, self.globExpand order glob pattern = .error e := fun order =>
        globExpand_eq hready (he order)
      exact ⟨fun order _ _ h => absurd ((hrun order).symm.trans h) nofun,
        fun _ order order' => (hrun order).trans (hrun order').symm⟩
    · refine ⟨fun order paths s hrun hs => ?_, fun _ order order' => ?_⟩
      · obtain ⟨host, hrun', hexpands⟩ := hhost order
        rw [globExpand_eq hready hrun', Except.bind] at hrun
        cases hpaths : glob host with
        | error e => rw [hpaths] at hrun; cases hrun
        | ok paths' =>
          rw [hpaths] at hrun
          cases hrun
          exact absurd hs (h.nowhere host paths hexpands hpaths ▸ not_mem_nil)
      · obtain ⟨host, hrun, hexpands⟩ := hhost order
        obtain ⟨host', hrun', hexpands'⟩ := hhost order'
        rw [globExpand_eq hready hrun, globExpand_eq hready hrun', Except.bind, Except.bind,
          h.same host host' hexpands hexpands']
  · intro habsolute hglob hguest h
    refine ⟨fun host host' hhost hhost' => ?_, fun host paths hhost hpaths => ?_⟩
    · obtain ⟨order, horder⟩ := exists_hostPattern hhost
      obtain ⟨order', horder'⟩ := exists_hostPattern hhost'
      have heq := h.anyOrder habsolute order order'
      rw [globExpand_eq hready horder, globExpand_eq hready horder'] at heq
      simp only [Except.bind] at heq
      revert heq
      cases glob host <;> cases glob host' <;> simp [Except.mapError]
    · obtain ⟨order, horder⟩ := exists_hostPattern hhost
      have hrun : self.globExpand order glob pattern = .ok paths := by
        rw [globExpand_eq hready horder, Except.bind, hpaths, Except.mapError]
      refine eq_nil_iff_forall_not_mem.mpr fun s hs => ?_
      obtain ⟨loc, m, root, hloc, hm, hroot, -, hresolve⟩ := h.inside order paths s hrun hs
      have hne := ne_of_walk_found (canonicalize_ok.mp hroot)
      have hfound := found_of_accepted (candidatePath_ne hne)
        (resolveGuestPath_accepted hm hroot hresolve).2 (walk_ofLoc (canonicalize_ok.mp hloc))
      rw [Expands, if_pos habsolute] at hhost
      obtain ⟨e, he, rfl⟩ := hhost
      obtain ⟨rest, hrest⟩ := hglob e he paths s hpaths hs
      rw [candidatePath_append hrest] at hfound
      obtain ⟨loc'', hmount⟩ := found_of_append (candidatePath_ne hne) hfound
      exact hguest order m hm e he loc'' (canonicalize_ok.mpr hmount)

def globTree : Tree := .ofList [(["m"], .dir), (["etc", "m"], .dir)]

def starOf (host : String) : Except String (List String) :=
  .ok (if host = "/m/*" then ["/m/etc"] else [])

/-- `/m/etc` is returned, which is `/m/m/etc` as a guest path. -/
theorem globTree_star_not_inGuest :
    mountedGuest.globExpand .newestFirst starOf "/*" = .ok ["/m/etc"] ∧
      ¬ mountedGuest.MatchesInGuest starOf globTree "/*" := by
  have hrun : mountedGuest.globExpand .newestFirst starOf "/*" = .ok ["/m/etc"] := by
    decide +kernel
  refine ⟨hrun, fun h => ?_⟩
  obtain ⟨loc, m, root, hloc, -, -, -, hresolve⟩ := h.inside .newestFirst _ "/m/etc" hrun (by simp)
  have hetc : globTree.canonicalize (Path.ofString "/m/etc") = .ok ["etc", "m"] := by decide +kernel
  cases hetc.symm.trans hloc
  exact absurd hresolve (by decide +kernel)

theorem globTree_nothing_inGuest :
    mountedGuest.MatchesNothing starOf "/x*" ∧ (mountedGuest.MatchesNothing starOf "/x*" ↔
      mountedGuest.MatchesInGuest starOf globTree "/x*") := by
  refine ⟨⟨fun host host' hhost hhost' => ?_, fun host paths hhost h => ?_⟩,
    (matchesInGuest_iff rfl).1, (matchesInGuest_iff rfl).2 rfl (fun e he paths s hpaths hs => ?_)
      fun order m hm e he loc => ?_⟩
  · obtain ⟨e, he, rfl⟩ := hhost
    obtain ⟨e', he', rfl⟩ := hhost'
    rw [mem_singleton.mp he, mem_singleton.mp he']
  · obtain ⟨e, he, rfl⟩ := hhost
    obtain rfl := mem_singleton.mp he
    cases h
    rfl
  · obtain rfl := mem_singleton.mp he
    cases hpaths
    cases hs
  · have hiter : order.iter mountedGuest.mounted = [("/dev/sda1", "/m")] :=
      perm_singleton.mp (order.perm _)
    simp only [findRootMountpoint, hiter] at hm
    cases hm
    obtain rfl := mem_singleton.mp he
    have hmissing : globTree.canonicalize (candidatePath "/m" "/m") = .error .noEnt := by
      decide +kernel
    rw [hmissing]
    nofun

end Guestkit.Guestfs

import Guestkit.Guestfs.Umount

/-! The table of mounts against the mounts of the kernel, over every sequence of mount and umount
calls. -/

namespace Guestkit

open Lib Lib.Fs Lib.Text Guestfs AList List

namespace Guestfs

section Paths

variable {root : Path} {mountpoint k : String}

theorem startsWith_iff {pre s : String} :
    startsWith pre s = true ↔ ∃ rest, s.toList = pre.toList ++ rest := by
  rw [startsWith, isPrefixOf_iff_prefix]
  exact exists_congr fun _ => eq_comm

theorem startsWith_dev_of_partition {g : Guestfs} {device : String}
    (h : g.devicePartition k = .ok device) : startsWith "/dev/" k = true := by
  unfold devicePartition at h
  by_cases hvolume : isLogicalVolume k = true
  · unfold isLogicalVolume at hvolume
    rcases Bool.or_eq_true _ _ ▸ hvolume with hmapper | hdev
    · obtain ⟨rest, hrest⟩ := startsWith_iff.mp hmapper
      exact startsWith_iff.mpr ⟨"mapper/".toList ++ rest, by rw [hrest]; rfl⟩
    · exact (Bool.and_eq_true _ _ ▸ hdev).1
  · rw [if_neg hvolume] at h
    obtain ⟨n, hparse, -⟩ := except_ok_bind_iff.mp h
    unfold parseDeviceName at hparse
    split at hparse
    · cases hparse
    · rename_i hvalid
      simpa using (not_or.mp hvalid).2

theorem OwnRoot.display_eq (h : OwnRoot root) :
    ∃ c rest, (c = 'r' ∨ c = 't') ∧ root.display.toList = '/' :: c :: rest := by
  obtain ⟨dir, name, hdir, -, -, rfl⟩ := h
  rcases hdir with rfl | rfl
  · exact ⟨'r', "un/".toList ++ name.toList, .inl rfl, by simp [Path.display, join]⟩
  · exact ⟨'t', "mp/".toList ++ name.toList, .inr rfl, by simp [Path.display, join]⟩

theorem trimStartMatches_toList (p : Char → Bool) (s : String) :
    (trimStartMatches p s).toList = s.toList.dropWhile p := String.toList_ofList

theorem head_dropWhile_slash (l : List Char) :
    (l.dropWhile fun c => decide (c = '/')).head? ≠ some '/' := by
  intro hhead
  have hnot := List.head?_dropWhile_not (fun c => decide (c = '/')) l
  rw [hhead] at hnot
  exact absurd hnot (by decide)

section

variable (h : OwnRoot root)
include h

theorem OwnRoot.display_actual (hmountpoint : mountpoint ≠ "/") :
    (actualMountpoint root mountpoint).display =
      root.display ++ "/" ++ trimStartMatches (· = '/') mountpoint := by
  obtain ⟨dir, name, -, -, hname, rfl⟩ := h
  rw [actualMountpoint, if_neg hmountpoint, Path.display_join (by simp) (by simpa using hname)
    (Path.clean_ofString _).1, Path.display_ofString]
  refine Path.not_isAbsolute_ofString ?_
  rw [trimStartMatches_toList]
  exact head_dropWhile_slash _

theorem OwnRoot.clean (mountpoint : String) :
    (actualMountpoint root mountpoint).Clean := by
  obtain ⟨dir, name, hdir, hname, -, rfl⟩ := h
  have hroot : Path.Clean ["", dir, name] := by
    refine ⟨cons_ne_nil _ _, ?_⟩
    rcases hdir with rfl | rfl <;> simpa using hname
  unfold actualMountpoint
  split
  · exact hroot
  · exact hroot.join (Path.clean_ofString _)

theorem OwnRoot.display_device (hk : startsWith "/dev/" k = true) :
    (actualMountpoint root k).display = root.display ++ k := by
  obtain ⟨rest, hrest⟩ := startsWith_iff.mp hk
  have hne : k ≠ "/" := by
    rintro rfl
    exact absurd hrest (by simp)
  rw [h.display_actual hne, String.append_assoc]
  refine congrArg _ (String.toList_injective ?_)
  rw [String.toList_append, trimStartMatches_toList, hrest]
  rfl

theorem OwnRoot.display_root (mountpoint : String) :
    ∃ rest, (actualMountpoint root mountpoint).display = root.display ++ rest := by
  by_cases hmountpoint : mountpoint = "/"
  · exact ⟨"", by rw [actualMountpoint, if_pos hmountpoint, String.append_empty]⟩
  · exact ⟨_, (h.display_actual hmountpoint).trans (String.append_assoc ..)⟩

theorem OwnRoot.not_dev (mountpoint : String) :
    startsWith "/dev/" (actualMountpoint root mountpoint).display = false := by
  obtain ⟨rest, hrest⟩ := h.display_root mountpoint
  obtain ⟨c, cs, hc, hroot⟩ := h.display_eq
  refine Bool.eq_false_iff.mpr fun hdev => ?_
  obtain ⟨tail, htail⟩ := startsWith_iff.mp hdev
  rw [hrest, String.toList_append, hroot] at htail
  have hsecond : c = 'd' := by
    have := congrArg (fun l => l[1]?) htail
    simpa using this
  rcases hc with rfl | rfl <;> exact absurd hsecond (by decide)

theorem OwnRoot.display_ne (mountpoint : String) :
    (actualMountpoint root mountpoint).display ≠ mountpoint := by
  intro heq
  obtain ⟨c, cs, hc, hroot⟩ := h.display_eq
  have hslash : c ≠ '/' := by
    rcases hc with rfl | rfl <;> decide
  by_cases hmountpoint : mountpoint = "/"
  · rw [actualMountpoint, if_pos hmountpoint, hmountpoint] at heq
    rw [heq] at hroot
    exact absurd hroot (by simp)
  · have hdisplay := h.display_actual hmountpoint
    rw [heq] at hdisplay
    have hlist := congrArg String.toList hdisplay
    rw [String.toList_append, String.toList_append, hroot, trimStartMatches_toList] at hlist
    -- Only one slash is trimmed, so that the path is longer than the mountpoint.
    have hdrop : (mountpoint.toList.dropWhile fun c => decide (c = '/')) =
        mountpoint.toList.tail := by
      rw [hlist]
      simp [hslash]
    rw [hdrop] at hlist
    have hlength := congrArg List.length hlist
    simp only [length_append, length_cons, length_tail] at hlength
    omega

end

theorem OwnRoot.not_resolved {ε : Type} {tools : Tools ε} {g : Guestfs} {m : Machine ε}
    {rest : String} (h : OwnRoot root)
    (hresolve : resolveMountable tools g m (root.display ++ rest) = .ok k) :
    startsWith "/dev/" k = false := by
  obtain ⟨c, cs, hc, hroot⟩ := h.display_eq
  have htext : root.display ++ rest =
      String.ofList ['/', c] ++ (String.ofList cs ++ rest) := by
    refine String.toList_injective ?_
    rw [String.toList_append, hroot]
    simp
  have htrim : trim (root.display ++ rest) =
      String.ofList ['/', c] ++ trimEnd (String.ofList cs ++ rest) := by
    rw [htext]
    refine trim_append (show (String.ofList ['/', c]).toList = '/' :: [c] from
      String.toList_ofList) (by decide) ?_
    intro x hx
    cases hx
    rcases hc with rfl | rfl <;> decide
  have hlist : (trim (root.display ++ rest)).toList =
      '/' :: c :: (trimEnd (String.ofList cs ++ rest)).toList := by
    rw [htrim, String.toList_append, String.toList_ofList]
    rfl
  have hunnamed : ∀ pre first chars, pre.toList = first :: chars → first ≠ '/' →
      stripPrefix pre (trim (root.display ++ rest)) = none := by
    intro pre first chars hpre hfirst
    rw [stripPrefix, startsWith, hlist, hpre]
    simp [hfirst]
  have hk : k = trim (root.display ++ rest) := by
    unfold resolveMountable at hresolve
    simp only [hunnamed "UUID=" 'U' _ rfl (by decide), hunnamed "LABEL=" 'L' _ rfl (by decide),
      hunnamed "PARTUUID=" 'P' _ rfl (by decide)] at hresolve
    exact (Except.ok.inj hresolve).symm
  rw [hk, startsWith, hlist]
  rcases hc with rfl | rfl <;> rfl

end Paths

variable {ε β : Type}

def tableBlocks (kernel : Kernel ε β) (g : Guestfs) : Multiset β :=
  ↑(g.mounted.keys.filterMap (kernel.blockOf g))

/-- Beside the mounts there were before, the kernel has those of the table, each once. -/
structure Faithful (kernel : Kernel ε β) (base : Multiset β) (s : Session ε) : Prop where
  mirrors : kernel.mounts s.machine = base + tableBlocks kernel s.guest
  distinct : ∀ k k' b, k ∈ s.guest.mounted → k' ∈ s.guest.mounted →
    kernel.blockOf s.guest k = some b → kernel.blockOf s.guest k' = some b → k = k'

/-- `umount` with a text takes the entry of `k` and no other, and has the kernel unmount its file
system. -/
structure Undone (tools : Tools ε) (kernel : Kernel ε β) (order : HashOrder String String)
    (k pathordevice : String) (s : Session ε) : Prop where
  selected : ∃ p b, toUnmount order s.guest pathordevice = [(k, p)] ∧
    kernel.blockOf s.guest k = some b ∧ kernel.top s.machine (Path.ofString p) = some b
  effect : ∀ s', umount tools order pathordevice s = .ok () s' →
    s'.guest.mounted = s.guest.mounted.erase k ∧ ∃ b, kernel.blockOf s.guest k = some b ∧
      kernel.mounts s.machine = b ::ₘ kernel.mounts s'.machine

section Selection

variable {order : HashOrder String String} {g : Guestfs} {x k p : String}

theorem mem_toUnmount :
    (k, p) ∈ toUnmount order g x ↔ g.mounted.lookup k = some p ∧ (k = x ∨ p = x) := by
  rw [toUnmount, mem_filter, order.mem_iter]
  simp

theorem toUnmount_nodup : (toUnmount order g x).Nodup :=
  (List.Nodup.of_map Prod.fst (order.nodup_keys g.mounted)).filter _

theorem toUnmount_eq_singleton_iff :
    toUnmount order g x = [(k, p)] ↔ (g.mounted.lookup k = some p ∧ (k = x ∨ p = x)) ∧
      ∀ k' p', g.mounted.lookup k' = some p' → k' = x ∨ p' = x → k' = k := by
  constructor
  · intro h
    refine ⟨mem_toUnmount.mp (h ▸ mem_singleton_self _), fun k' p' hlookup hx => ?_⟩
    have hmem : (k', p') ∈ toUnmount order g x := mem_toUnmount.mpr ⟨hlookup, hx⟩
    rw [h, mem_singleton] at hmem
    exact congrArg Prod.fst hmem
  · rintro ⟨hself, hothers⟩
    refine perm_singleton.mp ((perm_ext_iff_of_nodup toUnmount_nodup
      (nodup_singleton _)).mpr fun e => ?_)
    rw [mem_singleton]
    constructor
    · intro he
      obtain ⟨hlookup, hx⟩ := mem_toUnmount.mp (show (e.1, e.2) ∈ _ from he)
      have hkey := hothers e.1 e.2 hlookup hx
      rw [hkey, hself.1] at hlookup
      exact Prod.ext hkey (Option.some.inj hlookup).symm
    · rintro rfl
      exact mem_toUnmount.mpr hself

end Selection

section Unmounting

variable {tools : Tools ε} {kernel : Kernel ε β} {order : HashOrder String String}
  {s s' : Session ε} {k x p : String}

theorem umount_found (h : umount tools order x s = .ok () s') :
    toUnmount order s.guest x ≠ [] ∧
      umountEntries tools (toUnmount order s.guest x) s = .ok () s' := by
  rw [umount, get_bind] at h
  obtain ⟨_, -, hafterReady⟩ := orThrow_bind_eq_ok h
  cases hfound : toUnmount order s.guest x with
  | nil =>
    rw [hfound] at hafterReady
    cases hafterReady
  | cons e rest =>
    rw [hfound] at hafterReady
    exact ⟨cons_ne_nil e rest, hafterReady⟩

theorem umount_single (hsound : kernel.Sound tools) (hfound : toUnmount order s.guest x = [(k, p)])
    (h : umount tools order x s = .ok () s') :
    s'.guest = { s.guest with mounted := s.guest.mounted.erase k } ∧
      ∃ b, kernel.top s.machine (Path.ofString p) = some b ∧
        kernel.mounts s.machine = b ::ₘ kernel.mounts s'.machine := by
  have hrun := (umount_found h).2
  rw [hfound, umountEntries] at hrun
  obtain ⟨hanswer, h⟩ := execute_checked hrun
  cases h
  exact ⟨rfl, hsound.umount hanswer⟩

theorem Undone.of_selected (hsound : kernel.Sound tools) {b : β}
    (hfound : toUnmount order s.guest x = [(k, p)]) (hblock : kernel.blockOf s.guest k = some b)
    (htop : kernel.top s.machine (Path.ofString p) = some b) :
    Undone tools kernel order k x s where
  selected := ⟨p, b, hfound, hblock, htop⟩
  effect s' hrun := by
    obtain ⟨hguest, b', htop', hmounts⟩ := umount_single hsound hfound hrun
    rw [htop] at htop'
    cases htop'
    exact ⟨by rw [hguest], b, hblock, hmounts⟩

end Unmounting

end Guestfs

inductive TableCall where
  | mount (call : MountCall)
  | umount (pathordevice : String)

namespace TableCall

variable {ε β : Type}

def run (tools : Tools ε) (order : HashOrder String String) : TableCall → GuestM ε Unit
  | .mount call => call.run tools
  | .umount pathordevice => Guestfs.umount tools order pathordevice

section Property

variable (tools : Tools ε) (kernel : Kernel ε β) (order : HashOrder String String)

/-- After a mount call, `umount` with its mountpoint or with its device undoes it; an `umount` call
takes only entries of one path; and the table goes on to mirror the kernel's mounts. -/
def Kept (base : Multiset β) (s s' : Session ε) : TableCall → Prop
  | .mount call => Faithful kernel base s' ∧
      ∃ k, resolveMountable tools s.guest s.machine call.mountable = .ok k ∧
        Undone tools kernel order k call.mountpoint s' ∧
        Undone tools kernel order k call.mountable s'
  | .umount _ => Faithful kernel base s' ∧
      ∀ k p k' p', s.guest.mounted.lookup k = some p → s.guest.mounted.lookup k' = some p' →
        s'.guest.mounted.lookup k = none → s'.guest.mounted.lookup k' = none → p = p'

/-- What has to hold before a call: a mount call gives the device by the name under which it is kept
in the table, and the mountpoint by that name too or by the path that the table has for it; no other
name in the table stands for its block device; and where an entry is looked up, its file system is
the one mounted last at its path. -/
def Fine (s : Session ε) : TableCall → Prop
  | .mount call =>
      resolveMountable tools s.guest s.machine call.mountable = .ok call.mountable ∧
      (call.mountpoint = call.mountable ∨
        s.guest.mounted.lookup call.mountable = some call.mountpoint) ∧
      ∃ b, kernel.blockOf s.guest call.mountable = some b ∧
        (∀ k ∈ s.guest.mounted, k ≠ call.mountable → kernel.blockOf s.guest k ≠ some b) ∧
        ∀ p, s.guest.mounted.lookup call.mountable = some p →
          kernel.top s.machine (Path.ofString p) = some b
  | .umount x => ∀ k p, s.guest.mounted.lookup k = some p → k = x ∨ p = x →
      kernel.top s.machine (Path.ofString p) = kernel.blockOf s.guest k

def AllKept (base : Multiset β) : List TableCall → Session ε → Prop
  | [], _ => True
  | call :: calls, s => ∀ s', call.run tools order s = .ok () s' →
      call.Kept tools kernel order base s s' ∧ AllKept base calls s'

def AllFine : List TableCall → Session ε → Prop
  | [], _ => True
  | call :: calls, s => ∀ s', call.run tools order s = .ok () s' →
      call.Fine tools kernel s ∧ AllFine calls s'

def Adds : TableCall → Prop
  | .mount call => call.Adds kernel
  | .umount _ => True

end Property

/-- What holds between the calls of a sequence that keeps to the property: the mount root is one of
the handle's own, and each entry has the path that repeats its name. -/
structure Tidy (kernel : Kernel ε β) (base : Multiset β) (s : Session ε) : Prop where
  root : ∀ root, s.guest.mountRoot = some root → OwnRoot root
  entries : ∀ k p, s.guest.mounted.lookup k = some p → (kernel.blockOf s.guest k).isSome ∧
    ∃ root, s.guest.mountRoot = some root ∧ p = (actualMountpoint root k).display
  faithful : Faithful kernel base s

/-- Whether a call keeps to the property is decided by the state before it. -/
def Decided (tools : Tools ε) (kernel : Kernel ε β) (order : HashOrder String String)
    (base : Multiset β) (s s' : Session ε) (call : TableCall) : Prop :=
  (Kept tools kernel order base s s' call ↔ Fine tools kernel s call) ∧
    (Fine tools kernel s call → Tidy kernel base s')

section Steps

variable {tools : Tools ε} {kernel : Kernel ε β} {order : HashOrder String String}
  {base : Multiset β} {s s' : Session ε} {k p x : String}
variable {call : MountCall}

theorem startsWith_dev {g : Guestfs} (h : (kernel.blockOf g k).isSome) :
    startsWith "/dev/" k = true := by
  unfold Kernel.blockOf at h
  split at h
  · rename_i device hdevice
    exact startsWith_dev_of_partition hdevice
  · cases h

theorem Tidy.path (h : Tidy kernel base s) (hentry : s.guest.mounted.lookup k = some p) :
    ∃ root, s.guest.mountRoot = some root ∧ OwnRoot root ∧ p = root.display ++ k := by
  obtain ⟨hblock, root, hroot, hp⟩ := h.entries k p hentry
  have hown := h.root root hroot
  exact ⟨root, hroot, hown, hp.trans (hown.display_device (startsWith_dev hblock))⟩

theorem Tidy.path_ne (h : Tidy kernel base s) {k' p' : String}
    (hentry : s.guest.mounted.lookup k = some p) (hentry' : s.guest.mounted.lookup k' = some p') :
    p ≠ k' := by
  rintro rfl
  obtain ⟨hblock, root, hroot, hp⟩ := h.entries k p hentry
  have hdev := startsWith_dev (h.entries p p' hentry').1
  have hnot := (h.root root hroot).not_dev k
  rw [← hp, hdev] at hnot
  cases hnot

theorem Tidy.path_inj (h : Tidy kernel base s) {k' : String}
    (hentry : s.guest.mounted.lookup k = some p) (hentry' : s.guest.mounted.lookup k' = some p) :
    k = k' := by
  obtain ⟨root, hroot, -, hp⟩ := h.path hentry
  obtain ⟨root', hroot', -, hp'⟩ := h.path hentry'
  rw [hroot] at hroot'
  cases hroot'
  have htext := congrArg String.toList (hp.symm.trans hp')
  rw [String.toList_append, String.toList_append] at htext
  exact String.toList_injective (append_cancel_left htext)

theorem Tidy.selected (h : Tidy kernel base s) (hentry : s.guest.mounted.lookup k = some p)
    (hx : k = x ∨ p = x) : toUnmount order s.guest x = [(k, p)] := by
  refine toUnmount_eq_singleton_iff.mpr ⟨⟨hentry, hx⟩, fun k' p' hentry' hx' => ?_⟩
  rcases hx with rfl | rfl
  · rcases hx' with rfl | rfl
    · rfl
    · exact absurd rfl (h.path_ne hentry' hentry)
  · rcases hx' with rfl | rfl
    · exact absurd rfl (h.path_ne hentry hentry')
    · exact h.path_inj hentry' hentry

/-! The entries of the table, taken out and put in. -/

theorem tableBlocks_erase {g : Guestfs} {b : β} (hk : k ∈ g.mounted)
    (hblock : kernel.blockOf g k = some b) :
    tableBlocks kernel g =
      b ::ₘ tableBlocks kernel { g with mounted := g.mounted.erase k } := by
  have hperm := (perm_cons_erase (mem_keys.mp hk)).filterMap (kernel.blockOf g)
  rw [filterMap_cons_some hblock] at hperm
  rw [tableBlocks, tableBlocks, keys_erase]
  exact Multiset.coe_eq_coe.mpr hperm

theorem tableBlocks_insert {g : Guestfs} {b : β} {root : Option Path} (hk : k ∉ g.mounted)
    (hblock : kernel.blockOf g k = some b) :
    tableBlocks kernel
        { g with mountRoot := root, mounted := g.mounted.insert k p } =
      b ::ₘ tableBlocks kernel g := by
  rw [Guestfs.tableBlocks, Guestfs.tableBlocks, keys_insert,
    erase_of_not_mem (fun h => hk (mem_keys.mpr h))]
  exact congrArg _ (filterMap_cons_some hblock)

theorem lookup_of_erase {m : HashMap String String} {k' : String}
    (h : (m.erase k).lookup k' = some p) : m.lookup k' = some p := by
  by_cases hk : k' = k
  · subst hk
    rw [lookup_erase] at h
    cases h
  · rwa [lookup_erase_ne hk] at h

theorem umount_step (hsound : kernel.Sound tools) (htidy : Tidy kernel base s)
    (hrun : Guestfs.umount tools order x s = .ok () s') :
    Decided tools kernel order base s s' (.umount x) := by
  obtain ⟨⟨k, p⟩, hfound⟩ := exists_mem_of_ne_nil _ (umount_found hrun).1
  obtain ⟨hentry, hx⟩ := mem_toUnmount.mp hfound
  have hselected : toUnmount order s.guest x = [(k, p)] := htidy.selected hentry hx
  obtain ⟨hguest, b, htop, hmounts⟩ := umount_single hsound hselected hrun
  obtain ⟨b', hblock⟩ := Option.isSome_iff_exists.mp (htidy.entries k p hentry).1
  have hmem : k ∈ s.guest.mounted := by
    rw [← lookup_isSome, hentry]
    rfl
  have hbefore := htidy.faithful.mirrors
  rw [hmounts, tableBlocks_erase hmem hblock, ← hguest, Multiset.add_cons] at hbefore
  have hmirrors : kernel.mounts s'.machine = base + tableBlocks kernel s'.guest ↔ b = b' := by
    constructor
    · intro hafter
      rw [hafter] at hbefore
      exact (Multiset.cons_inj_left _).mp hbefore
    · rintro rfl
      exact (Multiset.cons_inj_right _).mp hbefore
  have hleft : ∀ k1 p1, s'.guest.mounted.lookup k1 = some p1 →
      s.guest.mounted.lookup k1 = some p1 := by
    intro k1 p1 hk1
    rw [hguest] at hk1
    exact lookup_of_erase hk1
  have hfaithful : b = b' → Faithful kernel base s' := by
    refine fun hb => ⟨hmirrors.mpr hb, fun k1 k2 b1 hk1 hk2 hblock1 hblock2 => ?_⟩
    rw [hguest] at hk1 hk2 hblock1 hblock2
    exact htidy.faithful.distinct k1 k2 b1 (mem_erase.mp hk1).2 (mem_erase.mp hk2).2
      hblock1 hblock2
  have hself : Fine tools kernel s (.umount x) → b = b' := by
    intro hfine
    have hsame := hfine k p hentry hx
    rw [htop, hblock] at hsame
    exact Option.some.inj hsame
  refine ⟨⟨fun hkept k1 p1 hentry1 hx1 => ?_, fun hfine => ⟨hfaithful (hself hfine), ?_⟩⟩,
    fun hfine => ⟨?_, fun k1 p1 hentry1 => ?_, hfaithful (hself hfine)⟩⟩
  · have hk1 : k1 = k :=
      (toUnmount_eq_singleton_iff.mp hselected).2 k1 p1 hentry1 hx1
    subst hk1
    rw [hentry] at hentry1
    cases hentry1
    rw [htop, hblock, hmirrors.mp hkept.1.mirrors]
  · have hgone : ∀ k1 p1, s.guest.mounted.lookup k1 = some p1 →
        s'.guest.mounted.lookup k1 = none → p1 = p := by
      intro k1 p1 hentry1 hnone
      by_cases hk1 : k1 = k
      · subst hk1
        exact Option.some.inj (hentry1.symm.trans hentry)
      · rw [hguest, lookup_erase_ne hk1, hentry1] at hnone
        cases hnone
    intro k1 p1 k2 p2 hentry1 hentry2 hnone1 hnone2
    exact (hgone k1 p1 hentry1 hnone1).trans (hgone k2 p2 hentry2 hnone2).symm
  · intro root hroot
    rw [hguest] at hroot
    exact htidy.root root hroot
  · rw [hguest]
    exact htidy.entries k1 p1 (hleft k1 p1 hentry1)

/-! ### A mount call on a device in the table -/

theorem undone_entry (h : Undone tools kernel order k x s)
    (hentry : s.guest.mounted.lookup k = some p) :
    (k = x ∨ p = x) ∧ (kernel.blockOf s.guest k).isSome ∧
      kernel.top s.machine (Path.ofString p) = kernel.blockOf s.guest k := by
  obtain ⟨p', b, hselected, hblock, htop⟩ := h.selected
  obtain ⟨⟨hentry', hx⟩, -⟩ := toUnmount_eq_singleton_iff.mp hselected
  rw [hentry] at hentry'
  cases hentry'
  exact ⟨hx, by rw [hblock]; rfl, htop.trans hblock.symm⟩

structure SameTable (kernel : Kernel ε β) (s s' : Session ε) : Prop where
  lookup : ∀ k, s'.guest.mounted.lookup k = s.guest.mounted.lookup k
  mountRoot : s'.guest.mountRoot = s.guest.mountRoot
  blockOf : ∀ k, kernel.blockOf s'.guest k = kernel.blockOf s.guest k
  tableBlocks : tableBlocks kernel s'.guest = tableBlocks kernel s.guest

theorem SameTable.mem (h : SameTable kernel s s') : k ∈ s'.guest.mounted ↔ k ∈ s.guest.mounted := by
  rw [← lookup_isSome, ← lookup_isSome, h.lookup]

theorem SameTable.tidy (h : SameTable kernel s s') (htidy : Tidy kernel base s)
    (hmounts : kernel.mounts s'.machine = kernel.mounts s.machine) : Tidy kernel base s' where
  root root hroot := htidy.root root (h.mountRoot ▸ hroot)
  entries k p hentry := by
    rw [h.blockOf, h.mountRoot]
    exact htidy.entries k p (h.lookup k ▸ hentry)
  faithful := by
    refine ⟨?_, fun k k' b hk hk' hb hb' => ?_⟩
    · rw [hmounts, h.tableBlocks, htidy.faithful.mirrors]
    · rw [h.blockOf] at hb hb'
      exact htidy.faithful.distinct k k' b (h.mem.mp hk) (h.mem.mp hk') hb hb'

/-- With the mounts as before, the file system of the entry is the last one at its path just if it
was. -/
def Stands (kernel : Kernel ε β) (k p : String) (s s' : Session ε) : Prop :=
  (kernel.mounts s'.machine = kernel.mounts s.machine ∧
      kernel.top s'.machine (Path.ofString p) = kernel.blockOf s.guest k) ↔
    kernel.top s.machine (Path.ofString p) = kernel.blockOf s.guest k

/-- A mount call that leaves the table as it is keeps to the property if the file system of the
entry was the last one at its path. -/
theorem standing_step (hsound : kernel.Sound tools) (htidy : Tidy kernel base s)
    (hresolved : resolveMountable tools s.guest s.machine call.mountable = .ok k)
    (hentry : s.guest.mounted.lookup k = some p) (hsame : SameTable kernel s s')
    (hstands : Stands kernel k p s s') :
    Decided tools kernel order base s s' (.mount call) := by
  obtain ⟨root, hroot, hown, hp⟩ := htidy.path hentry
  have hentry' : s'.guest.mounted.lookup k = some p := (hsame.lookup k).trans hentry
  have hdev := startsWith_dev (htidy.entries k p hentry).1
  obtain ⟨b, hblock⟩ := Option.isSome_iff_exists.mp (htidy.entries k p hentry).1
  have hfine : Fine tools kernel s (.mount call) → call.mountable = k ∧
      (k = call.mountpoint ∨ p = call.mountpoint) ∧
      kernel.top s.machine (Path.ofString p) = kernel.blockOf s.guest k := by
    rintro ⟨hself, hmountpoint, b', hblock', -, htop⟩
    have hk : call.mountable = k := Except.ok.inj (hself.symm.trans hresolved)
    rw [hk] at hmountpoint hblock' htop
    refine ⟨hk, hmountpoint.imp Eq.symm fun h => ?_, (htop p hentry).trans hblock'.symm⟩
    exact Option.some.inj (hentry.symm.trans h)
  have htidy' : Fine tools kernel s (.mount call) → Tidy kernel base s' := fun h =>
    hsame.tidy htidy (hstands.mpr (hfine h).2.2).1
  refine ⟨⟨fun ⟨hfaithful, k', hk', hmp, hd⟩ => ?_, fun h => ?_⟩, htidy'⟩
  · have hkk : k' = k := Except.ok.inj (hk'.symm.trans hresolved)
    subst hkk
    obtain ⟨hmountpoint, -, htop⟩ := undone_entry hmp hentry'
    have hmountable : call.mountable = k' := by
      rcases (undone_entry hd hentry').1 with hd | hd
      · exact hd.symm
      · rw [← hd, hp] at hresolved
        exact absurd hdev (by rw [hown.not_resolved hresolved]; decide)
    rw [hsame.blockOf] at htop
    have hmounts : kernel.mounts s'.machine = kernel.mounts s.machine := by
      rw [hfaithful.mirrors, hsame.tableBlocks, htidy.faithful.mirrors]
    refine ⟨hresolved.trans (congrArg _ hmountable.symm), ?_, b, by rw [hmountable, hblock], ?_, ?_⟩
    · rw [hmountable]
      exact hmountpoint.imp Eq.symm fun h => by rw [hentry, h]
    · intro k1 hk1 hne hb
      refine hne ?_
      rw [hmountable]
      exact htidy.faithful.distinct k1 k' b hk1
        (lookup_isSome.mp (by rw [hentry]; rfl)) hb hblock
    · intro p1 hp1
      rw [hmountable, hentry] at hp1
      cases hp1
      rw [hstands.mp ⟨hmounts, htop⟩, hblock]
  · obtain ⟨hk, hmountpoint, htop⟩ := hfine h
    have htop' := (hstands.mpr htop).2
    rw [hblock] at htop'
    have hblock' : kernel.blockOf s'.guest k = some b := (hsame.blockOf k).trans hblock
    refine ⟨(htidy' h).faithful, k, hresolved, ?_, ?_⟩
    · exact Undone.of_selected hsound ((htidy' h).selected hentry' hmountpoint) hblock' htop'
    · exact Undone.of_selected hsound ((htidy' h).selected hentry' (.inl hk.symm)) hblock'
        htop'

theorem again_stands {q : String} (hmounts : kernel.mounts s'.machine = kernel.mounts s.machine)
    (htop : kernel.top s'.machine (Path.ofString q) = kernel.top s.machine (Path.ofString q))
    (k : String) :
    Stands kernel k q s s' := by
  rw [Stands, htop]
  exact and_iff_right hmounts

/-- A file system that is mounted anew is the one of the entry if that was the last one there. -/
theorem anew_stands {q device : String} {b : β} {rest : Multiset β}
    (hsource : kernel.block device = b ∨ s.guest.devicePartition k = .ok device)
    (hbefore : kernel.mounts s.machine = b ::ₘ rest)
    (hafter : kernel.mounts s'.machine = kernel.block device ::ₘ rest)
    (htop : kernel.top s.machine (Path.ofString q) = some b)
    (htop' : kernel.top s'.machine (Path.ofString q) = some (kernel.block device)) :
    Stands kernel k q s s' := by
  rw [Stands, hbefore, hafter, htop, htop', Multiset.cons_inj_left]
  constructor
  · rintro ⟨hb, hk⟩
    rw [← hb, hk]
  · intro hk
    have hb : kernel.block device = b := by
      rcases hsource with hb | hdevice
      · exact hb
      · unfold Kernel.blockOf at hk
        rw [hdevice] at hk
        exact (Option.some.inj hk).symm
    exact ⟨hb, by rw [hb, hk]⟩

theorem sameTable_of_anew {q : String} (hentry : s.guest.mounted.lookup k = some q)
    (hblock : (kernel.blockOf s.guest k).isSome)
    (hguest : s'.guest = { s.guest with
      mounted := (s.guest.mounted.erase k).insert k (Path.ofString q).display }) :
    SameTable kernel s s' := by
  obtain ⟨b, hb⟩ := Option.isSome_iff_exists.mp hblock
  have hmem : k ∈ s.guest.mounted := lookup_isSome.mp (by rw [hentry]; rfl)
  have herased : k ∉ s.guest.mounted.erase k := fun h => (mem_erase.mp h).1 rfl
  refine ⟨fun k' => ?_, by rw [hguest], fun k' => by rw [hguest]; rfl, ?_⟩
  · rw [hguest, Path.display_ofString, HashMap.lookup_insert_eq]
    by_cases hk : k' = k
    · rw [if_pos hk, hk, hentry]
    · rw [if_neg hk, lookup_erase_ne hk]
  · rw [hguest, tableBlocks_erase hmem hb]
    exact tableBlocks_insert (g := { s.guest with mounted := s.guest.mounted.erase k }) herased hb

/-! ### A mount call on a device that is not in the table -/

section

variable (hsound : kernel.Sound tools) (htidy : Tidy kernel base s)
include hsound htidy

theorem fresh_step {q : Prepared}
    {s₁ : Session ε}
    (hprepared : Preparation tools kernel call.mountable call.mountpoint q s s₁)
    (hrecorded : Recorded kernel q s₁ s') :
    Decided tools kernel order base s s' (.mount call) := by
  obtain ⟨root, hroot, hmountRoot, htarget⟩ := hprepared.root
  have hown : OwnRoot root := by
    rcases hmountRoot with hsome | ⟨-, hown⟩
    · exact htidy.root root hsome
    · exact hown
  have hguest : s'.guest = { s.guest with
      mountRoot := some root
      mounted := s.guest.mounted.insert q.mountable q.target.display } := by
    rw [hrecorded.guest, hroot]
  have hblock : kernel.blockOf s.guest q.mountable = some (kernel.block q.device) := by
    rw [Kernel.blockOf, hprepared.device]
  have hnew : q.mountable ∉ s.guest.mounted := lookup_eq_none.mp hprepared.unmounted
  have hdev := startsWith_dev_of_partition hprepared.device
  have hentry : s'.guest.mounted.lookup q.mountable = some q.target.display := by
    rw [hguest]
    exact lookup_insert _
  have hblock' : ∀ k, kernel.blockOf s'.guest k = kernel.blockOf s.guest k := fun k => by
    rw [hguest]
    rfl
  have htext : Path.ofString q.target.display = q.target := by
    rw [htarget]
    exact (hown.clean call.mountpoint).ofString_display
  have htop : kernel.top s'.machine (Path.ofString q.target.display) =
      some (kernel.block q.device) := by
    rw [htext, hrecorded.top]
  have hmirrors : kernel.mounts s'.machine = base + tableBlocks kernel s'.guest := by
    rw [hrecorded.mounts, hprepared.mounts, htidy.faithful.mirrors, hguest,
      tableBlocks_insert hnew hblock, Multiset.add_cons]
  have hfine : Fine tools kernel s (.mount call) → call.mountable = q.mountable ∧
      call.mountpoint = q.mountable ∧ ∀ k ∈ s.guest.mounted,
        kernel.blockOf s.guest k ≠ some (kernel.block q.device) := by
    rintro ⟨hself, hmountpoint, b, hb, hother, -⟩
    have hk : call.mountable = q.mountable := Except.ok.inj (hself.symm.trans hprepared.resolved)
    rw [hk] at hmountpoint hb hother
    rw [hblock] at hb
    cases hb
    refine ⟨hk, hmountpoint.resolve_right fun h => ?_, fun k hmem => hother k hmem fun h => ?_⟩
    · rw [hprepared.unmounted] at h
      cases h
    · exact hnew (h ▸ hmem)
  have htidy' : Fine tools kernel s (.mount call) → Tidy kernel base s' := by
    intro h
    obtain ⟨hk, hmountpoint, hother⟩ := hfine h
    refine ⟨fun root' hroot' => ?_, fun k p hkp => ?_, hmirrors, fun k k' b hk hk' hb hb' => ?_⟩
    · rw [hguest] at hroot'
      cases hroot'
      exact hown
    · rw [hblock']
      rw [hguest, HashMap.lookup_insert_eq] at hkp
      by_cases hkq : k = q.mountable
      · rw [if_pos hkq] at hkp
        cases hkp
        refine ⟨by rw [hkq, hblock]; rfl, root, by rw [hguest], ?_⟩
        rw [htarget, hmountpoint, hkq]
      · rw [if_neg hkq] at hkp
        obtain ⟨hsome, root', hroot', hp⟩ := htidy.entries k p hkp
        have hsame : root' = root := by
          rcases hmountRoot with hsome | ⟨hnone, -⟩
          · exact Option.some.inj (hroot'.symm.trans hsome)
          · rw [hnone] at hroot'
            cases hroot'
        exact ⟨hsome, root, by rw [hguest], hsame ▸ hp⟩
    · rw [hblock'] at hb hb'
      rw [hguest, mem_insert] at hk hk'
      rcases hk with rfl | hk
      · rcases hk' with rfl | hk'
        · rfl
        · rw [hblock] at hb
          cases hb
          exact absurd hb' (hother k' hk')
      · rcases hk' with rfl | hk'
        · rw [hblock] at hb'
          cases hb'
          exact absurd hb (hother k hk)
        · exact htidy.faithful.distinct k k' b hk hk' hb hb'
  refine ⟨⟨fun ⟨hfaithful, k, hk, hmp, hd⟩ => ?_, fun h => ?_⟩, htidy'⟩
  · have hkq : k = q.mountable := Except.ok.inj (hk.symm.trans hprepared.resolved)
    subst hkq
    have hmountpoint : call.mountpoint = q.mountable := by
      rcases (undone_entry hmp hentry).1 with h | h
      · exact h.symm
      · rw [htarget] at h
        exact absurd h (hown.display_ne call.mountpoint)
    have hmountable : call.mountable = q.mountable := by
      rcases (undone_entry hd hentry).1 with h | h
      · exact h.symm
      · obtain ⟨rest, hrest⟩ := hown.display_root call.mountpoint
        rw [htarget, hrest] at h
        rw [← h] at hk
        exact absurd hdev (by rw [hown.not_resolved hk]; decide)
    refine ⟨hk.trans (congrArg _ hmountable.symm), .inl (hmountpoint.trans hmountable.symm),
      kernel.block q.device, by rw [hmountable, hblock], fun k1 hk1 hne hb => hne ?_,
      fun p hp => ?_⟩
    · rw [hmountable]
      refine hfaithful.distinct k1 q.mountable _ ?_ ?_ ((hblock' k1).trans hb)
        ((hblock' q.mountable).trans hblock)
      · rw [hguest]
        exact (mem_insert _).mpr (.inr hk1)
      · exact lookup_isSome.mp (by rw [hentry]; rfl)
    · rw [hmountable, hprepared.unmounted] at hp
      cases hp
  · obtain ⟨hk, hmountpoint, hother⟩ := hfine h
    refine ⟨(htidy' h).faithful, q.mountable, hprepared.resolved, ?_, ?_⟩
    · exact Undone.of_selected hsound ((htidy' h).selected hentry (.inl hmountpoint.symm))
        ((hblock' _).trans hblock) htop
    · exact Undone.of_selected hsound ((htidy' h).selected hentry (.inl hk.symm))
        ((hblock' _).trans hblock) htop

theorem mount_step (hadds : call.Adds kernel) (hrun : call.run tools s = .ok () s') :
    Decided tools kernel order base s s' (.mount call) := by
  cases MountCall.run_outcome hsound hadds hrun with
  | fresh q s₁ hprepared hrecorded => exact fresh_step hsound htidy hprepared hrecorded
  | again k q hresolved hentry hguest hmounts htop =>
    have hsame : SameTable kernel s s' :=
      ⟨fun _ => by rw [hguest], by rw [hguest], fun _ => by rw [hguest], by rw [hguest]⟩
    exact standing_step hsound htidy hresolved hentry hsame (again_stands hmounts htop k)
  | anew k q b device rest hresolved hentry hguest hsource hbefore hafter htop htop' =>
    exact standing_step hsound htidy hresolved hentry
      (sameTable_of_anew hentry (htidy.entries k q hentry).1 hguest)
      (anew_stands hsource hbefore hafter htop htop')
  | nothing hsame hunnamed =>
    subst hsame
    refine ⟨⟨fun ⟨_, k, hk, hmp, _⟩ => ?_, fun ⟨hself, _, b, hblock, _⟩ => ?_⟩, fun _ => htidy⟩
    · obtain ⟨p, _, hselected, -⟩ := hmp.selected
      have hentry := (Guestfs.toUnmount_eq_singleton_iff.mp hselected).1.1
      rw [(hunnamed k hk).1] at hentry
      cases hentry
    · obtain ⟨-, e, hdevice⟩ := hunnamed _ hself
      rw [Kernel.blockOf, hdevice] at hblock
      cases hblock

theorem step {call : TableCall}
    (hadds : call.Adds kernel) (hrun : call.run tools order s = .ok () s') :
    Decided tools kernel order base s s' call := by
  cases call with
  | mount call => exact mount_step hsound htidy hadds hrun
  | umount x => exact umount_step hsound htidy hrun

end

theorem run_iff (hsound : kernel.Sound tools) (calls : List TableCall)
    (hadds : ∀ call ∈ calls, call.Adds kernel) (htidy : Tidy kernel base s) :
    AllKept tools kernel order base calls s ↔ AllFine tools kernel order calls s := by
  induction calls generalizing s with
  | nil => exact Iff.rfl
  | cons call calls ih =>
    refine forall_congr' fun s' => imp_congr_right fun hrun => ?_
    obtain ⟨hiff, htidy'⟩ := step hsound htidy (hadds call mem_cons_self) hrun
    have hrest := fun h => ih (fun call hmem => hadds call (mem_cons_of_mem _ hmem)) (htidy' h)
    constructor
    · rintro ⟨hkept, hcalls⟩
      exact ⟨hiff.mp hkept, (hrest (hiff.mp hkept)).mp hcalls⟩
    · rintro ⟨hfine, hcalls⟩
      exact ⟨hiff.mpr hfine, (hrest hfine).mpr hcalls⟩

end Steps

/-- From a handle without mounts, every sequence of calls keeps to the property just when each call
is fine in the state before it. -/
theorem allKept_iff_allFine {tools : Tools ε} {kernel : Kernel ε β}
    {order : HashOrder String String} {s : Session ε} {calls : List TableCall}
    (hsound : kernel.Sound tools) (hempty : s.guest.mounted = ∅) (hroot : s.guest.mountRoot = none)
    (hadds : ∀ call ∈ calls, call.Adds kernel) :
    AllKept tools kernel order (kernel.mounts s.machine) calls s ↔
      AllFine tools kernel order calls s := by
  have htidy : Tidy kernel (kernel.mounts s.machine) s := by
    refine ⟨fun root h => ?_, fun k p h => ?_, ?_, fun k k' b hk => ?_⟩
    · rw [hroot] at h
      cases h
    · rw [hempty] at h
      cases h
    · rw [tableBlocks, hempty]
      exact (Multiset.add_zero _).symm
    · rw [hempty] at hk
      exact absurd hk (notMem_empty k)
  exact run_iff hsound calls hadds htidy

/-! A host whose mounts are a stack of paths and devices. -/

def stackExec (argv : List String) (m : Machine (List (String × String))) :
    Except String ProcessOutput × Machine (List (String × String)) :=
  match argv with
  | ["mount", device, target] =>
    (.ok { success := true }, { m with outer := (target, device) :: m.outer })
  | ["mount", "-o", _, device, target] =>
    (.ok { success := true }, { m with outer := (target, device) :: m.outer })
  | ["umount", target] =>
    match m.outer.find? fun e => e.1 = target with
    | some e => (.ok { success := true }, { m with outer := m.outer.erase e })
    | none => (.ok { success := false }, m)
  | _ => (.ok { success := true }, m)

def stackTools : Tools (List (String × String)) where
  needSudo := false
  pid := 7
  fetchAdd u := (0, u)
  exec := stackExec
  query _ _ := .ok { success := false }
  vfsType _ _ _ := .ok "ext4"
  maybeExtractOva path m := (.ok path, m)
  shouldUseLoopDevice _ _ := false
  connectLoop _ m := (.error (.notFound "loop"), m)
  connectNbd _ m := (.error (.notFound "nbd"), m)
  readPartitions _ _ := .ok [1, 2]

def stackKernel : Kernel (List (String × String)) String where
  block := id
  mounts m := ↑(m.outer.map Prod.snd)
  top m target := (m.outer.find? fun e => e.1 = target.display).map Prod.snd
  adds args := args = [] ∨ ∃ opts ∈ Kernel.ownOptions, args = ["-o", opts]

theorem stackExec_mounts (argv : List String) (m : Machine (List (String × String))) :
    (stackExec argv m).2.outer = m.outer ∨
      (stackExec argv m).1 = .ok { success := true } := by
  unfold stackExec
  split
  · exact .inr rfl
  · exact .inr rfl
  · split
    · exact .inr rfl
    · exact .inl rfl
  · exact .inl rfl

theorem stackKernel_sound : stackKernel.Sound stackTools where
  adds_nil := .inl rfl
  adds_own opts hopts := .inr ⟨opts, hopts, rfl⟩
  mount {args device target m} hadds _ := by
    rcases hadds with rfl | ⟨opts, -, rfl⟩
    · exact ⟨rfl, by simp [stackKernel, Tools.run, stackTools, stackExec, Command.argv, sudoPrefix]⟩
    · exact ⟨rfl, by simp [stackKernel, Tools.run, stackTools, stackExec, Command.argv, sudoPrefix]⟩
  mount_failed {args device target m} hfailed := by
    rcases stackExec_mounts ((Command.mount args device target).argv false) m with hsame | hok
    · exact congrArg (fun l : List (String × String) => (↑(l.map Prod.snd) : Multiset String)) hsame
    · exact absurd ⟨_, hok, rfl⟩ hfailed
  umount {target m} hsucceeded := by
    have hrun : stackTools.run (.umount target) m =
        match m.outer.find? fun e => e.1 = target.display with
        | some e => (.ok { success := true }, { m with outer := m.outer.erase e })
        | none => (.ok { success := false }, m) := rfl
    obtain ⟨output, hout, htrue⟩ := hsucceeded
    cases hfind : m.outer.find? fun e => e.1 = target.display with
    | none =>
      rw [hrun, hfind] at hout
      cases hout
      cases htrue
    | some e =>
      rw [hrun, hfind]
      refine ⟨e.2, congrArg (Option.map Prod.snd) hfind, ?_⟩
      exact Multiset.coe_eq_coe.mpr
        ((perm_cons_erase (mem_of_find?_eq_some hfind)).map Prod.snd)
  remount := ⟨rfl, rfl⟩
  files := rfl
  counter := rfl
  findmnt _ hask hsuccess := by
    cases hask
    cases hsuccess

def launchedAlone : Session (List (String × String)) where
  guest :=
    { state := .ready
      drives := [⟨"disk.img", true, none⟩]
      nbdDevice := some ⟨"/dev/nbd0", some "disk.img"⟩ }
  machine := ⟨[], Tree.ofList [(["run"], .dir)]⟩

theorem launchedAlone_kept :
    stackKernel.Sound stackTools ∧
    AllFine stackTools stackKernel .newestFirst
      [.mount (.mountRo "/dev/sda1" "/dev/sda1"), .umount "/dev/sda1"] launchedAlone ∧
    AllKept stackTools stackKernel .newestFirst 0
      [.mount (.mountRo "/dev/sda1" "/dev/sda1"), .umount "/dev/sda1"] launchedAlone := by
  have hmounted : Returns (fun _ s' =>
      s'.guest.mounted.entries = [⟨"/dev/sda1", "/run/guestkit-7-0/dev/sda1"⟩] ∧
      s'.machine.outer = [("/run/guestkit-7-0/dev/sda1", "/dev/nbd0p1")] ∧
      (s'.guest.devicePartition "/dev/sda1").toOption = some "/dev/nbd0p1")
      (MountCall.run stackTools (.mountRo "/dev/sda1" "/dev/sda1") launchedAlone) := by
    decide +kernel
  have hfine : AllFine stackTools stackKernel .newestFirst
      [.mount (.mountRo "/dev/sda1" "/dev/sda1"), .umount "/dev/sda1"] launchedAlone := by
    intro s₁ hrun
    change MountCall.run stackTools (.mountRo "/dev/sda1" "/dev/sda1") launchedAlone = _ at hrun
    rw [hrun] at hmounted
    obtain ⟨hentries, houter, hdevice⟩ := hmounted
    refine ⟨⟨rfl, .inl rfl, "/dev/nbd0p1", rfl, fun k hk => ?_, nofun⟩,
      fun s₂ _ => ⟨fun k p hentry _ => ?_, trivial⟩⟩
    · exact absurd hk (notMem_empty k)
    · have hmem : (⟨k, p⟩ : Sigma fun _ : String => String) ∈ s₁.guest.mounted.entries :=
        mem_lookup_iff.mp hentry
      rw [hentries, mem_singleton] at hmem
      cases hmem
      have hblock : stackKernel.blockOf s₁.guest "/dev/sda1" = some "/dev/nbd0p1" := by
        unfold Kernel.blockOf
        cases hpartition : s₁.guest.devicePartition "/dev/sda1" with
        | ok device =>
          rw [hpartition] at hdevice
          exact hdevice
        | error e =>
          rw [hpartition] at hdevice
          cases hdevice
      rw [hblock]
      change (s₁.machine.outer.find? _).map Prod.snd = _
      rw [houter]
      decide +kernel
  exact ⟨stackKernel_sound, hfine, (allKept_iff_allFine stackKernel_sound rfl rfl
    (by simp [Adds, MountCall.Adds])).mpr hfine⟩

theorem launchedAlone_boot :
    stackKernel.Sound stackTools ∧
    ¬AllKept stackTools stackKernel .newestFirst 0 [.mount (.mountRo "/dev/sda1" "/boot")]
      launchedAlone := by
  have hnone : Returns (fun _ s' => toUnmount .newestFirst s'.guest "/boot" = [])
      (MountCall.run stackTools (.mountRo "/dev/sda1" "/boot") launchedAlone) := by
    decide +kernel
  refine ⟨stackKernel_sound, fun hkept => ?_⟩
  obtain ⟨_, s₁, hrun, hnone⟩ := hnone.exists
  obtain ⟨⟨-, k, -, hundone, -⟩, -⟩ := hkept s₁ hrun
  obtain ⟨p, b, hselected, -⟩ := hundone.selected
  exact absurd (hnone.symm.trans hselected) (cons_ne_nil _ _).symm

end TableCall

end Guestkit

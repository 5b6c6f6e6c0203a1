import Guestkit.Guestfs.DeviceActs
import Guestkit.Guestfs.MountInside

/-! Mounts of a read-only drive: which of their commands ask for a read-only mount, whatever the
options of the calls are. -/

namespace Guestkit

open Lib Lib.Fs Lib.Text Guestfs List

variable {ε : Type}

/-- The option `ro` is there and no later `rw` takes it back. -/
def EndsRo (options : List String) : Prop :=
  ∃ before after, options = before ++ "ro" :: after ∧ "rw" ∉ after

def optionList : List String → List String
  | flag :: value :: args =>
    if flag = "-o" then split ',' value ++ optionList args else optionList (value :: args)
  | _ => []

def Command.CarriesRo : Command → Prop
  | .mount args _ _ => EndsRo (optionList args)
  | .remount _ => EndsRo (optionList ["-o", "remount,rw"])
  | _ => True

theorem EndsRo.requestsRo {options : String} (h : EndsRo (split ',' options)) :
    requestsRo options = true := by
  obtain ⟨before, after, hsplit, -⟩ := h
  rw [Guestfs.requestsRo, hsplit, any_append, any_cons]
  have htrim : decide (trim "ro" = "ro") = true := by decide +kernel
  rw [htrim, Bool.true_or, Bool.or_true]

theorem ne_empty_of_contains {options : String} (h : contains options "ro" = true) :
    options ≠ "" := by
  rintro rfl
  exact absurd h (by decide +kernel)

theorem optionArgs_of_contains {options : String} (h : contains options "ro" = true) :
    optionArgs options = ["-o", options] :=
  if_neg (ne_empty_of_contains h)

theorem optionList_vfs (options vfstype : String) :
    optionList (["-o", options] ++ if vfstype = "" then [] else ["-t", vfstype]) =
      split ',' options := by
  by_cases hnone : vfstype = ""
  · rw [if_pos hnone]
    exact append_nil _
  · rw [if_neg hnone]
    exact append_nil _

/-- The handle keeps its drives, and the commands it ran have the property `P`. -/
structure Issues (P : Command → Prop) (s s' : Session ε) : Prop where
  drives : s'.guest.drives = s.guest.drives
  log : ∃ new, s'.log = new ++ s.log ∧ ∀ c m, .ran c m ∈ new → P c

namespace Issues

variable {P : Command → Prop} {s s' : Session ε}

theorem same (hdrives : s'.guest.drives = s.guest.drives) (hlog : s'.log = s.log) :
    Issues P s s' :=
  ⟨hdrives, [], hlog, fun _ _ h => absurd h not_mem_nil⟩

theorem refl (s : Session ε) : Issues P s s := same rfl rfl

instance : IsTrans (Session ε) (Issues P) := by
  refine ⟨fun s s' s'' h h' => ?_⟩
  obtain ⟨new, hlog, hnew⟩ := h.log
  obtain ⟨new', hlog', hnew'⟩ := h'.log
  refine ⟨h'.drives.trans h.drives, new' ++ new, ?_, fun c m hmem => ?_⟩
  · rw [hlog', hlog, append_assoc]
  · exact (mem_append.mp hmem).elim (hnew' c m) (hnew c m)

theorem of_ran (h : Issues P s s') {c : Command} {m : Machine ε}
    (hran : .ran c m ∈ newEvents s s') : P c := by
  obtain ⟨new, hlog, hnew⟩ := h.log
  rw [newEvents_eq hlog] at hran
  exact hnew c m hran

end Issues

namespace Guestfs

section Commands

variable {tools : Tools ε} {P : Command → Prop}

theorem orThrow_issues {α : Type} (r : Except Error α) :
    Always (Issues P) (orThrow r : GuestM ε α) := by
  cases r with
  | ok a => exact Issues.refl
  | error e => exact Issues.refl

theorem issues_covers : Covers tools P (Issues P) where
  refl := Issues.refl
  ran c s hc := by
    refine ⟨rfl, [.ran c s.machine], rfl, fun c' m' hmem => ?_⟩
    cases mem_singleton.mp hmem
    exact hc
  noted _ _ := Issues.same rfl rfl

theorem ensureMountRoot_issues : Always (Issues P) (ensureMountRoot tools) := by
  intro s
  rcases ensureMountRoot_cases tools s with ⟨root, s1, hrun, -, hguest, hlog⟩ |
    ⟨s1, hrun, -, hguest, hlog⟩
  · rw [hrun]
    exact Issues.same (by rw [stateOf, hguest]) hlog
  · rw [hrun]
    exact Issues.same (by rw [stateOf, hguest]) hlog

theorem createMountpoint_issues (target : Path) :
    Always (Issues P) (createMountpoint target : GuestM ε Unit) := by
  intro s
  have hmade : ∀ t, Issues P s { s with
      machine := { s.machine with tree := t }
      log := .made target s.machine.tree t :: s.log } :=
    fun t => ⟨rfl, [.made target s.machine.tree t], rfl, by simp⟩
  unfold createMountpoint
  dsimp only
  split
  · exact hmade _
  · exact hmade _

theorem prepareMount_issues (mountable mountpoint : String) :
    Always (Issues P) (prepareMount tools mountable mountpoint) := by
  refine Always.get_bind fun s0 => ?_
  refine (orThrow_issues _).bind fun _ => ?_
  refine (orThrow_issues _).bind fun resolved => ?_
  split
  · exact Issues.refl
  · refine (orThrow_issues _).bind fun device => ?_
    refine ensureMountRoot_issues.bind fun root => ?_
    exact (createMountpoint_issues _).bind fun _ => Issues.refl

theorem withPrepared_issues {mountable mountpoint : String} {ifMounted : GuestM ε Unit}
    {next : Prepared → GuestM ε Unit} (hif : Always (Issues P) ifMounted)
    (hnext : ∀ p, Always (Issues P) (next p)) :
    Always (Issues P) (withPrepared tools mountable mountpoint ifMounted next) := by
  refine Always.bind ?_ fun prepared => ?_
  · exact .tryCatch (.bind (prepareMount_issues _ _) fun _ => Issues.refl) fun _ => Issues.refl
  · cases prepared with
    | ok p => exact hnext p
    | error e =>
      dsimp only
      split
      · exact hif
      · exact Issues.refl

end Commands

def FirstReadonly (g : Guestfs) : Prop := ∃ drive rest, g.drives = drive :: rest ∧ drive.readonly

theorem checkWritable_readonly {s : Session ε} (h : s.guest.FirstReadonly) :
    checkWritable false s =
      .error (.permissionDenied "Cannot mount read-write on read-only drive") s := by
  obtain ⟨drive, rest, hdrives, hro⟩ := h
  rw [checkWritable, get_bind, hdrives]
  dsimp only
  rw [if_pos ⟨hro, rfl⟩]
  rfl

theorem checkWritable_allowed (s : Session ε) : checkWritable true s = .ok () s := by
  rw [checkWritable, get_bind]
  cases s.guest.drives with
  | nil => rfl
  | cons drive rest =>
    dsimp only
    rw [if_neg (by simp)]
    rfl

theorem roOptions_endsRo (fsType : String) :
    ∀ opts ∈ roOptions fsType :: roFallbacks fsType, EndsRo (optionList ["-o", opts]) := by
  have hall : ∀ opts ∈ ["ro,noload", "ro,norecovery,nouuid", "ro", "ro,norecovery"],
      optionList ["-o", opts] = "ro" :: (optionList ["-o", opts]).drop 1 ∧
        "rw" ∉ (optionList ["-o", opts]).drop 1 := by decide +kernel
  intro opts hopts
  obtain ⟨hlist, hnot⟩ := hall opts (by
    rcases mem_cons.mp hopts with rfl | hopts
    · unfold roOptions
      split
      · simp
      · split <;> simp
    · unfold roFallbacks at hopts
      split at hopts
      · simp_all
      · split at hopts
        · simp_all
        · simp only [mem_cons, not_mem_nil, or_false] at hopts ⊢
          tauto)
  exact ⟨[], _, hlist, hnot⟩

end Guestfs

namespace MountCall

def options : MountCall → Option String
  | .mountOptions options _ _ => some options
  | .mountVfs options _ _ _ => some options
  | _ => none

def AsksRo : MountCall → Prop
  | .mountRo _ _ => True
  | .mount _ _ => False
  | .mountOptions options _ _ => EndsRo (split ',' options)
  | .mountVfs options _ _ _ => EndsRo (split ',' options)

/-- Every command of a call asks for a read-only mount, and a call that does not ask for one fails
without a command. -/
structure Obeys (tools : Tools ε) (call : MountCall) (s : Session ε) : Prop where
  carries : ∀ c m, .ran c m ∈ newEvents s (stateOf (call.run tools s)) → c.CarriesRo
  refused : ¬call.AsksRo → (∃ e s', call.run tools s = .error e s') ∧
    ∀ c m, .ran c m ∉ newEvents s (stateOf (call.run tools s))

def AllObey (tools : Tools ε) : List MountCall → Session ε → Prop
  | [], _ => True
  | call :: calls, s => Obeys tools call s ∧ AllObey tools calls (stateOf (call.run tools s))

def Plain (call : MountCall) : Prop :=
  ∀ o, call.options = some o → contains o "ro" = true → EndsRo (split ',' o)

section Obeying

variable {tools : Tools ε} {s : Session ε} {call : MountCall}

def Steady (tools : Tools ε) (call : MountCall) (s : Session ε) : Prop :=
  Obeys tools call s ∧ (stateOf (call.run tools s)).guest.drives = s.guest.drives

theorem steady_of_issues (hasks : call.AsksRo)
    (h : Issues Command.CarriesRo s (stateOf (call.run tools s))) : Steady tools call s :=
  ⟨⟨fun _ _ => h.of_ran, fun hnot => absurd hasks hnot⟩, h.drives⟩

theorem steady_of_error (h : ∃ e, call.run tools s = .error e s) : Steady tools call s := by
  obtain ⟨e, h⟩ := h
  have hnone : ∀ c m, .ran c m ∉ newEvents s (stateOf (call.run tools s)) := by
    intro c m
    have hsame : newEvents s (stateOf (call.run tools s)) = [] := by
      rw [h]
      exact newEvents_eq rfl
    rw [hsame]
    exact not_mem_nil
  exact ⟨⟨fun c m hran => absurd hran (hnone c m), fun _ => ⟨⟨e, s, h⟩, hnone⟩⟩, by rw [h]; rfl⟩

/-- A call that comes to the check of the drive with its options: they have no `ro` and it is
refused, or they ask for a read-only mount. -/
theorem steady_of_check {options mountable mountpoint : String} {args : List String}
    (h : s.guest.FirstReadonly)
    (hplain : contains options "ro" = true → EndsRo (split ',' options))
    (hasks : EndsRo (split ',' options) → call.AsksRo)
    (hargs : contains options "ro" = true → optionList args = split ',' options)
    (hrun : call.run tools s =
      (do
        checkWritable (contains options "ro")
        withPrepared tools mountable mountpoint
          (ifMounted tools options mountable)
          (mountPrepared tools args)) s) :
    Steady tools call s := by
  cases hro : contains options "ro" with
  | false =>
    rw [hro] at hrun
    exact steady_of_error ⟨_, hrun.trans (bind_of_error (checkWritable_readonly h))⟩
  | true =>
    have hends := hplain hro
    rw [hro, bind_of_ok (checkWritable_allowed s)] at hrun
    refine steady_of_issues (hasks hends) ?_
    rw [hrun]
    refine withPrepared_issues ?_ (fun p => issues_covers.mountPrepared ?_) s
    · rw [ifMounted, if_pos hends.requestsRo]
      exact Issues.refl
    · change EndsRo (optionList args)
      rw [hargs hro]
      exact hends

theorem mountOptions_steady {options mountable mountpoint : String} (h : s.guest.FirstReadonly)
    (hplain : contains options "ro" = true → EndsRo (split ',' options)) :
    Steady tools (.mountOptions options mountable mountpoint) s := by
  have hrun : MountCall.run tools (.mountOptions options mountable mountpoint) =
      Guestfs.mountOptions tools options mountable mountpoint := rfl
  cases hdangerous : dangerousOption options with
  | some opt =>
    rw [Guestfs.mountOptions, hdangerous] at hrun
    exact steady_of_error ⟨_, congrFun hrun s⟩
  | none =>
    rw [Guestfs.mountOptions, hdangerous] at hrun
    refine steady_of_check h hplain id (fun hro => ?_) (congrFun hrun s)
    rw [optionArgs_of_contains hro]
    exact append_nil _

theorem mountVfs_steady {options vfstype mountable mountpoint : String}
    (h : s.guest.FirstReadonly)
    (hplain : contains options "ro" = true → EndsRo (split ',' options)) :
    Steady tools (.mountVfs options vfstype mountable mountpoint) s := by
  have hrun : MountCall.run tools (.mountVfs options vfstype mountable mountpoint) s =
      Guestfs.mountVfs tools options vfstype mountable mountpoint s := rfl
  rw [Guestfs.mountVfs, get_bind] at hrun
  cases hready : s.guest.ensureReady with
  | error e =>
    rw [hready, orThrow_error_bind] at hrun
    exact steady_of_error ⟨e, hrun⟩
  | ok u =>
    rw [hready, orThrow_ok_bind] at hrun
    split at hrun
    · exact steady_of_error ⟨_, hrun⟩
    · refine steady_of_check h hplain id (fun hro => ?_) hrun
      rw [optionArgs_of_contains hro]
      exact optionList_vfs options vfstype

theorem run_steady (h : s.guest.FirstReadonly) (hplain : call.Plain) : Steady tools call s := by
  cases call with
  | mountRo mountable mountpoint =>
    refine steady_of_issues trivial (withPrepared_issues ?_ (fun p => ?_) s)
    · exact Issues.refl
    · exact issues_covers.mountRoPrepared roOptions_endsRo
  | mount mountable mountpoint =>
    exact steady_of_error ⟨_, bind_of_error (checkWritable_readonly h)⟩
  | mountOptions options mountable mountpoint => exact mountOptions_steady h (hplain options rfl)
  | mountVfs options vfstype mountable mountpoint => exact mountVfs_steady h (hplain options rfl)

theorem allObey (calls : List MountCall) (s : Session ε) (h : s.guest.FirstReadonly)
    (hplain : ∀ call ∈ calls, call.Plain) : AllObey tools calls s := by
  induction calls generalizing s with
  | nil => trivial
  | cons call calls ih =>
    obtain ⟨hobeys, hdrives⟩ := run_steady h (hplain call (by simp))
    refine ⟨hobeys, ih _ ?_ fun c hc => hplain c (mem_cons_of_mem call hc)⟩
    unfold FirstReadonly
    rw [hdrives]
    exact h

end Obeying

theorem launched_readonly : launched.guest.FirstReadonly := ⟨_, [], rfl, rfl⟩

/-- Options with the letters of `ro` and without the option are handed on to `mount`. -/
theorem launched_disobeys {options : String} (hro : contains options "ro" = true)
    (hends : ¬EndsRo (split ',' options)) :
    ¬Obeys idleTools (.mountVfs options "" "/dev/sda1" "/") launched := by
  intro hobeys
  have hprepared : Returns (fun _ _ => True)
      (prepareMount idleTools "/dev/sda1" "/" launched) := by decide +kernel
  obtain ⟨p, s1, hprepared, -⟩ := hprepared.exists
  have hrun : MountCall.run idleTools (.mountVfs options "" "/dev/sda1" "/") launched =
      mountPrepared idleTools ["-o", options] p s1 := by
    change Guestfs.mountVfs idleTools options "" "/dev/sda1" "/" launched = _
    rw [Guestfs.mountVfs, get_bind]
    change (do
      checkWritable (contains options "ro")
      withPrepared idleTools "/dev/sda1" "/" (ifMounted idleTools options "/dev/sda1")
        (mountPrepared idleTools (optionArgs options ++ []))) launched = _
    rw [hro, bind_of_ok (checkWritable_allowed launched), withPrepared_ok hprepared,
      optionArgs_of_contains hro]
    rfl
  have hran : .ran (.mount ["-o", options] p.device p.target) s1.machine ∈
      newEvents launched (stateOf (MountCall.run idleTools
        (.mountVfs options "" "/dev/sda1" "/") launched)) := by
    rw [hrun]
    exact mem_of_mem_head? rfl
  have hcarries : EndsRo (split ',' options ++ []) := hobeys.carries _ _ hran
  rw [append_nil] at hcarries
  exact hends hcarries

/-- Every run on a read-only drive obeys just when the options that its calls are given have the
letters of `ro` only with the option. -/
theorem allObey_iff (allowed : String → Prop) :
    (∀ (ε : Type) (tools : Tools ε) (s : Session ε) (calls : List MountCall),
      s.guest.FirstReadonly → (∀ call ∈ calls, ∀ o, call.options = some o → allowed o) →
        AllObey tools calls s) ↔
    ∀ o, allowed o → contains o "ro" = true → EndsRo (split ',' o) := by
  constructor
  · intro hall o ho hro
    refine Classical.byContradiction fun hends => ?_
    have hrun := hall Unit idleTools launched [.mountVfs o "" "/dev/sda1" "/"] launched_readonly
      (by simpa [options] using ho)
    exact launched_disobeys hro hends hrun.1
  · intro hplain ε tools s calls hfirst hallowed
    exact allObey calls s hfirst fun call hcall o ho => hplain o (hallowed call hcall o ho)

/-- An option that only ends with `ro` mounts the drive for writing. -/
theorem launched_remount_ro :
    launched.guest.FirstReadonly ∧
      ¬AllObey idleTools [.mountVfs "errors=remount-ro" "" "/dev/sda1" "/"] launched := by
  refine ⟨launched_readonly, fun h => launched_disobeys ?_ ?_ h.1⟩
  · decide +kernel
  · rintro ⟨before, after, hsplit, -⟩
    have hnot : "ro" ∉ split ',' "errors=remount-ro" := by decide +kernel
    exact hnot (by rw [hsplit]; simp)

end MountCall

end Guestkit

import Guestkit.Guestfs.Mount
import Guestkit.Lib.Hoare

/-! How the preparation of a mount ends: it fails before the mountpoint is made, or it comes to that
with a mount root and the device for the name. -/

namespace Guestkit.Guestfs

open Lib Lib.Fs

variable {ε : Type} {tools : Tools ε}

theorem orThrow_ok_bind {α β : Type} (a : α) (f : α → GuestM ε β) (s : Session ε) :
    (orThrow (.ok a) >>= f) s = f a s := rfl

theorem orThrow_error_bind {α β : Type} (e : Error) (f : α → GuestM ε β) (s : Session ε) :
    (orThrow (.error e) >>= f) s = .error e s := rfl

theorem orThrow_bind_eq_ok {α β : Type} {r : Except Error α} {f : α → GuestM ε β} {b : β}
    {s s' : Session ε} (h : (orThrow r >>= f) s = .ok b s') :
    ∃ a, r = .ok a ∧ f a s = .ok b s' := by
  cases r with
  | ok a => exact ⟨a, rfl, h⟩
  | error e => cases h

def ran (tools : Tools ε) (c : Command) (s : Session ε) : Session ε :=
  { s with machine := (tools.run c s.machine).2, log := .ran c s.machine :: s.log }

theorem runCommand_bind {α : Type} (c : Command) (f : Except String ProcessOutput → GuestM ε α)
    (s : Session ε) : (runCommand tools c >>= f) s = f (tools.run c s.machine).1 (ran tools c s) :=
  rfl

def mountRootAt (tools : Tools ε) (s : Session ε) : Option (Path × Tree) :=
  match s.guest.mountRoot with
  | some root => some (root, s.machine.tree)
  | none =>
    match createMountRootIn tools.pid (tools.fetchAdd s.machine.outer).1 s.machine.tree with
    | .ok (some root) t => some (root, t)
    | _ => none

def noMountRoot : Error := .commandFailed "Failed to create mount root under /run or /tmp"

theorem createMountRoot_cases (tools : Tools ε) (s : Session ε) :
    (∃ root m, createMountRoot tools s = .ok root { s with machine := m } ∧
      createMountRootIn tools.pid (tools.fetchAdd s.machine.outer).1 s.machine.tree =
        .ok (some root) m.tree) ∨
    ∃ m, createMountRoot tools s = .error noMountRoot { s with machine := m } := by
  unfold createMountRoot
  dsimp only
  split
  · rename_i root t hcreate
    exact .inl ⟨root, ⟨_, t⟩, rfl, hcreate⟩
  · exact .inr ⟨_, rfl⟩
  · exact .inr ⟨_, rfl⟩

theorem ensureMountRoot_cases (tools : Tools ε) (s : Session ε) :
    (∃ root s1, ensureMountRoot tools s = .ok root s1 ∧
      mountRootAt tools s = some (root, s1.machine.tree) ∧
      s1.guest = { s.guest with mountRoot := some root } ∧ s1.log = s.log) ∨
    ∃ s1, ensureMountRoot tools s = .error noMountRoot s1 ∧ s.guest.mountRoot = none ∧
      s1.guest = s.guest ∧ s1.log = s.log := by
  unfold ensureMountRoot mountRootAt
  rw [get_bind]
  cases hroot : s.guest.mountRoot with
  | some root => exact .inl ⟨root, s, rfl, rfl, by rw [← hroot], rfl⟩
  | none =>
    dsimp only
    rcases createMountRoot_cases tools s with ⟨root, m, hrun, hcreate⟩ | ⟨m, hrun⟩
    · refine .inl ⟨root, _, bind_of_ok hrun, ?_, rfl, rfl⟩
      rw [hcreate]
    · exact .inr ⟨_, bind_of_error hrun, rfl, rfl, rfl⟩

theorem prepareMount_mounted {mountable mountpoint resolved : String} {s : Session ε}
    (hready : s.guest.ensureReady = .ok ())
    (hresolve : resolveMountable tools s.guest s.machine mountable = .ok resolved)
    (hmounted : (s.guest.mounted.lookup resolved).isSome) :
    prepareMount tools mountable mountpoint s = .error (.invalidState "already_mounted") s := by
  rw [prepareMount, get_bind, hready, orThrow_ok_bind, hresolve, orThrow_ok_bind, if_pos hmounted]
  rfl

/-- A preparation fails at once, or without a mount root, or comes to making the mountpoint. -/
theorem prepareMount_cases (tools : Tools ε) (mountable mountpoint : String) (s : Session ε) :
    (∃ e, prepareMount tools mountable mountpoint s = .error e s) ∨
    (∃ s1, prepareMount tools mountable mountpoint s = .error noMountRoot s1 ∧ s1.log = s.log ∧
      s1.guest = s.guest ∧ s.guest.mountRoot = none) ∨
    ∃ root s1 resolved device, mountRootAt tools s = some (root, s1.machine.tree) ∧
      s1.guest = { s.guest with mountRoot := some root } ∧ s1.log = s.log ∧
      resolveMountable tools s.guest s.machine mountable = .ok resolved ∧
      s.guest.devicePartition resolved = .ok device ∧
      prepareMount tools mountable mountpoint s =
        (do
          createMountpoint (actualMountpoint root mountpoint)
          pure ⟨resolved, device, actualMountpoint root mountpoint⟩ : GuestM ε Prepared) s1 := by
  unfold prepareMount
  rw [get_bind]
  cases s.guest.ensureReady with
  | error e => exact .inl ⟨e, orThrow_error_bind _ _ s⟩
  | ok u =>
    rw [orThrow_ok_bind]
    cases resolveMountable tools s.guest s.machine mountable with
    | error e => exact .inl ⟨e, orThrow_error_bind _ _ s⟩
    | ok resolved =>
      rw [orThrow_ok_bind]
      by_cases hmounted : (s.guest.mounted.lookup resolved).isSome
      · rw [if_pos hmounted]
        exact .inl ⟨_, rfl⟩
      · rw [if_neg hmounted]
        cases hdevice : s.guest.devicePartition resolved with
        | error e => exact .inl ⟨e, orThrow_error_bind _ _ s⟩
        | ok device =>
          rw [orThrow_ok_bind]
          rcases ensureMountRoot_cases tools s with
            ⟨root, s1, hok, hat, hguest, hlog⟩ | ⟨s1, herror, hnone, hguest, hlog⟩
          · exact .inr (.inr ⟨root, s1, resolved, device, hat, hguest, hlog, rfl, hdevice,
              bind_of_ok hok⟩)
          · exact .inr (.inl ⟨s1, bind_of_error herror, hlog, hguest, hnone⟩)

theorem checkWritable_state (allowed : Bool) (s : Session ε) :
    stateOf (checkWritable allowed s) = s := by
  unfold checkWritable
  rw [get_bind]
  cases s.guest.drives with
  | nil => rfl
  | cons drive drives =>
    dsimp only
    split <;> rfl

section WithPrepared

variable {mountable mountpoint : String} {ifMounted : GuestM ε Unit}
  {next : Prepared → GuestM ε Unit} {s s1 : Session ε}

theorem withPrepared_error {e : Error}
    (h : prepareMount tools mountable mountpoint s = .error e s1) :
    withPrepared tools mountable mountpoint ifMounted next s =
      (if Text.contains e.message "already_mounted" then ifMounted
        else throw e : GuestM ε Unit) s1 := by
  rw [withPrepared, bind_of_ok (tryCatch_of_error
    (f := fun e => pure (.error e : Except Error Prepared)) (bind_of_error h))]

theorem withPrepared_ok {p : Prepared}
    (h : prepareMount tools mountable mountpoint s = .ok p s1) :
    withPrepared tools mountable mountpoint ifMounted next s = next p s1 := by
  rw [withPrepared, bind_of_ok (tryCatch_of_ok
    (bind_of_ok (f := fun p => pure (.ok p : Except Error Prepared)) h))]

end WithPrepared

/-- A relation that holds between the states before and after a command with `P`, and does not
depend on the mounts that a handle notes. -/
structure Covers (tools : Tools ε) (P : Command → Prop) (R : Session ε → Session ε → Prop) : Prop
    extends IsTrans (Session ε) R where
  refl : ∀ s, R s s
  ran : ∀ c s, P c → R s (ran tools c s)
  noted : ∀ s mounted, R s { s with guest := { s.guest with mounted := mounted } }

namespace Covers

variable {P : Command → Prop} {R : Session ε → Session ε → Prop} (h : Covers tools P R)
include h

theorem execute {c : Command} (hc : P c) (failure : String) :
    Always R (execute tools c failure) := by
  have := h.toIsTrans
  refine Always.bind (fun s => h.ran c s hc) fun r => ?_
  cases r <;> exact h.refl

theorem recordMount (mountable : String) (path : Path) :
    Always R (recordMount mountable path : GuestM ε Unit) := fun s => h.noted s _

variable {p : Prepared}

theorem mountPrepared {args : List String} (hc : P (.mount args p.device p.target)) :
    Always R (mountPrepared tools args p) := by
  have := h.toIsTrans
  refine (h.execute hc _).bind fun output => ?_
  split
  · exact h.recordMount _ _
  · exact h.refl

theorem tryOptions {options : List String}
    (hc : ∀ opts ∈ options, P (.mount ["-o", opts] p.device p.target)) :
    Always R (tryOptions tools p options) := by
  have := h.toIsTrans
  induction options with
  | nil => exact h.refl
  | cons opts rest ih =>
    have hrest := ih fun o ho => hc o (List.mem_cons_of_mem opts ho)
    refine Always.bind (fun s => h.ran _ s (hc opts List.mem_cons_self)) fun r => ?_
    cases r with
    | error e => exact hrest
    | ok output =>
      dsimp only
      split
      · exact h.refl
      · exact hrest

theorem mountRoPrepared (hc : ∀ fsType, ∀ opts ∈ roOptions fsType :: roFallbacks fsType,
      P (.mount ["-o", opts] p.device p.target)) :
    Always R (mountRoPrepared tools p) := by
  have := h.toIsTrans
  refine Always.get_bind fun s0 => ?_
  have hopts := hc (fsTypeOr tools s0.guest s0.machine p.mountable)
  refine (h.execute (hopts _ List.mem_cons_self) _).bind fun output => ?_
  split
  · exact h.recordMount _ _
  · refine (h.tryOptions fun opts ho => hopts opts (List.mem_cons_of_mem _ ho)).bind fun _ => ?_
    split
    · exact h.recordMount _ _
    · exact h.refl

end Covers

end Guestkit.Guestfs

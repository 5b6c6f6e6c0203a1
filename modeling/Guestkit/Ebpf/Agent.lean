import Guestkit.Ebpf.Loader

/-! The agent's requests for the policies of containers.  The agent keeps an entry for each target
by its text, and the maps of the kernel hold the policies by cgroup. -/

namespace Guestkit.Ebpf

open Lib Lib.Fs Lib.Text

structure Target where
  container : Option String
  cgroup : Option String
  deriving DecidableEq

structure NetRuleSpec where
  direction : String
  cidr : String
  proto : Option String
  port : Option (BitVec 16)
  deriving DecidableEq

structure NetSpec where
  egress : Bool
  ingress : Bool
  rules : List NetRuleSpec
  deriving DecidableEq

structure NetpolicyApply where
  target : Target
  mode : String
  leaseSecs : Option Nat
  spec : NetSpec

inductive Mode where
  | off
  | audit
  | enforce (leaseSecs : Nat)
  deriving DecidableEq

def maxLeaseSecs : Nat := 3600

def enforceMode (leaseSecs : Option Nat) : Except String Mode :=
  match leaseSecs with
  | none => .error "enforce needs lease_secs (1..=3600)"
  | some s =>
    if 1 ≤ s ∧ s ≤ maxLeaseSecs then .ok (.enforce s)
    else .error "lease_secs must be 1..=3600"

def parseMode (mode : String) (leaseSecs : Option Nat) : Except String Mode :=
  match (trim mode).toLower with
  | "off" => .ok .off
  | "remove" => .ok .off
  | "audit" => .ok .audit
  | "observe" => .ok .audit
  | "enforce" => enforceMode leaseSecs
  | m => .error ("mode must be off, audit or enforce (got `" ++ m ++ "`)")

def cgroupRoot : String := "/sys/fs/cgroup"

def parseCgroupV2 (content : String) : Option String :=
  (lines content).findSome? fun l => (stripPrefix "0::" l).map trim

def cgroupDir (spec : String) : Except String Path :=
  let rel := trimStartMatches (· = '/') ((stripPrefix cgroupRoot spec).getD spec)
  if ".." ∈ split '/' spec then .error ("cgroup `" ++ spec ++ "`: `..` not allowed")
  else if rel = "" then .error "refusing to police the root cgroup"
  else .ok ((Path.ofString cgroupRoot).join (Path.ofString rel))

def targetKey (t : Target) : Except String String :=
  match t.container, t.cgroup with
  | some c, none =>
    if trim c ≠ "" then .ok ("container:" ++ trim c)
    else .error "missing target: pass container (name/id) or cgroup"
  | none, some g =>
    if trim g ≠ "" then do
      let dir ← cgroupDir (trim g)
      pure ("cgroup:" ++ dir.display)
    else .error "missing target: pass container (name/id) or cgroup"
  | some _, some _ => .error "pass either container or cgroup, not both"
  | none, none => .error "missing target: pass container (name/id) or cgroup"

structure Resolved where
  cgroup : Path
  ids : List Nat

/-- The machine during one request: whether the object can be loaded, the clock at the sweep and at
the lease, the containers and their processes, the cgroups, and the kernel. -/
structure CallEnv where
  load : Except String Unit
  sweepNs : Nat
  leaseNs : Nat
  containerPid : String → Option Nat
  procCgroup : Nat → Option String
  isDir : Path → Bool
  subtreeIds : Path → List Nat
  host : LoaderHost

section Calls

variable (env : CallEnv)

def containerCgroup (name : String) : Except String Path :=
  match env.containerPid name with
  | none => .error ("container `" ++ name ++ "` not found or not running")
  | some pid =>
    match (env.procCgroup pid).bind parseCgroupV2 with
    | none => .error ("container `" ++ name ++ "`: no cgroup v2 path for pid " ++ toString pid)
    | some cg => cgroupDir cg

def resolve (t : Target) : Except String Resolved := do
  let cgroup ← match t.container with
    | some name => containerCgroup env (trim name)
    | none => cgroupDir (trim (t.cgroup.getD ""))
  if env.isDir cgroup then pure ⟨cgroup, env.subtreeIds cgroup⟩
  else .error ("cgroup " ++ cgroup.display ++ " not found")

structure Entry where
  cgroup : Path
  ids : List Nat
  enforce : Bool
  deadline : Nat
  leaseExpired : Bool
  spec : NetSpec

/-- The object and the targets.  A new entry is put before the others, and a changed one keeps its
place, so the targets stand in the order in which they were last applied, newest first. -/
structure State where
  ebpf : GuestEbpf := {}
  np : HashMap String (Entry × NpPolicy) := ∅

abbrev AgentM := EStateM String State

def onEbpf {α : Type} (m : LoadM α) : AgentM α := fun s =>
  match m s.ebpf with
  | .ok a ebpf => .ok a { s with ebpf := ebpf }
  | .error e ebpf => .error e { s with ebpf := ebpf }

def ascending {β : Type} (m : HashMap String β) : List (String × β) :=
  (m.entries.map fun entry => (entry.1, entry.2)).mergeSort fun a b => a.1 ≤ b.1

def ignore (m : AgentM Unit) : AgentM Unit := tryCatch m fun _ => pure ()

def NpPolicy.expired (p : NpPolicy) : NpPolicy :=
  { p with flags := p.flags &&& ~~~npEnforce, deadlineNs := 0 }

def Entry.expired (e : Entry) : Entry :=
  { e with enforce := false, leaseExpired := true }

def Entry.Over (e : Entry) (nowNs : Nat) : Prop := e.enforce = true ∧ e.deadline ≤ nowNs

instance (e : Entry) (nowNs : Nat) : Decidable (e.Over nowNs) :=
  inferInstanceAs (Decidable (_ ∧ _))

def sweepNp (entry : String × Entry × NpPolicy) : AgentM Unit :=
  let (key, e, p) := entry
  if e.Over env.sweepNs then do
    ignore (onEbpf (GuestEbpf.npSetPolicy env.host e.ids p.expired))
    modify fun s => { s with np := s.np.replace key (e.expired, p.expired) }
  else pure ()

def sweep : AgentM Unit := do
  let s ← get
  (ascending s.np).forM (sweepNp env)

def withState {α : Type} (f : AgentM α) : EStateM String (Option State) α := fun g =>
  match g, env.load with
  | none, .error e => .error ("ebpf_unavailable: " ++ e) none
  | none, .ok () => start {}
  | some s, _ => start s
where
  start (s : State) : EStateM.Result String (Option State) α :=
    match (do sweep env; f) s with
    | .ok a s' => .ok a (some s')
    | .error e s' => .error e (some s')

def leaseDeadline : Mode → Bool × Nat
  | .enforce leaseSecs => (true, (env.leaseNs + leaseSecs * 1000000000) % 2 ^ 64)
  | _ => (false, 0)

def samePath (a b : Path) : Bool := a.isAbsolute = b.isAbsolute ∧ a.components = b.components

section Netpolicy

variable (e : Endian)

def compileSpec (r : NetRuleSpec) : Except String NpRule := do
  let dir ← parseDirection r.direction
  let (addr, prefixLength) ← parseCidr r.cidr
  let proto ← parseProto (r.proto.getD "any")
  compileRule e dir addr prefixLength proto (r.port.getD 0)

def netpolicyOff (key : String) : AgentM Unit := do
  let s ← get
  match s.np.lookup key with
  | none => pure ()
  | some (entry, _) => do
    modify fun s => { s with np := s.np.erase key }
    onEbpf (GuestEbpf.npRemove env.host entry.ids)

def netpolicyMoved (key : String) (cgroup : Path) : AgentM Unit := do
  let s ← get
  match s.np.lookup key with
  | none => pure ()
  | some (old, _) =>
    if samePath old.cgroup cgroup then pure ()
    else do
      onEbpf (GuestEbpf.npRemove env.host old.ids)
      modify fun s => { s with np := s.np.erase key }

def netpolicyOn (key : String) (mode : Mode) (req : NetpolicyApply) (rules : List NpRule) :
    AgentM Unit := do
  match resolve env req.target with
  | .error err => throw err
  | .ok r => do
    netpolicyMoved env key r.cgroup
    let (enforce, deadline) := leaseDeadline env mode
    let policy := npPolicy req.spec.egress req.spec.ingress enforce rules.length deadline
    onEbpf (GuestEbpf.npApply env.host r.cgroup r.ids policy rules)
    let entry := ⟨r.cgroup, r.ids, enforce, deadline, false, req.spec⟩
    modify fun s => { s with np := s.np.insert key (entry, { policy with nrules := rules.length }) }

def checkNetpolicy (req : NetpolicyApply) : Except String (String × Mode × List NpRule) := do
  let key ← targetKey req.target
  let mode ← parseMode req.mode req.leaseSecs
  let rules ← req.spec.rules.mapM (compileSpec e)
  bailIf (npMaxRules < rules.length) "at most 32 rules"
  bailIf (mode ≠ .off ∧ req.spec.egress = false ∧ req.spec.ingress = false)
    "police at least one of egress / ingress"
  pure (key, mode, rules)

def netpolicyApply (req : NetpolicyApply) : EStateM String (Option State) Unit :=
  match checkNetpolicy e req with
  | .error err => throw err
  | .ok (key, mode, rules) =>
    withState env (if mode = .off then netpolicyOff env key else netpolicyOn env key mode req rules)

end Netpolicy

end Calls

end Guestkit.Ebpf

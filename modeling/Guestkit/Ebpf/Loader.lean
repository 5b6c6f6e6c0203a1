import Guestkit.Ebpf.NetPolicy
import Guestkit.Lib.Fs.Walk
import Guestkit.Lib.Hoare

/-! The loader, which writes the maps of the network program and attaches it to cgroups. -/

namespace Guestkit.Ebpf

open Lib Lib.Fs

/-- A map of the object, and the number of entries that it has room for. -/
structure KernelMap (α β : Type) where
  maxEntries : Nat
  get : NpMaps → HashMap α β
  set : NpMaps → HashMap α β → NpMaps

def npPolicies : KernelMap Nat NpPolicy :=
  ⟨1024, NpMaps.policies, fun m h => { m with policies := h }⟩

def npRules : KernelMap NpRuleKey NpRule :=
  ⟨1024 * npMaxRules, NpMaps.rules, fun m h => { m with rules := h }⟩

/-- The loaded object: its maps, and the cgroups that the programs are attached to. -/
structure GuestEbpf where
  maps : NpMaps := {}
  npLinks : List Nat := []

/-- What the kernel does for the loader: the order in which it lists the keys of a map, how an
attachment ends, and the text of the error when a map is full. -/
structure LoaderHost where
  ruleOrder : HashOrder NpRuleKey NpRule
  attachNp : Nat → Path → Except String Unit
  mapFull : String

abbrev LoadM := EStateM String GuestEbpf

namespace GuestEbpf

section Maps

variable {α β : Type} [DecidableEq α] (host : LoaderHost) (map : KernelMap α β)

def insert (k : α) (v : β) : LoadM Unit := do
  let s ← get
  if k ∉ map.get s.maps ∧ map.maxEntries ≤ (map.get s.maps).entries.length then throw host.mapFull
  else modify fun s => { s with maps := map.set s.maps ((map.get s.maps).insert k v) }

def remove (k : α) : LoadM Unit :=
  modify fun s => { s with maps := map.set s.maps ((map.get s.maps).erase k) }

/-- The keys are collected before the first is removed. -/
def removeWhere (order : HashOrder α β) (p : α → Bool) : LoadM Unit := do
  let s ← get
  (((order.iter (map.get s.maps)).map Prod.fst).filter p).forM (remove map)

end Maps

section Network

variable (host : LoaderHost)

def npAttach (cgroupId : Nat) (cgroup : Path) : LoadM Unit := do
  let s ← get
  if cgroupId ∈ s.npLinks then pure ()
  else
    match host.attachNp cgroupId cgroup with
    | .error e => throw e
    | .ok () => modify fun s => { s with npLinks := cgroupId :: s.npLinks }

def insertRules (cgroupId : Nat) : Nat → List NpRule → LoadM Unit
  | _, [] => pure ()
  | slot, r :: rules => do
    insert host npRules ⟨cgroupId, slot⟩ r
    insertRules cgroupId (slot + 1) rules

def npApplyTo (policy : NpPolicy) (rules : List NpRule) (cgroupId : Nat) : LoadM Unit := do
  insertRules host cgroupId 0 rules
  removeWhere npRules host.ruleOrder fun k => k.cgroupId = cgroupId ∧ rules.length ≤ k.slot
  insert host npPolicies cgroupId { policy with nrules := rules.length }

def npApply (cgroup : Path) (ids : List Nat) (policy : NpPolicy) (rules : List NpRule) :
    LoadM Unit :=
  if npMaxRules < rules.length then throw "at most 32 rules per container"
  else
    match ids with
    | [] => throw "no cgroup ids"
    | top :: _ => do
      npAttach host top cgroup
      ids.forM (npApplyTo host policy rules)

def npSetPolicy (ids : List Nat) (policy : NpPolicy) : LoadM Unit :=
  ids.forM fun cgroupId => insert host npPolicies cgroupId policy

def npRemoveFrom (cgroupId : Nat) : LoadM Unit := do
  remove npPolicies cgroupId
  removeWhere npRules host.ruleOrder fun k => k.cgroupId = cgroupId

def npRemove (ids : List Nat) : LoadM Unit := do
  ids.forM (npRemoveFrom host)
  match ids with
  | [] => pure ()
  | top :: _ => modify fun s => { s with npLinks := s.npLinks.filter (· ≠ top) }

end Network

end GuestEbpf

end Guestkit.Ebpf

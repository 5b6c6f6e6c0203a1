import Guestkit.Ebpf.Verdict

/-! The policy of a request that was accepted, from its text to the verdict on each packet. -/

namespace Guestkit.Ebpf

open Lib Option

variable {env : CallEnv} {e : Endian} {req : NetpolicyApply} {g : Option State} {s' : State}
  {mode : Mode} {r : Resolved}
variable {rules : List NpRule} {version : Family}

theorem onEbpf_eq_ok {α : Type} {m : LoadM α} {s s' : State} {a : α} (h : onEbpf m s = .ok a s') :
    m s.ebpf = .ok a s'.ebpf ∧ s'.np = s.np := by
  unfold onEbpf at h
  split at h
  · next hm =>
    cases h
    exact ⟨hm, rfl⟩
  · cases h

theorem withState_eq_ok {α : Type} {f : AgentM α} {a : α} {g' : Option State}
    (h : withState env f g = .ok a g') :
    ∃ s s1 s', g.getD {} = s ∧ sweep env s = .ok () s1 ∧ f s1 = .ok a s' ∧ g' = some s' := by
  have hstart : ∀ s, withState.start env f s = .ok a g' →
      ∃ s1 s', sweep env s = .ok () s1 ∧ f s1 = .ok a s' ∧ g' = some s' := by
    intro s hs
    unfold withState.start at hs
    split at hs
    · next hrun =>
      cases hs
      obtain ⟨u, s1, hsweep, hf⟩ := bind_eq_ok hrun
      exact ⟨s1, _, hsweep, hf, rfl⟩
    · cases hs
  unfold withState at h
  split at h
  · cases h
  · exact ⟨{}, by simpa using hstart {} h⟩
  · next s => exact ⟨s, by simpa using hstart s h⟩

theorem checkNetpolicy_eq_ok {key : String} (h : checkNetpolicy e req = .ok (key, mode, rules)) :
    targetKey req.target = .ok key ∧ parseMode req.mode req.leaseSecs = .ok mode ∧
      req.spec.rules.mapM (compileSpec e) = .ok rules ∧ rules.length ≤ npMaxRules := by
  obtain ⟨key', hkey, h⟩ := except_ok_bind_iff.mp h
  obtain ⟨mode', hmode, h⟩ := except_ok_bind_iff.mp h
  obtain ⟨rules', hrules, h⟩ := except_ok_bind_iff.mp h
  obtain ⟨hmax, h⟩ := except_unit_bind_iff.mp h
  obtain ⟨-, h⟩ := except_unit_bind_iff.mp h
  cases h
  exact ⟨hkey, hmode, hrules, Nat.le_of_not_lt (bailIf_eq_ok.mp hmax)⟩

def policyOf (env : CallEnv) (spec : NetSpec) (mode : Mode) (n : Nat) : NpPolicy :=
  npPolicy spec.egress spec.ingress (leaseDeadline env mode).1 n (leaseDeadline env mode).2

theorem netpolicyOn_eq_ok {key : String} {s s' : State} (hr : resolve env req.target = .ok r)
    (h : netpolicyOn env key mode req rules s = .ok () s') :
    ∃ s1, GuestEbpf.npApply env.host r.cgroup r.ids (policyOf env req.spec mode rules.length) rules
      s1 = .ok () s'.ebpf := by
  unfold netpolicyOn at h
  rw [hr] at h
  obtain ⟨u, s1, -, h⟩ := bind_eq_ok h
  obtain ⟨u', s2, happly, h⟩ := bind_eq_ok h
  cases h
  exact ⟨s1.ebpf, (onEbpf_eq_ok happly).1⟩

theorem netpolicyApply_installed (h : netpolicyApply env e req g = .ok () (some s'))
    (hmode : parseMode req.mode req.leaseSecs = .ok mode) (hon : mode ≠ .off)
    (hr : resolve env req.target = .ok r) :
    ∃ rules, req.spec.rules.mapM (compileSpec e) = .ok rules ∧ rules.length ≤ npMaxRules ∧
      ∀ c ∈ r.ids, s'.ebpf.maps.view c =
        .of (policyOf env req.spec mode rules.length) rules := by
  unfold netpolicyApply at h
  cases hcheck : checkNetpolicy e req with
  | error err =>
    rw [hcheck] at h
    cases h
  | ok checked =>
    obtain ⟨key, mode', rules⟩ := checked
    rw [hcheck] at h
    obtain ⟨-, hmode', hrules, hmax⟩ := checkNetpolicy_eq_ok hcheck
    cases hmode.symm.trans hmode'
    dsimp only at h
    rw [if_neg hon] at h
    obtain ⟨s, s1, s2, -, -, hrun, heq⟩ := withState_eq_ok h
    cases heq
    obtain ⟨s3, happly⟩ := netpolicyOn_eq_ok hr hrun
    refine ⟨rules, hrules, hmax, fun c hc => ?_⟩
    rw [GuestEbpf.npApply_eq_ok happly c, if_pos hc]

def policed (spec : NetSpec) : Direction → Bool
  | .egress => spec.egress
  | .ingress => spec.ingress

/-- What a request says about a packet: its direction is policed, the lease has not ended, the peer
is another host, and no rule allows it. -/
structure ShouldDrop (env : CallEnv) (req : NetpolicyApply) (nowNs : Nat) (version : Family)
    (data : List Byte) (dir : Direction) : Prop where
  policed : policed req.spec dir = true
  enforced : ∃ secs, parseMode req.mode req.leaseSecs = .ok (.enforce secs) ∧
    nowNs < (env.leaseNs + secs * 1000000000) % 2 ^ 64
  remote : ¬(peerOf version data dir).IsLoopback
  unmatched : ∀ rule ∈ req.spec.rules, ¬rule.Allows dir (peerOf version data dir)
    (headerProto version data) (destPort version data)

theorem npPolicy_flags : ∀ egress ingress enforce : Bool,
    ((npPolicy egress ingress enforce 0 0).flags &&& npEgressIsolated ≠ 0 ↔ egress = true) ∧
      ((npPolicy egress ingress enforce 0 0).flags &&& npIngressIsolated ≠ 0 ↔ ingress = true) ∧
      ((npPolicy egress ingress enforce 0 0).flags &&& npEnforce ≠ 0 ↔ enforce = true) := by
  decide

theorem policed_flags (env : CallEnv) (spec : NetSpec) (mode : Mode) (n : Nat) (dir : Direction) :
    (policyOf env spec mode n).flags &&& isolated dir ≠ 0 ↔ policed spec dir = true := by
  obtain ⟨hegress, hingress, -⟩ :=
    npPolicy_flags spec.egress spec.ingress (leaseDeadline env mode).1
  cases dir
  · exact hegress
  · exact hingress

theorem enforced_policyOf (hmode : parseMode req.mode req.leaseSecs = .ok mode) (n nowNs : Nat) :
    (policyOf env req.spec mode n).Enforced nowNs ↔
      ∃ secs, parseMode req.mode req.leaseSecs = .ok (.enforce secs) ∧
        nowNs < (env.leaseNs + secs * 1000000000) % 2 ^ 64 := by
  obtain ⟨-, -, hflag⟩ :=
    npPolicy_flags req.spec.egress req.spec.ingress (leaseDeadline env mode).1
  have henforced : (policyOf env req.spec mode n).Enforced nowNs ↔
      (leaseDeadline env mode).1 = true ∧ nowNs < (policyOf env req.spec mode n).deadlineNs :=
    and_congr_left fun _ => hflag
  rw [henforced, hmode]
  cases mode with
  | off => simp [leaseDeadline]
  | audit => simp [leaseDeadline]
  | enforce secs => simp [leaseDeadline, policyOf, npPolicy]

theorem unmatched_iff {data : List Byte} {dir : Direction}
    (hrules : req.spec.rules.mapM (compileSpec e) = .ok rules) (hmax : rules.length ≤ npMaxRules) :
    (∀ slot < min npMaxRules rules.length, ∀ rule, rules[slot]? = some rule →
        ruleMatches rule dir (pktOf e version data dir) = false) ↔
      ∀ rule ∈ req.spec.rules, ¬rule.Allows dir (peerOf version data dir)
        (headerProto version data) (destPort version data) := by
  constructor
  · intro h spec hspec hallows
    obtain ⟨rule, hmem, hcompile⟩ := exists_of_mapM_mem hrules hspec
    obtain ⟨slot, hslot, rfl⟩ := List.getElem_of_mem hmem
    have hfalse := h slot (by omega) rules[slot] (List.getElem?_eq_getElem hslot)
    rw [(ruleMatches_compileSpec hcompile).mpr hallows] at hfalse
    cases hfalse
  · intro h slot _ rule hrule
    obtain ⟨spec, hspec, hcompile⟩ := exists_of_mem_mapM hrules (List.mem_of_getElem? hrule)
    rw [← Bool.not_eq_true, ruleMatches_compileSpec hcompile]
    exact h spec hspec

theorem drops_iff_shouldDrop {data : List Byte} {dir : Direction} {nowNs c : Nat}
    (hmode : parseMode req.mode req.leaseSecs = .ok mode)
    (hrules : req.spec.rules.mapM (compileSpec e) = .ok rules) (hmax : rules.length ≤ npMaxRules)
    (hdata : IsPacket version data) :
    (NpView.of (policyOf env req.spec mode rules.length) rules).Drops e nowNs
        ⟨c, version.af, data⟩ dir ↔ ShouldDrop env req nowNs version data dir := by
  have hparse := parsePacket_of_packet e (c := c) hdata dir
  constructor
  · rintro ⟨pol, p, hpol, hparse', ⟨hpoliced, hremote, hunmatched⟩, henforced⟩
    cases hpol
    cases hparse.symm.trans hparse'
    exact ⟨(policed_flags _ _ _ _ _).mp hpoliced, (enforced_policyOf hmode _ _).mp henforced,
      fun h => Bool.false_ne_true (hremote.symm.trans (loopback_pktOf.mpr h)),
      (unmatched_iff hrules hmax).mp hunmatched⟩
  · rintro ⟨hpoliced, henforced, hremote, hunmatched⟩
    exact ⟨_, _, rfl, hparse, ⟨(policed_flags _ _ _ rules.length _).mpr hpoliced,
      Bool.eq_false_iff.mpr fun h => hremote (loopback_pktOf.mp h),
      (unmatched_iff hrules hmax).mpr hunmatched⟩,
        (enforced_policyOf hmode rules.length _).mpr henforced⟩

def Polices (e : Endian) (version : Family) (family : Nat) : Prop :=
  ∀ (env : CallEnv) (req : NetpolicyApply) (g : Option State) (s' : State) (mode : Mode)
    (r : Resolved), netpolicyApply env e req g = .ok () (some s') →
    parseMode req.mode req.leaseSecs = .ok mode → mode ≠ .off →
    resolve env req.target = .ok r → ∀ c ∈ r.ids, ∀ data, IsPacket version data →
    ∀ (dir : Direction) (nowNs : Nat),
      verdict e s'.ebpf.maps nowNs ⟨c, family, data⟩ dir = 0 ↔
        ShouldDrop env req nowNs version data dir

theorem polices_af (e : Endian) (version : Family) : Polices e version version.af := by
  intro env req g s' mode r happly hmode hon hr c hc data hdata dir nowNs
  obtain ⟨rules, hrules, hmax, hview⟩ := netpolicyApply_installed happly hmode hon hr
  rw [verdict_eq_zero_iff]
  change (s'.ebpf.maps.view c).Drops e nowNs ⟨c, version.af, data⟩ dir ↔ _
  rw [hview c hc]
  exact drops_iff_shouldDrop hmode hrules hmax hdata

def oneCgroup : CallEnv where
  load := .ok ()
  sweepNs := 0
  leaseNs := 0
  containerPid _ := none
  procCgroup _ := none
  isDir _ := true
  subtreeIds _ := [1]
  host := ⟨.newestFirst, fun _ _ => .ok (), "full"⟩

/-- A request to drop what goes out for a minute, but for what the rules allow. -/
def isolate (rules : List NetRuleSpec) : NetpolicyApply :=
  ⟨⟨none, some "a"⟩, "enforce", some 60, ⟨true, false, rules⟩⟩

def returned (r : EStateM.Result String (Option State) Unit) : Option State :=
  match r with
  | .ok _ g => g
  | .error _ _ => none

theorem eq_ok_of_returned {r : EStateM.Result String (Option State) Unit} {s' : State}
    (h : returned r = some s') : r = .ok () (some s') := by
  cases r with
  | ok u g => exact congrArg _ h
  | error err g => cases h

theorem isolate_returns (e : Endian) :
    ∃ s', netpolicyApply oneCgroup e (isolate []) none = .ok () (some s') := by
  have hsome : (returned (netpolicyApply oneCgroup e (isolate []) none)).isSome := by
    cases e <;> decide +kernel
  obtain ⟨s', hs'⟩ := isSome_iff_exists.mp hsome
  exact ⟨s', eq_ok_of_returned hs'⟩

theorem isolate_resolves (rules : List NetRuleSpec) :
    ∃ r, resolve oneCgroup (isolate rules).target = .ok r ∧ 1 ∈ r.ids := by
  have hids : ((resolve oneCgroup ⟨none, some "a"⟩).toOption.map Resolved.ids) = some [1] := by
    decide +kernel
  obtain ⟨r, hr, heq⟩ := map_eq_some_iff.mp hids
  exact ⟨r, eq_ok_of_toOption hr, heq ▸ List.mem_singleton.mpr rfl⟩

theorem isolate_mode (rules : List NetRuleSpec) :
    parseMode (isolate rules).mode (isolate rules).leaseSecs = .ok (.enforce 60) :=
  eq_ok_of_toOption (show (parseMode "enforce" (some 60)).toOption = _ by decide +kernel)

/-- A packet to a remote host that the other reading of the header does not show as one. -/
def probe : Family → List Byte
  | .v4 => [0x45, 0, 0, 20, 0, 0, 0, 0, 64, 6, 0, 0, 10, 0, 0, 1, 10, 0, 0, 5]
  | .v6 => [0x60, 0, 0, 0, 0, 0, 6, 64, 0x20, 1, 0xd, 0xb8, 0, 0, 0, 0, 127, 0, 0, 0, 0, 0, 0, 1,
      0x20, 1, 0xd, 0xb8, 0, 0, 0, 0, 0, 0, 0, 0, 0, 0, 0, 2]

theorem probe_shouldDrop (version : Family) :
    ShouldDrop oneCgroup (isolate []) 0 version (probe version) .egress := by
  refine ⟨rfl, ⟨60, isolate_mode [], by decide⟩, ?_, nofun⟩
  cases version
  · change ¬(_ = _)
    decide
  · change ¬(_ = _)
    decide

theorem probe_passes {family : Nat} (h : family ≠ version.af) (e : Endian) (v : NpView) :
    ¬v.Drops e 0 ⟨1, family, probe version⟩ .egress := by
  rintro ⟨pol, p, -, hparse, ⟨-, hremote, -⟩, -⟩
  by_cases h4 : family = afInet
  · subst h4
    cases version with
    | v4 => exact h rfl
    | v6 =>
      cases hparse
      cases e <;> exact absurd hremote (by decide)
  · by_cases h6 : family = afInet6
    · subst h6
      cases version with
      | v4 => cases hparse
      | v6 => exact h rfl
    · unfold parsePacket at hparse
      rw [if_neg h4, if_neg h6] at hparse
      cases hparse

/-- The program polices the packets of a version exactly on the sockets of that version. -/
theorem polices_iff (e : Endian) (version : Family) (family : Nat) :
    Polices e version family ↔ family = version.af := by
  refine ⟨fun h => Decidable.byContradiction fun hother => ?_, fun h => h ▸ polices_af e version⟩
  obtain ⟨s', happly⟩ := isolate_returns e
  obtain ⟨r, hr, hmem⟩ := isolate_resolves []
  have hdata : IsPacket version (probe version) := by cases version <;> decide
  have hiff := h oneCgroup (isolate []) none s' (.enforce 60) r happly (isolate_mode [])
    nofun hr 1 hmem (probe version) hdata .egress 0
  rw [verdict_eq_zero_iff] at hiff
  exact probe_passes hother e _ (hiff.mpr (probe_shouldDrop version))

/-- A connection that a rule allows, from a socket of version 6 to an address of version 4. -/
def mappedSyn : List Byte :=
  [0x45, 0, 0, 40, 0x1c, 0x46, 0x40, 0, 64, 6, 0, 0, 10, 0, 0, 1, 10, 0, 0, 5, 0xd4, 0x31, 1, 0xbb,
    0, 0, 0, 1, 0, 0, 0, 0, 0x50, 2, 0xfa, 0xf0, 0, 0, 0, 0]

def allowHttps : NetRuleSpec := ⟨"egress", "10.0.0.0/8", some "tcp", some 443⟩

theorem mappedSyn_dropped :
    ∃ s', netpolicyApply oneCgroup .little (isolate [allowHttps]) none = .ok () (some s') ∧
      IsPacket .v4 mappedSyn ∧ verdict .little s'.ebpf.maps 0 ⟨1, afInet6, mappedSyn⟩ .egress = 0 ∧
      ¬ShouldDrop oneCgroup (isolate [allowHttps]) 0 .v4 mappedSyn .egress := by
  have hdropped : (returned (netpolicyApply oneCgroup .little (isolate [allowHttps]) none)).map
      (fun s => verdict .little s.ebpf.maps 0 ⟨1, afInet6, mappedSyn⟩ .egress) = some 0 := by
    decide +kernel
  have hmatches : (compileSpec .little allowHttps).toOption.map
      (fun rule => ruleMatches rule .egress (pktOf .little .v4 mappedSyn .egress)) = some true := by
    decide +kernel
  obtain ⟨s', hs', hverdict⟩ := map_eq_some_iff.mp hdropped
  obtain ⟨rule, hrule, hmatch⟩ := map_eq_some_iff.mp hmatches
  refine ⟨s', eq_ok_of_returned hs', by decide, hverdict, fun h => ?_⟩
  exact h.unmatched allowHttps (List.mem_singleton.mpr rfl)
    ((ruleMatches_compileSpec (eq_ok_of_toOption hrule)).mp hmatch)

/-- What is installed for some cgroups alone decides for them, and changes nothing for others. -/
theorem npApply_verdict {host host' : LoaderHost} {dir dir' : Fs.Path} {ids ids' : List Nat}
    {policy : NpPolicy} {s s1 s' s1' : GuestEbpf}
    (h : GuestEbpf.npApply host dir ids policy rules s = .ok () s1)
    (h' : GuestEbpf.npApply host' dir' ids' policy rules s' = .ok () s1') (e : Endian) (nowNs : Nat)
    (skb : Skb) (way : Direction) :
    (skb.cgroupId ∉ ids →
      (verdict e s1.maps nowNs skb way = 0 ↔ verdict e s.maps nowNs skb way = 0)) ∧
    (skb.cgroupId ∈ ids → skb.cgroupId ∈ ids' →
      (verdict e s1.maps nowNs skb way = 0 ↔ verdict e s1'.maps nowNs skb way = 0)) := by
  simp only [verdict_eq_zero_iff, GuestEbpf.npApply_eq_ok h, GuestEbpf.npApply_eq_ok h']
  constructor
  · intro hc
    rw [if_neg hc]
  · intro hc hc'
    rw [if_pos hc, if_pos hc']

/-- The same packet to port 80, which the rule does not allow. -/
def plainSyn : List Byte := mappedSyn.take 22 ++ [0, 80] ++ mappedSyn.drop 24

/-- The rule for port 443 in enforce mode, for the cgroup 1. -/
def allowOnly443 (s : GuestEbpf) : EStateM.Result String GuestEbpf Unit :=
  GuestEbpf.npApply oneCgroup.host [] [1] (npPolicy true false true 0 60)
    [⟨.egress, .v4, 6, 443, #v[0xa, 0, 0, 0], #v[0xff, 0, 0, 0]⟩] s

/-- Maps in which a policy audits two cgroups in both directions. -/
def audited : GuestEbpf where
  maps.policies := ((∅ : HashMap Nat NpPolicy).insert 1 (npPolicy true true false 0 0)).insert 2
    (npPolicy true true false 0 0)
  npLinks := [1]

def outcome (r : EStateM.Result String GuestEbpf Unit) : GuestEbpf :=
  match r with
  | .ok _ s | .error _ s => s

theorem audited_replaced :
    allowOnly443 {} = .ok () (outcome (allowOnly443 {})) ∧
      allowOnly443 audited = .ok () (outcome (allowOnly443 audited)) ∧
      (∀ data ∈ [mappedSyn, plainSyn],
        verdict .little (outcome (allowOnly443 audited)).maps 0 ⟨1, afInet, data⟩ .egress = 0 ↔
          data = plainSyn) ∧
      verdict .little (outcome (allowOnly443 audited)).maps 0 ⟨2, afInet, plainSyn⟩
        .egress ≠ 0 := by
  have h : allowOnly443 {} = .ok () (outcome (allowOnly443 {})) := rfl
  have h' : allowOnly443 audited = .ok () (outcome (allowOnly443 audited)) := rfl
  have hfresh : ∀ data ∈ [mappedSyn, plainSyn],
      verdict .little (outcome (allowOnly443 {})).maps 0 ⟨1, afInet, data⟩ .egress = 0 ↔
        data = plainSyn := by
    decide +kernel
  have hother : verdict .little audited.maps 0 ⟨2, afInet, plainSyn⟩ .egress ≠ 0 := by
    decide +kernel
  refine ⟨h, h', fun data hdata => ?_, fun hdrop => ?_⟩
  · exact ((npApply_verdict h' h .little 0 ⟨1, afInet, data⟩ .egress).2
      (List.mem_singleton.mpr rfl) (List.mem_singleton.mpr rfl)).trans (hfresh data hdata)
  · exact hother (((npApply_verdict h' h .little 0 ⟨2, afInet, plainSyn⟩ .egress).1
      (by decide)).mp hdrop)

end Guestkit.Ebpf

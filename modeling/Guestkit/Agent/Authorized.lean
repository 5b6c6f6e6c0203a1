import Guestkit.Agent.Checks

/-! Which calls on the guest the frames of both protocols lead to, and whether the policy authorizes
the method that such a call belongs to. -/

namespace Guestkit

open Lib Qga List

def AgentPolicy.Accepts (policy : AgentPolicy) (glob : Glob) (method : RpcMethod) : Prop :=
  ∃ wireName, RpcMethod.parse wireName = method ∧ policy.authorize glob method wireName = .ok ()

namespace AgentRuntime

variable {ε α β φ : Type} {s s' : AgentRuntime ε}

/-- The calls between two states that change the guest belong to this method, or there are none. -/
def Performs (effect : Option RpcMethod) (s s' : AgentRuntime ε) : Prop :=
  ∃ calls, s'.log = s.log ++ calls ∧
    ∀ method, (∃ c ∈ calls, c.changes = true ∧ c.method = method) ↔ effect = some method

theorem Performs.of_log (h : s'.log = s.log) : Performs none s s' :=
  ⟨[], by rw [h, append_nil], fun method => by simp⟩

theorem Performs.congr {effect : Option RpcMethod} {s'' : AgentRuntime ε}
    (h : Performs effect s s') (hlog : s''.log = s'.log) : Performs effect s s'' := by
  obtain ⟨calls, hcalls, heffect⟩ := h
  exact ⟨calls, hlog.trans hcalls, heffect⟩

theorem Performs.of_idle {c : GuestCall} (h : s'.log = s.log ++ [c]) (hc : c.changes = false) :
    Performs none s s' :=
  ⟨[c], h, fun method => by simp [hc]⟩

theorem Performs.of_calls {calls : List GuestCall} {method : RpcMethod}
    (h : s'.log = s.log ++ calls) (hsome : calls ≠ [])
    (hcalls : ∀ c ∈ calls, c.changes = true ∧ c.method = method) :
    Performs (some method) s s' := by
  refine ⟨calls, h, fun other => ⟨?_, ?_⟩⟩
  · rintro ⟨c, hc, -, rfl⟩
    rw [(hcalls c hc).2]
  · intro heq
    obtain ⟨c, hc⟩ := exists_mem_of_ne_nil calls hsome
    exact ⟨c, hc, (hcalls c hc).1, (hcalls c hc).2.trans (Option.some.inj heq)⟩

theorem Performs.of_call {c : GuestCall} (h : s'.log = s.log ++ [c]) (hc : c.changes = true) :
    Performs (some c.method) s s' :=
  .of_calls h (cons_ne_nil _ _) fun c' hc' => by
    rw [mem_singleton.mp hc']
    exact ⟨hc, rfl⟩

theorem update_bind (f : AgentRuntime ε → AgentRuntime ε)
    (g : Unit → EStateM φ (AgentRuntime ε) α) (s : AgentRuntime ε) :
    (update f >>= g) s = g () (f s) := rfl

theorem log_bind {x : EStateM φ (AgentRuntime ε) α} {f : α → EStateM φ (AgentRuntime ε) β}
    (hf : ∀ a s, (stateOf (f a s)).log = s.log) (s : AgentRuntime ε) :
    (stateOf ((x >>= f) s)).log = (stateOf (x s)).log := by
  cases h : x s with
  | ok a s1 => rw [bind_of_ok h, hf]; rfl
  | error e s1 => rw [bind_of_error h]; rfl

end AgentRuntime

namespace Qga

open AgentRuntime

variable {ε : Type} (crates : Crates) (guest : Guest ε) (s : AgentRuntime ε) (args : Json)

/-- The method whose effect a command has, if it goes so far as to change the guest. -/
def effect (command : String) : Option RpcMethod :=
  match command with
  | "guest-set-time" => ((args.get "time").bind Json.asU64).map fun _ => .setTime
  | "guest-fstrim" => some .storageTrim
  | "guest-fsfreeze-freeze" => some .freezeFilesystem
  | "guest-fsfreeze-thaw" =>
    if guest.windows && s.vssShadowId.isNone then none else some .thawFilesystem
  | "guest-exec" | "guestkit-exec" => ((args.get "path").bind Json.asStr).map fun _ => .exec
  | "guest-shutdown" => some .shutdown
  | "guest-reboot" => some .reboot
  | "guestkit-run-fix-plan" =>
    ((args.get "plan").bind fun v => (crates.fixPlan v).toOption).bind fun _ =>
      if ((args.get "dry_run").bind Json.asBool).getD false then none else some .runFixPlan
  | "guestkit-get-snapshot-readiness" => some .getSnapshotReadiness
  | "guestkit-enable-rdp" => if guest.windows then some .enableRdp else none
  | "guestkit-disable-rdp" => if guest.windows then some .disableRdp else none
  | _ => none

theorem guestSetTime_performs :
    Performs (((args.get "time").bind Json.asU64).map fun _ => .setTime) s
      (stateOf (guestSetTime guest args s)) := by
  unfold guestSetTime
  cases (args.get "time").bind Json.asU64 with
  | none => exact .of_log rfl
  | some secs =>
    refine .of_call (c := .setTime
      (dateScript secs (((args.get "nanoseconds").bind Json.asU64).getD 0))) ?_ rfl
    rw [log_bind (fun _ _ => rfl), log_call]

theorem guestFsfreezeFreeze_performs :
    Performs (some .freezeFilesystem) s (stateOf (guestFsfreezeFreeze guest s)) := by
  unfold guestFsfreezeFreeze
  split
  · refine .of_call (c := .createMarkerShadow "C:") ?_ rfl
    rw [log_bind (fun _ _ => rfl), stateOf_mapError, log_call]
  · refine .of_call (c := .fsfreeze false) ?_ rfl
    rw [log_bind (fun _ _ => rfl), log_call]

theorem guestFsfreezeThaw_performs :
    Performs (if guest.windows && s.vssShadowId.isNone then none else some .thawFilesystem) s
      (stateOf (guestFsfreezeThaw guest s)) := by
  unfold guestFsfreezeThaw
  cases hwindows : guest.windows with
  | false =>
    refine .of_call (c := .fsfreeze true) ?_ rfl
    rw [if_neg Bool.false_ne_true, log_bind (fun _ _ => rfl), log_call]
  | true =>
    rw [if_pos rfl, get_bind, update_bind]
    cases s.vssShadowId with
    | none => exact .of_log rfl
    | some id =>
      refine .of_call (c := .deleteMarkerShadow id) ?_ rfl
      dsimp only
      rw [log_bind (fun _ _ => rfl), stateOf_mapError, log_call]

theorem execSync_performs :
    Performs (((args.get "path").bind Json.asStr).map fun _ => .exec) s
      (stateOf (execSync guest args s)) := by
  unfold execSync
  cases (args.get "path").bind Json.asStr with
  | none => exact .of_log rfl
  | some path =>
    refine .of_call (c := .exec path (execArgs args)) ?_ rfl
    rw [stateOf_mapError, log_call]

theorem guestExec_performs :
    Performs (((args.get "path").bind Json.asStr).map fun _ => .exec) s
      (stateOf (guestExec guest args s)) := by
  unfold guestExec
  cases (args.get "path").bind Json.asStr with
  | none => exact .of_log rfl
  | some path =>
    refine .of_call (c := .exec path (execArgs args)) ?_ rfl
    dsimp only
    rw [get_bind, update_bind]
    split
    · rw [log_bind (fun _ _ => rfl), stateOf_mapError, log_call]
    · rw [log_bind (fun _ _ => rfl), stateOf_mapError, log_call]

theorem guestReboot_performs :
    Performs (some .reboot) s (stateOf (guestReboot guest s)) := by
  unfold guestReboot
  have hfirst := log_call guest (.reboot "systemctl" ["reboot"]) s
  cases h : call guest (.reboot "systemctl" ["reboot"]) s with
  | ok v s1 =>
    rw [h] at hfirst
    refine .of_call (c := .reboot "systemctl" ["reboot"]) ?_ rfl
    rw [log_bind (fun _ _ => rfl), tryCatch_of_ok h]
    exact hfirst
  | error e s1 =>
    rw [h] at hfirst
    refine .of_calls (show _ = s.log ++
      [.reboot "systemctl" ["reboot"], .reboot "reboot" []] from ?_)
      (cons_ne_nil _ _) (by simp [GuestCall.changes, GuestCall.method])
    rw [log_bind (fun _ _ => rfl), tryCatch_of_error h, stateOf_mapError, log_call]
    exact (congrArg (· ++ [_]) hfirst).trans (append_assoc _ _ _)

theorem guestkitRunFixPlan_performs :
    Performs (((args.get "plan").bind fun v => (crates.fixPlan v).toOption).bind fun _ =>
        if ((args.get "dry_run").bind Json.asBool).getD false then none else some .runFixPlan) s
      (stateOf (guestkitRunFixPlan crates guest args s)) := by
  unfold guestkitRunFixPlan
  cases args.get "plan" with
  | none => exact .of_log rfl
  | some v =>
    rw [Option.bind_some]
    dsimp only
    cases crates.fixPlan v with
    | error e => exact .of_log rfl
    | ok plan =>
      dsimp only [Except.toOption]
      rw [Option.bind_some]
      cases ((args.get "dry_run").bind Json.asBool).getD false with
      | true =>
        refine .of_idle (c := .applyPlan true plan) ?_ rfl
        rw [log_bind (fun _ _ => rfl), log_call]
      | false =>
        refine .of_call (c := .applyPlan false plan) ?_ rfl
        rw [log_bind (fun _ _ => rfl), log_call]

theorem guestExecStatus_log : (stateOf (guestExecStatus args s)).log = s.log := by
  unfold guestExecStatus
  cases (args.get "pid").bind Json.asU64 with
  | none => rfl
  | some pid =>
    dsimp only
    rw [get_bind]
    cases s.execJobs.lookup pid <;> rfl

theorem guestShutdown_performs :
    Performs (some .shutdown) s (stateOf (guestShutdown guest args s)) := by
  refine .of_call (c := .powerOff
    (shutdownScript (((args.get "mode").bind Json.asStr).getD "powerdown"))) ?_ rfl
  unfold guestShutdown
  rw [log_bind (fun _ _ => rfl), stateOf_mapError, log_call]

theorem enableRdp_performs :
    Performs (if guest.windows then some .enableRdp else none) s
      (stateOf (enableRdp guest s)) := by
  unfold enableRdp
  split
  · exact .of_call (log_call guest .enableRdp s) rfl
  · exact .of_log rfl

theorem disableRdp_performs :
    Performs (if guest.windows then some .disableRdp else none) s
      (stateOf (disableRdp guest s)) := by
  unfold disableRdp
  split
  · exact .of_call (log_call guest .disableRdp s) rfl
  · exact .of_log rfl

theorem execute_performs (command : String) :
    Performs (effect crates guest s args command) s
      (stateOf (execute crates guest command args s)) := by
  unfold execute
  split
  · exact .of_log rfl
  · exact .of_log rfl
  · exact .of_log rfl
  · exact guestSetTime_performs guest s args
  · refine .of_call (c := .fstrim ["-a", "-v"]) ?_ rfl
    rw [guestFstrim, stateOf_mapError, log_call]
  · exact .of_log rfl
  · exact guestFsfreezeFreeze_performs guest s
  · exact guestFsfreezeThaw_performs guest s
  · exact guestExec_performs guest s args
  · exact .of_log (guestExecStatus_log s args)
  · exact guestShutdown_performs guest s args
  · exact guestReboot_performs guest s
  · exact guestkitRunFixPlan_performs crates guest s args
  · exact .of_call (log_call guest .snapshotReadiness s) rfl
  · exact (execSync_performs guest s args).congr (log_bind (fun _ _ => rfl) s)
  · exact enableRdp_performs guest s
  · exact disableRdp_performs guest s
  · exact .of_log rfl
  · exact .of_log rfl
  · exact .of_log rfl
  · have hnone : effect crates guest s args command = none := by
      unfold effect
      split <;> first | rfl | contradiction
    rw [hnone]
    split
    · exact .of_log (by rw [stateOf_look])
    · exact .of_log rfl

/-- The method whose effect a frame has without a check of the policy: that of a command which is no
request passed on to the JSON-RPC handler. -/
def plainEffect (bytes : Bytes) : Option RpcMethod :=
  match crates.fromSlice bytes, extractRpcPassthrough crates bytes with
  | .ok req, none =>
    (command req).bind (effect crates guest s ((req.get "arguments").getD (.object [])))
  | _, _ => none

theorem handle_performs (bytes : Bytes) (hrpc : extractRpcPassthrough crates bytes = none) :
    Performs (plainEffect crates guest s bytes) s (stateOf (handle crates guest bytes s)) := by
  unfold plainEffect handle
  rw [hrpc]
  cases crates.fromSlice bytes with
  | error e => exact .of_log rfl
  | ok req =>
    dsimp only
    cases command req with
    | none => exact .of_log rfl
    | some cmd =>
      have hexecute := execute_performs crates guest s ((req.get "arguments").getD (.object [])) cmd
      rw [Option.bind_some]
      dsimp only
      cases h : execute crates guest cmd ((req.get "arguments").getD (.object [])) s with
      | ok ret s1 =>
        rw [h] at hexecute
        exact hexecute
      | error msg s1 =>
        rw [h] at hexecute
        exact hexecute

end Qga

namespace RequestHandler

open AgentRuntime

variable {ε : Type} (crates : Crates) (guest : Guest ε) (policy : AgentPolicy)

variable (times : Times) (bytes : Bytes) (chan : Option ChannelHandle)

theorem handleOn_makes :
    Always (Makes fun c => policy.Accepts crates.glob c.method)
      (handleOn crates guest policy times bytes chan) := by
  intro s
  unfold handleOn
  rw [stateOf_returning]
  refine stateOf_bind Makes.trans (.of_log (accept_log times bytes s)) fun req s1 haccept => ?_
  refine stateOf_bind Makes.trans ?_ fun resp s2 _ => .of_log ?_
  · refine (dispatch_serves req chan s1).makes.mono fun c hc => ?_
    obtain hnegotiation | hauthorized := permitted_of_accept haccept
    · rw [hc.2] at hnegotiation
      cases hnegotiation
    · exact ⟨req.method, hc.1.symm, hc.1 ▸ hauthorized⟩
  · dsimp only
    split
    · rw [stateOf_bind_pure]
      exact settle_log times.store req resp s2
    · rfl

/-- Every call between two states that changes the guest belongs to a method that the policy
accepts. -/
def OnlyAuthorized (s s' : AgentRuntime ε) : Prop :=
  Makes (fun c => c.changes = true → policy.Accepts crates.glob c.method) s s'

theorem onlyAuthorized_iff {effect : Option RpcMethod} {s s' : AgentRuntime ε}
    (h : Performs effect s s') :
    OnlyAuthorized crates policy s s' ↔
      ∀ method, effect = some method → policy.Accepts crates.glob method := by
  obtain ⟨calls, hlog, hcalls⟩ := h
  constructor
  · rintro ⟨calls', hlog', haccepts⟩ method heffect
    obtain rfl : calls = calls' := append_cancel_left (hlog.symm.trans hlog')
    obtain ⟨c, hc, hchanges, rfl⟩ := (hcalls method).mpr heffect
    exact haccepts c hc hchanges
  · intro haccepts
    refine ⟨calls, hlog, fun c hc hchanges => haccepts c.method ?_⟩
    exact (hcalls c.method).mp ⟨c, hc, hchanges, rfl⟩

theorem onlyAuthorized_handleOn (s : AgentRuntime ε) :
    OnlyAuthorized crates policy s
      (stateOf (handleOn crates guest policy times bytes chan s)) :=
  (handleOn_makes crates guest policy times bytes chan s).mono fun _ h _ => h

theorem plainEffect_of_rpc {bytes : Bytes} {s : AgentRuntime ε}
    (h : isQgaRequest crates bytes = false) : plainEffect crates guest s bytes = none := by
  unfold isQgaRequest at h
  unfold plainEffect
  cases hslice : crates.fromSlice bytes with
  | error e => rfl
  | ok req =>
    rw [hslice] at h
    have hnone : command req = none := by
      simpa using h
    cases extractRpcPassthrough crates bytes with
    | none =>
      dsimp only
      rw [hnone]
      rfl
    | some inner => rfl

/-- A frame changes the guest only with the effect of a method that the policy accepts, exactly if
this is so for a plain command, of which nobody asks the policy. -/
theorem handleFrameOn_onlyAuthorized_iff (s : AgentRuntime ε) :
    OnlyAuthorized crates policy s
        (stateOf (handleFrameOn crates guest policy times bytes chan s)) ↔
      ∀ method, plainEffect crates guest s bytes = some method →
        policy.Accepts crates.glob method := by
  unfold handleFrameOn
  cases hqga : isQgaRequest crates bytes with
  | false =>
    rw [if_neg Bool.false_ne_true, stateOf_bind_pure, plainEffect_of_rpc crates guest hqga]
    exact ⟨fun _ _ h => (nomatch h), fun _ =>
      onlyAuthorized_handleOn crates guest policy times bytes chan s⟩
  | true =>
    rw [if_pos rfl]
    cases hrpc : extractRpcPassthrough crates bytes with
    | none =>
      exact onlyAuthorized_iff crates policy (handle_performs crates guest s bytes hrpc)
    | some inner =>
      have hnone : plainEffect crates guest s bytes = none := by
        unfold plainEffect
        rw [hrpc]
        cases crates.fromSlice bytes <;> rfl
      dsimp only
      rw [stateOf_bind_pure, hnone]
      exact ⟨fun _ _ h => (nomatch h), fun _ =>
        onlyAuthorized_handleOn crates guest policy times inner chan s⟩

def shellFrame : Bytes :=
  "\x7b\"execute\":\"guest-exec\",\"arguments\":\x7b\"path\":\"/bin/sh\"\x7d\x7d".toUTF8.toList

def shellCommand : Json :=
  .object [("execute", .string "guest-exec"),
    ("arguments", .object [("path", .string "/bin/sh")])]

def shellCrates : Crates where
  fromSlice := fun bytes => if bytes = shellFrame then .ok shellCommand else .error "expected value"
  toVec := fun _ => .ok []
  parseRequest := fun _ => .error "expected value"
  fixPlan := fun _ => .error "expected value"
  remediationActions := fun _ => none
  glob := fun _ => some fun _ => true
  parseFromRfc3339 := fun _ => .error "premature end of input"
  inRange := fun _ => true
  encode := fun text => text

theorem shellFrame_read : shellCrates.fromSlice shellFrame = .ok shellCommand := if_pos rfl

theorem shellFrame_plain : extractRpcPassthrough shellCrates shellFrame = none := by
  unfold extractRpcPassthrough
  rw [shellFrame_read]
  exact if_pos (by decide)

theorem shellFrame_effect (s : AgentRuntime Unit) :
    plainEffect shellCrates idleGuest s shellFrame = some .exec := by
  unfold plainEffect
  rw [shellFrame_read, shellFrame_plain]
  rfl

/-- A policy that denies every method does not keep a plain command from running a program. -/
theorem denyAll_runs_shell :
    ¬ OnlyAuthorized shellCrates { methods := { deny := ["*"] } } { machine := () }
      (stateOf (handleFrameOn shellCrates idleGuest { methods := { deny := ["*"] } } ⟨0, 0, 0⟩
        shellFrame none { machine := () })) := by
  have hqga : isQgaRequest shellCrates shellFrame = true := by
    unfold isQgaRequest
    rw [shellFrame_read]
    rfl
  unfold handleFrameOn
  rw [if_pos hqga, shellFrame_plain]
  intro h
  obtain ⟨wireName, -, hauthorize⟩ := (onlyAuthorized_iff shellCrates _
    (handle_performs shellCrates idleGuest _ shellFrame shellFrame_plain)).mp h .exec
      (shellFrame_effect _)
  cases hauthorize

theorem default_runs_shell :
    OnlyAuthorized shellCrates {} { machine := () }
      (stateOf (handleFrameOn shellCrates idleGuest {} ⟨0, 0, 0⟩ shellFrame none
        { machine := () })) := by
  refine (handleFrameOn_onlyAuthorized_iff shellCrates idleGuest {} ⟨0, 0, 0⟩ shellFrame none
    { machine := () }).mpr fun method heffect => ?_
  rw [shellFrame_effect] at heffect
  cases heffect
  exact ⟨"guestkit.exec", rfl, rfl⟩

end RequestHandler

end Guestkit

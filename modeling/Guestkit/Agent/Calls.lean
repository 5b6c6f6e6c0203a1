import Guestkit.Agent.Handler
import Guestkit.Lib.Hoare

/-! The calls on the guest that the handlers of the methods make. -/

namespace Guestkit

open Lib Qga

namespace GuestCall

def method : GuestCall → RpcMethod
  | exec _ _ => .exec
  | setTime _ => .setTime
  | fstrim _ => .storageTrim
  | fsfreeze thaw => if thaw then .thawFilesystem else .freezeFilesystem
  | createMarkerShadow _ => .freezeFilesystem
  | deleteMarkerShadow _ => .thawFilesystem
  | powerOff _ => .shutdown
  | reboot _ _ => .reboot
  | enableRdp => .enableRdp
  | disableRdp => .disableRdp
  | applyPlan _ _ => .runFixPlan
  | rollbackPlan _ => .runFixPlanRollback
  | repair _ _ => .migrationRepair
  | restartUnit _ => .restartUnit
  | controlUnit op _ => if op = "start" then .startUnit else .stopUnit
  | executeRemediationPlan _ _ => .executeRemediationPlan
  | snapshotReadiness => .getSnapshotReadiness
  | snapshotPrepare _ => .snapshotPrepare
  | snapshotComplete => .snapshotComplete
  | preMigrationCheck _ => .migrationPreCheck
  | enterCutover _ => .migrationCutoverEnter
  | exitCutover => .migrationCutoverExit
  | captureBaseline _ _ => .baselineCapture
  | fileWrite _ _ => .fileWrite
  | timeSync _ => .timeSyncNow
  | powerAction _ action _ => if action = "reboot" then .reboot else .shutdown
  | serve method _ => method

/-- Whether the call changes the guest: a dry run of a plan does not. -/
def changes : GuestCall → Bool
  | applyPlan dryRun _ => !dryRun
  | repair dryRun _ => !dryRun
  | _ => true

end GuestCall

namespace AgentRuntime

variable {ε α β φ ψ : Type} {P : GuestCall → Prop}
variable {s s' : AgentRuntime ε}

def Makes (P : GuestCall → Prop) (s s' : AgentRuntime ε) : Prop :=
  ∃ calls, s'.log = s.log ++ calls ∧ ∀ c ∈ calls, P c

theorem Makes.of_log (h : s'.log = s.log) : Makes P s s' :=
  ⟨[], by rw [h, List.append_nil], fun _ hc => absurd hc List.not_mem_nil⟩

theorem Makes.trans (s₁ s₂ s₃ : AgentRuntime ε) (h : Makes P s₁ s₂) (h' : Makes P s₂ s₃) :
    Makes P s₁ s₃ := by
  obtain ⟨calls, hlog, hcalls⟩ := h
  obtain ⟨calls', hlog', hcalls'⟩ := h'
  refine ⟨calls ++ calls', by rw [hlog', hlog, List.append_assoc], fun c hc => ?_⟩
  exact (List.mem_append.mp hc).elim (hcalls c) (hcalls' c)

theorem Makes.mono {Q : GuestCall → Prop} (h : Makes P s s') (hPQ : ∀ c, P c → Q c) :
    Makes Q s s' := by
  obtain ⟨calls, hlog, hcalls⟩ := h
  exact ⟨calls, hlog, fun c hc => hPQ c (hcalls c hc)⟩

theorem log_call (guest : Guest ε) (c : GuestCall) (s : AgentRuntime ε) :
    (stateOf (call guest c s)).log = s.log ++ [c] := by
  unfold call
  dsimp only
  cases (guest.perform c s.machine).1 <;> rfl

theorem stateOf_look (f : ε → Except φ α) (s : AgentRuntime ε) :
    stateOf (look f s) = s := by
  unfold look
  cases f s.machine <;> rfl

theorem stateOf_mapError (f : φ → ψ) (x : EStateM φ (AgentRuntime ε) α) (s : AgentRuntime ε) :
    stateOf (mapError f x s) = stateOf (x s) := by
  unfold mapError
  cases x s <;> rfl

/-- What a handler does: calls of a kind, and nothing to the nonces and the cached responses. -/
structure Serves (P : GuestCall → Prop) (s s' : AgentRuntime ε) : Prop where
  makes : Makes P s s'
  replay : s'.replay = s.replay

theorem Serves.refl (s : AgentRuntime ε) : Serves P s s := ⟨.of_log rfl, rfl⟩

instance : IsTrans (AgentRuntime ε) (Serves P) where
  trans s₁ s₂ s₃ h h' := ⟨h.makes.trans s₁ s₂ s₃ h'.makes, h'.replay.trans h.replay⟩

theorem replay_call (guest : Guest ε) (c : GuestCall) (s : AgentRuntime ε) :
    (stateOf (call guest c s)).replay = s.replay := by
  unfold call
  dsimp only
  cases (guest.perform c s.machine).1 <;> rfl

theorem call_serves {guest : Guest ε} {c : GuestCall} (h : P c) :
    Always (Serves P) (call guest c) := by
  refine fun s => ⟨⟨[c], log_call guest c s, fun c' hc' => ?_⟩, replay_call guest c s⟩
  rw [List.mem_singleton.mp hc']
  exact h

theorem look_serves (f : ε → Except φ α) : Always (Serves P) (look f) := by
  intro s
  rw [stateOf_look]
  exact .refl s

theorem throw_serves (e : φ) : Always (Serves P) (throw e : EStateM φ (AgentRuntime ε) α) :=
  .throw Serves.refl e

theorem pure_serves (a : α) : Always (Serves P) (pure a : EStateM φ (AgentRuntime ε) α) :=
  .pure Serves.refl a

theorem update_serves {f : AgentRuntime ε → AgentRuntime ε} (h : ∀ s, (f s).log = s.log)
    (h' : ∀ s, (f s).replay = s.replay) :
    Always (Serves P) (update f : EStateM φ (AgentRuntime ε) Unit) :=
  fun s => ⟨.of_log (h s), h' s⟩

theorem mapError_serves {x : EStateM φ (AgentRuntime ε) α} (f : φ → ψ) (h : Always (Serves P) x) :
    Always (Serves P) (mapError f x) := by
  intro s
  rw [stateOf_mapError]
  exact h s

theorem bind_serves {x : EStateM φ (AgentRuntime ε) α} {f : α → EStateM φ (AgentRuntime ε) β}
    (hx : Always (Serves P) x) (hf : ∀ a, Always (Serves P) (f a)) :
    Always (Serves P) (x >>= f) :=
  hx.bind hf

theorem noted_serves {f : AgentRuntime ε → AgentRuntime ε} {a : α}
    (h : ∀ s, (f s).log = s.log := by intro; rfl)
    (h' : ∀ s, (f s).replay = s.replay := by intro; rfl) :
    Always (Serves P) (update f >>= fun _ => pure a : EStateM φ (AgentRuntime ε) α) :=
  bind_serves (update_serves h h') fun _ => pure_serves a

end AgentRuntime

namespace RequestHandler

open AgentRuntime

variable {ε : Type} {P : GuestCall → Prop} {crates : Crates} {guest : Guest ε}
  {policy : AgentPolicy}
variable {params : Json}

theorem jsonResult_serves {c : GuestCall} (h : P c) : Always (Serves P) (jsonResult guest c) :=
  mapError_serves _ (call_serves h)

theorem ebpfResult_serves {c : GuestCall} (h : P c) : Always (Serves P) (ebpfResult guest c) :=
  mapError_serves _ (call_serves h)

theorem execSync_serves (h : ∀ program args, P (.exec program args)) :
    Always (Serves P) (execSync guest params) := by
  unfold execSync
  split
  · exact throw_serves _
  · exact mapError_serves _ (call_serves (h _ _))

theorem exec_serves (h : ∀ program args, P (.exec program args)) :
    Always (Serves P) (exec guest policy params) := by
  unfold exec
  split
  · exact mapError_serves _ (execSync_serves h)
  · exact throw_serves _

theorem enableRdp_serves (h : P .enableRdp) : Always (Serves P) (enableRdp guest) := by
  unfold enableRdp
  split
  · exact call_serves h
  · exact throw_serves _

theorem disableRdp_serves (h : P .disableRdp) : Always (Serves P) (disableRdp guest) := by
  unfold disableRdp
  split
  · exact call_serves h
  · exact throw_serves _

theorem runFixPlan_serves (h : ∀ dryRun plan, P (.applyPlan dryRun plan)) :
    Always (Serves P) (runFixPlan crates guest params) := by
  unfold runFixPlan
  split
  · exact throw_serves _
  · split
    · exact throw_serves _
    · split
      · exact throw_serves _
      · exact bind_serves (mapError_serves _ (call_serves (h _ _))) fun _ => pure_serves _

theorem runFixPlanRollback_serves (h : ∀ planId, P (.rollbackPlan planId)) :
    Always (Serves P) (runFixPlanRollback guest params) := by
  unfold runFixPlanRollback
  split
  · exact throw_serves _
  · exact bind_serves (mapError_serves _ (call_serves (h _))) fun _ => pure_serves _

theorem repairPlan_serves {includeDestructive : Bool} :
    Always (Serves P) (repairPlan crates guest params includeDestructive) := by
  unfold repairPlan
  split
  · split
    · exact throw_serves _
    · exact pure_serves _
  · exact mapError_serves _ (look_serves _)

theorem migrationRepair_serves (h : ∀ dryRun plan, P (.repair dryRun plan)) :
    Always (Serves P) (migrationRepair crates guest policy params) := by
  unfold migrationRepair
  dsimp only
  split
  · exact throw_serves _
  · split
    · exact throw_serves _
    · exact bind_serves repairPlan_serves fun _ => mapError_serves _ (call_serves (h _ _))

theorem cutoverEnter_serves (h : P (.enterCutover params)) :
    Always (Serves P) (cutoverEnter guest params) := by
  refine Always.get_bind fun s => ?_
  dsimp only
  split
  · exact throw_serves _
  · exact throw_serves _
  · exact jsonResult_serves h

theorem restartUnit_serves (h : ∀ unit, P (.restartUnit unit)) :
    Always (Serves P) (restartUnit guest params) := by
  unfold restartUnit
  split
  · exact throw_serves _
  · exact bind_serves (jsonResult_serves (h _)) fun _ => pure_serves _

theorem controlUnit_serves {op : String} (h : ∀ unit, P (.controlUnit op unit)) :
    Always (Serves P) (controlUnit guest params op) := by
  unfold controlUnit
  split
  · exact throw_serves _
  · exact bind_serves (jsonResult_serves (h _)) fun _ => pure_serves _

theorem viaHelper_serves {c : Bool → GuestCall} (h : ∀ helper, P (c helper)) :
    Always (Serves P) (viaHelper guest c) := by
  refine Always.get_bind fun s => ?_
  dsimp only
  split
  · exact bind_serves ((jsonResult_serves (h true)).tryCatch fun _ =>
      jsonResult_serves (h false)) fun _ => pure_serves _
  · exact bind_serves (jsonResult_serves (h false)) fun _ => pure_serves _

theorem powerAction_serves {action : String}
    (h : ∀ helper delaySecs, P (.powerAction helper action delaySecs)) :
    Always (Serves P) (powerAction guest policy params action) := by
  unfold powerAction
  split
  · exact throw_serves _
  · exact viaHelper_serves fun helper => h helper _

theorem freeze_serves (h : P (.fsfreeze false)) (h' : ∀ volume, P (.createMarkerShadow volume)) :
    Always (Serves P) (guestFsfreezeFreeze guest) := by
  unfold guestFsfreezeFreeze
  split
  · exact bind_serves (mapError_serves _ (call_serves (h' _))) fun _ => noted_serves
  · exact bind_serves (call_serves h) fun _ => noted_serves

theorem thaw_serves (h : P (.fsfreeze true)) (h' : ∀ id, P (.deleteMarkerShadow id)) :
    Always (Serves P) (guestFsfreezeThaw guest) := by
  unfold guestFsfreezeThaw
  split
  · refine Always.get_bind fun s =>
      bind_serves (update_serves (fun _ => rfl) fun _ => rfl) fun _ => ?_
    split
    · exact bind_serves (mapError_serves _ (call_serves (h' _))) fun _ => noted_serves
    · exact noted_serves
  · exact bind_serves (call_serves h) fun _ => noted_serves

theorem subscribeEvents_serves {chan : Option ChannelHandle} :
    Always (Serves P) (subscribeEvents params chan : Handler ε Json) := by
  unfold subscribeEvents
  split
  · exact throw_serves _
  · split
    · exact throw_serves _
    · dsimp only
      split
      · exact throw_serves _
      · exact noted_serves

theorem unsubscribeEvents_serves {chan : Option ChannelHandle} :
    Always (Serves P) (unsubscribeEvents chan : Handler ε Json) := by
  unfold unsubscribeEvents
  split
  · exact noted_serves
  · exact pure_serves _

theorem serve_serves (method : RpcMethod) (params : Json) (chan : Option ChannelHandle) :
    Always (Serves fun c => c.method = method ∧ isNegotiation method = false)
      (serve crates guest policy method params chan) := by
  cases method
  case exec => exact exec_serves fun _ _ => ⟨rfl, rfl⟩
  case enableRdp => exact mapError_serves _ (enableRdp_serves ⟨rfl, rfl⟩)
  case disableRdp => exact mapError_serves _ (disableRdp_serves ⟨rfl, rfl⟩)
  case runFixPlan => exact runFixPlan_serves fun _ _ => ⟨rfl, rfl⟩
  case runFixPlanRollback => exact runFixPlanRollback_serves fun _ => ⟨rfl, rfl⟩
  case freezeFilesystem =>
    exact bind_serves (mapError_serves _ (bind_serves (mapError_serves _ (freeze_serves ⟨rfl, rfl⟩
      fun _ => ⟨rfl, rfl⟩)) fun _ => noted_serves)) fun _ => pure_serves _
  case thawFilesystem =>
    exact bind_serves (mapError_serves _ (bind_serves (mapError_serves _ (thaw_serves ⟨rfl, rfl⟩
      fun _ => ⟨rfl, rfl⟩)) fun _ => noted_serves)) fun _ => pure_serves _
  case restartUnit => exact restartUnit_serves fun _ => ⟨rfl, rfl⟩
  case subscribeEvents => exact subscribeEvents_serves
  case unsubscribeEvents => exact unsubscribeEvents_serves
  case migrationRepair => exact migrationRepair_serves fun _ _ => ⟨rfl, rfl⟩
  case migrationCutoverEnter => exact cutoverEnter_serves ⟨rfl, rfl⟩
  case startUnit => exact controlUnit_serves fun _ => ⟨rfl, rfl⟩
  case stopUnit => exact controlUnit_serves fun _ => ⟨rfl, rfl⟩
  case fileWrite => exact mapError_serves _ (call_serves ⟨rfl, rfl⟩)
  case timeSyncNow => exact viaHelper_serves fun _ => ⟨rfl, rfl⟩
  case reboot => exact powerAction_serves fun _ _ => ⟨rfl, rfl⟩
  case shutdown => exact powerAction_serves fun _ _ => ⟨rfl, rfl⟩
  case ping => exact pure_serves _
  case setTime => exact throw_serves _
  case unknown => exact throw_serves _
  case fileRead => exact mapError_serves _ (look_serves _)
  case fileStat => exact mapError_serves _ (look_serves _)
  case fileList => exact mapError_serves _ (look_serves _)
  case fileChecksum => exact mapError_serves _ (look_serves _)
  -- what is left calls one function of the agent, or only looks at the guest
  all_goals first
    | exact look_serves _
    | exact jsonResult_serves ⟨rfl, rfl⟩
    | exact ebpfResult_serves ⟨rfl, rfl⟩

theorem dispatch_serves (req : JsonRpcRequest) (chan : Option ChannelHandle) :
    Always (Serves fun c => c.method = req.rpcMethod ∧ isNegotiation req.rpcMethod = false)
      (dispatch crates guest policy req chan) := by
  intro s
  have hserve : Serves (fun c => c.method = req.rpcMethod ∧ isNegotiation req.rpcMethod = false) s
      (stateOf (serve crates guest policy req.rpcMethod req.params chan s)) :=
    serve_serves req.rpcMethod req.params chan s
  unfold dispatch
  cases h : serve crates guest policy req.rpcMethod req.params chan s with
  | ok result s₁ =>
    rw [h] at hserve
    exact hserve
  | error f s₁ =>
    rw [h] at hserve
    exact hserve

theorem dispatch_replay (req : JsonRpcRequest) (chan : Option ChannelHandle)
    (s : AgentRuntime ε) : (stateOf (dispatch crates guest policy req chan s)).replay = s.replay :=
  (dispatch_serves req chan s).replay

end RequestHandler

end Guestkit

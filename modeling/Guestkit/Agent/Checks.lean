import Guestkit.Agent.Calls

/-! What the checks of a JSON-RPC request do: which requests pass them, and what they change. -/

namespace Guestkit.RequestHandler

open Lib AgentRuntime

variable {ε : Type} {crates : Crates} {policy : AgentPolicy} {req : JsonRpcRequest}
  {s s' s1 : AgentRuntime ε}

def Audits (s s' : AgentRuntime ε) : Prop := ∃ trail, s' = { s with auditLog := trail }

theorem Audits.refl (s : AgentRuntime ε) : Audits s s := ⟨s.auditLog, rfl⟩

theorem Audits.log (h : Audits s s') : s'.log = s.log := by
  obtain ⟨trail, rfl⟩ := h
  rfl

theorem Audits.replay (h : Audits s s') : s'.replay = s.replay := by
  obtain ⟨trail, rfl⟩ := h
  rfl

theorem audited (method outcome detail : String) (resp : JsonRpcResponse) (s : AgentRuntime ε) :
    ∃ s', (audit method outcome detail >>= fun _ => answer resp : AgentM ε Unit) s =
      .error (.answer resp) s' ∧ Audits s s' :=
  ⟨_, rfl, _, rfl⟩

variable (crates) in
theorem parse_cases (bytes : Bytes) (s : AgentRuntime ε) :
    (∃ req, crates.parseRequest bytes = .ok req ∧ req.validate = .ok () ∧
      parse crates bytes s = .ok req s) ∨
    ∃ resp, parse crates bytes s = .error (.answer resp) s := by
  unfold parse
  cases hparse : crates.parseRequest bytes with
  | error e => exact .inr ⟨_, rfl⟩
  | ok req =>
    dsimp only
    cases hvalidate : req.validate with
    | error e => exact .inr ⟨_, rfl⟩
    | ok => exact .inl ⟨req, rfl, hvalidate, rfl⟩

def Permitted (crates : Crates) (policy : AgentPolicy) (req : JsonRpcRequest) : Prop :=
  isNegotiation req.rpcMethod = true ∨
    policy.authorize crates.glob req.rpcMethod req.method = .ok ()

variable (crates policy) in
theorem authorize_cases (req : JsonRpcRequest) (s : AgentRuntime ε) :
    (Permitted crates policy req ∧ authorize crates policy req s = .ok () s) ∨
    (¬ Permitted crates policy req ∧
      ∃ resp s', authorize crates policy req s = .error (.answer resp) s' ∧ Audits s s') := by
  unfold authorize Permitted
  cases hnegotiation : isNegotiation req.rpcMethod with
  | true => exact .inl ⟨.inl rfl, rfl⟩
  | false =>
    rw [if_neg Bool.false_ne_true]
    cases hpolicy : policy.authorize crates.glob req.rpcMethod req.method with
    | ok => exact .inl ⟨.inr rfl, rfl⟩
    | error e =>
      obtain ⟨s', hs', haudits⟩ := audited req.method "policy_denied" ""
        (.fromAgentError req.id e) s
      exact .inr ⟨by simp, _, s', hs', haudits⟩

/-- The request is not too old. -/
def Timely (crates : Crates) (policy : AgentPolicy) (utcNow : Int) (req : JsonRpcRequest) : Prop :=
  match req.ts with
  | some ts => ∃ issued due, crates.parseFromRfc3339 ts = .ok issued ∧
      deadline crates issued (requestTtl policy req) = .ok due ∧ utcNow ≤ due
  | none => policy.security.requireRequestExpiry = false

variable (crates policy) in
theorem checkExpiry_cases (utcNow : Int) (req : JsonRpcRequest) (s : AgentRuntime ε) :
    (Timely crates policy utcNow req ∧ checkExpiry crates policy utcNow req s = .ok () s) ∨
    (¬ Timely crates policy utcNow req ∧
      ∃ e s', checkExpiry crates policy utcNow req s = .error e s' ∧ Audits s s') := by
  unfold checkExpiry Timely
  cases req.ts with
  | none =>
    dsimp only
    cases policy.security.requireRequestExpiry with
    | true => exact .inr ⟨Bool.noConfusion, _, s, rfl, .refl s⟩
    | false => exact .inl ⟨rfl, rfl⟩
  | some ts =>
    dsimp only
    cases crates.parseFromRfc3339 ts with
    | error e => exact .inr ⟨by simp, _, s, rfl, .refl s⟩
    | ok issued =>
      dsimp only
      cases hdue : deadline crates issued (requestTtl policy req) with
      | error e => exact .inr ⟨by simp [hdue], _, s, rfl, .refl s⟩
      | ok due =>
        dsimp only
        by_cases hlate : utcNow > due
        · rw [if_pos hlate]
          obtain ⟨s', hs', haudits⟩ := audited req.method "expired" "" _ s
          refine .inr ⟨?_, _, s', hs', haudits⟩
          rintro ⟨issued', due', hissued, hdue', hle⟩
          obtain rfl := Except.ok.inj hissued
          obtain rfl := Except.ok.inj (hdue.symm.trans hdue')
          omega
        · rw [if_neg hlate]
          exact .inl ⟨⟨issued, due, rfl, hdue, by omega⟩, rfl⟩

theorem checkNonce_none (h : req.nonce = none) : checkNonce policy req s = .ok () s := by
  unfold checkNonce
  rw [h]
  rfl

variable (policy) in
theorem checkNonce_seen {nonce : String} (h : req.nonce = some nonce)
    (hseen : nonce ∈ s.replay.nonces) :
    ∃ s', checkNonce policy req s = .error (.answer (.fromAgentError req.id
      (.replayDetected s!"nonce {nonce} already used"))) s' ∧ Audits s s' := by
  have hfresh : s.replay.nonceFresh nonce policy.security.nonceCacheSize = (false, s.replay) :=
    if_pos hseen
  unfold checkNonce
  rw [h]
  dsimp only
  rw [bind_of_ok (modifyGet_eq _ s), hfresh, if_neg Bool.false_ne_true]
  exact audited req.method "replay" "" _ s

theorem checkNonce_fresh {nonce : String} (h : req.nonce = some nonce)
    (hseen : nonce ∉ s.replay.nonces) :
    checkNonce policy req s = .ok () { s with
      replay := (s.replay.nonceFresh nonce policy.security.nonceCacheSize).2 } := by
  have hfresh : (s.replay.nonceFresh nonce policy.security.nonceCacheSize).1 = true := by
    unfold ReplayCache.nonceFresh
    rw [if_neg hseen]
  unfold checkNonce
  rw [h]
  dsimp only
  rw [bind_of_ok (modifyGet_eq _ s), if_pos hfresh]
  rfl

def recorded (policy : AgentPolicy) (req : JsonRpcRequest) (s : AgentRuntime ε) : AgentRuntime ε :=
  match req.nonce with
  | none => s
  | some nonce =>
    { s with replay := (s.replay.nonceFresh nonce policy.security.nonceCacheSize).2 }

def NonceFresh (req : JsonRpcRequest) (s : AgentRuntime ε) : Prop :=
  ∀ nonce, req.nonce = some nonce → nonce ∉ s.replay.nonces

variable (policy) in
theorem checkNonce_cases (req : JsonRpcRequest) (s : AgentRuntime ε) :
    (NonceFresh req s ∧ checkNonce policy req s = .ok () (recorded policy req s)) ∨
    (¬ NonceFresh req s ∧
      ∃ resp s', checkNonce policy req s = .error (.answer resp) s' ∧ Audits s s') := by
  cases h : req.nonce with
  | none =>
    refine .inl ⟨fun nonce hnonce => absurd (h.symm.trans hnonce) (by simp), ?_⟩
    rw [checkNonce_none h]
    unfold recorded
    rw [h]
  | some nonce =>
    by_cases hseen : nonce ∈ s.replay.nonces
    · exact .inr ⟨fun hfresh => hfresh nonce h hseen, _, checkNonce_seen policy h hseen⟩
    · refine .inl ⟨fun nonce' hnonce' => ?_, ?_⟩
      · obtain rfl := Option.some.inj (h.symm.trans hnonce')
        exact hseen
      · rw [checkNonce_fresh h hseen]
        unfold recorded
        rw [h]

theorem recorded_log : (recorded policy req s).log = s.log := by
  unfold recorded
  cases req.nonce <;> rfl

theorem checkIdempotent_none {now : Nat} (h : req.idempotencyKey = none) :
    checkIdempotent now req s = .ok () s := by
  unfold checkIdempotent
  rw [h]
  rfl

theorem checkIdempotent_eq {now : Nat} {key : String} (h : req.idempotencyKey = some key) :
    checkIdempotent now req s =
      match (s.replay.idempotentGet key now).1 with
      | some resp => .error (.answer { resp with id := req.id })
          { s with replay := (s.replay.idempotentGet key now).2 }
      | none => .ok () { s with replay := (s.replay.idempotentGet key now).2 } := by
  unfold checkIdempotent
  rw [h]
  dsimp only
  rw [bind_of_ok (modifyGet_eq _ s)]
  cases (s.replay.idempotentGet key now).1 <;> rfl

theorem checkIdempotent_log {now : Nat} :
    (stateOf (checkIdempotent now req s)).log = s.log := by
  cases h : req.idempotencyKey with
  | none => rw [checkIdempotent_none h]; rfl
  | some key =>
    rw [checkIdempotent_eq h]
    cases (s.replay.idempotentGet key now).1 <;> rfl

variable (crates policy) in
theorem enforceSecurity_cases (times : Times) (req : JsonRpcRequest) (s : AgentRuntime ε) :
    (∃ e s', enforceSecurity crates policy times req s = .error e s' ∧ Audits s s') ∨
    (Timely crates policy times.utc req ∧ NonceFresh req s ∧
      enforceSecurity crates policy times req s =
        checkIdempotent times.lookup req (recorded policy req s)) := by
  unfold enforceSecurity
  obtain ⟨htimely, hok⟩ | ⟨-, e, s', herror, haudits⟩ :=
    checkExpiry_cases crates policy times.utc req s
  · rw [bind_of_ok hok]
    obtain ⟨hfresh, hok⟩ | ⟨-, resp, s', herror, haudits⟩ := checkNonce_cases policy req s
    · rw [bind_of_ok hok]
      exact .inr ⟨htimely, hfresh, rfl⟩
    · rw [bind_of_error herror]
      exact .inl ⟨_, s', rfl, haudits⟩
  · rw [bind_of_error herror]
    exact .inl ⟨e, s', rfl, haudits⟩

variable (crates policy) in
/-- A request is turned away with nothing changed, or let through as it is, or, if it is a mutating
one, passes all checks up to that for a cached response. -/
theorem accept_cases (times : Times) (bytes : Bytes) (s : AgentRuntime ε) :
    (∃ e s', accept crates policy times bytes s = .error e s' ∧ Audits s s') ∨
    ∃ req, crates.parseRequest bytes = .ok req ∧ Permitted crates policy req ∧
      ((req.rpcMethod.isMutating = false ∧ accept crates policy times bytes s = .ok req s) ∨
        (req.rpcMethod.isMutating = true ∧ Timely crates policy times.utc req ∧
          NonceFresh req s ∧
          accept crates policy times bytes s =
            (checkIdempotent times.lookup req >>= fun _ => pure req) (recorded policy req s))) := by
  unfold accept
  obtain ⟨req, hparse, -, hok⟩ | ⟨resp, herror⟩ := parse_cases crates bytes s
  · rw [bind_of_ok hok]
    obtain ⟨hpermitted, hok⟩ | ⟨-, resp, s', herror, haudits⟩ :=
      authorize_cases crates policy req s
    · rw [bind_of_ok hok]
      cases hmutating : req.rpcMethod.isMutating with
      | false => exact .inr ⟨req, hparse, hpermitted, .inl ⟨hmutating, rfl⟩⟩
      | true =>
        rw [if_pos rfl]
        obtain ⟨e, s', herror, haudits⟩ | ⟨htimely, hfresh, hsecurity⟩ :=
          enforceSecurity_cases crates policy times req s
        · rw [bind_of_error herror]
          exact .inl ⟨e, s', rfl, haudits⟩
        · refine .inr ⟨req, hparse, hpermitted, .inr ⟨hmutating, htimely, hfresh, ?_⟩⟩
          cases h : checkIdempotent times.lookup req (recorded policy req s) with
          | ok a s1 => rw [bind_of_ok (hsecurity.trans h), bind_of_ok h]
          | error e s1 => rw [bind_of_error (hsecurity.trans h), bind_of_error h]
    · rw [bind_of_error herror]
      exact .inl ⟨_, s', rfl, haudits⟩
  · rw [bind_of_error herror]
    exact .inl ⟨_, s, rfl, .refl s⟩

theorem accept_log (times : Times) (bytes : Bytes) (s : AgentRuntime ε) :
    (stateOf (accept crates policy times bytes s)).log = s.log := by
  obtain ⟨e, s', herror, haudits⟩ | ⟨req, -, -, ⟨-, hok⟩ | ⟨-, -, -, heq⟩⟩ :=
    accept_cases crates policy times bytes s
  · rw [herror]
    exact haudits.log
  · rw [hok]
    rfl
  · have hlog : (stateOf (checkIdempotent times.lookup req (recorded policy req s))).log = s.log :=
      checkIdempotent_log.trans recorded_log
    rw [heq]
    cases h : checkIdempotent times.lookup req (recorded policy req s) with
    | ok a s1 =>
      rw [h] at hlog
      rw [bind_of_ok h]
      exact hlog
    | error e s1 =>
      rw [h] at hlog
      rw [bind_of_error h]
      exact hlog

theorem permitted_of_accept {times : Times} {bytes : Bytes}
    (h : accept crates policy times bytes s = .ok req s1) : Permitted crates policy req := by
  obtain ⟨e, s', herror, -⟩ | ⟨req', -, hpermitted, ⟨-, hok⟩ | ⟨-, -, -, heq⟩⟩ :=
    accept_cases crates policy times bytes s
  · cases h.symm.trans herror
  · obtain rfl : req = req' := (EStateM.Result.ok.inj (h.symm.trans hok)).1
    exact hpermitted
  · obtain ⟨-, s2, -, hpure⟩ := bind_eq_ok (heq.symm.trans h)
    obtain rfl : req' = req := (EStateM.Result.ok.inj hpure).1
    exact hpermitted

theorem settle_log (now : Nat) (req : JsonRpcRequest) (resp : JsonRpcResponse)
    (s : AgentRuntime ε) : (stateOf (settle now req resp s)).log = s.log := by
  unfold settle
  cases req.idempotencyKey with
  | none => rfl
  | some key => cases resp.error <;> rfl

theorem stateOf_returning (x : AgentM ε JsonRpcResponse) (s : AgentRuntime ε) :
    stateOf (returning x s) = stateOf (x s) := by
  unfold returning
  cases h : x s with
  | ok resp s1 => rw [tryCatch_of_ok h]
  | error e s1 =>
    rw [tryCatch_of_error h]
    cases e <;> rfl

end Guestkit.RequestHandler

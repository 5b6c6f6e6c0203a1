import Guestkit.Agent.Checks
import Guestkit.Lib.Recent

/-! Replays of mutating requests: the nonces that the agent remembers and the time in which a
request is accepted, over all requests that arrive one after the other. -/

namespace Guestkit

open Lib List

namespace ReplayCache

variable {history : List String}

structure Remembers (c : ℕ) (history : List String) (cache : ReplayCache) : Prop where
  order : cache.nonceOrder = history.rtake c
  nonces : cache.nonces = cache.nonceOrder.toFinset
  nodup : cache.nonceOrder.Nodup

theorem evict_eq (cap : ℕ) {order : List String} (h : order.Nodup) :
    evict cap order order.toFinset =
      (order.rtake (max cap 1), (order.rtake (max cap 1)).toFinset) := by
  induction order with
  | nil => simp [evict]
  | cons old order ih =>
    rw [nodup_cons] at h
    unfold evict
    by_cases hlen : (old :: order).length > max cap 1
    · have herase : (old :: order).toFinset.erase old = order.toFinset := by
        rw [toFinset_cons, Finset.erase_insert (by simpa using h.1)]
      have hrtake : (old :: order).rtake (max cap 1) = order.rtake (max cap 1) := by
        unfold List.rtake
        rw [length_cons] at hlen ⊢
        rw [show order.length + 1 - max cap 1 = order.length - max cap 1 + 1 by omega,
          drop_succ_cons]
      rw [if_pos hlen, herase, ih h.2, hrtake]
    · have hrtake : (old :: order).rtake (max cap 1) = old :: order := by
        unfold List.rtake
        rw [show (old :: order).length - max cap 1 = 0 by omega, drop_zero]
      rw [if_neg hlen, hrtake]

theorem Remembers.mem_iff {c : ℕ} {cache : ReplayCache} {nonce : String}
    (h : cache.Remembers c history) : nonce ∈ cache.nonces ↔ nonce ∈ history.rtake c := by
  rw [h.nonces, mem_toFinset, h.order]

theorem Remembers.nonceFresh {c kept cap : ℕ} {cache : ReplayCache} {nonce : String}
    (h : cache.Remembers c history) (hnonce : nonce ∉ cache.nonces)
    (hkept : kept = min (c + 1) (max cap 1)) :
    (cache.nonceFresh nonce cap).2.Remembers kept (history ++ [nonce]) := by
  have hnew : nonce ∉ cache.nonceOrder := by
    rwa [h.nonces, mem_toFinset] at hnonce
  have hnodup : (cache.nonceOrder ++ [nonce]).Nodup := by
    refine nodup_append.mpr ⟨h.nodup, by simp, fun x hx y hy heq => hnew ?_⟩
    rwa [← mem_singleton.mp hy, ← heq]
  have hset : insert nonce cache.nonces = (cache.nonceOrder ++ [nonce]).toFinset := by
    rw [h.nonces, toFinset_append, Finset.union_comm]
    rfl
  have hevict := evict_eq cap hnodup
  unfold ReplayCache.nonceFresh
  rw [if_neg hnonce, hset, hevict]
  refine ⟨?_, rfl, hnodup.sublist (drop_sublist _ _)⟩
  rw [h.order, hkept]
  exact rtake_rtake_concat (by omega) c history nonce

structure SameNonces (cache cache' : ReplayCache) : Prop where
  order : cache'.nonceOrder = cache.nonceOrder
  nonces : cache'.nonces = cache.nonces

theorem SameNonces.refl (cache : ReplayCache) : SameNonces cache cache := ⟨rfl, rfl⟩

theorem SameNonces.trans {c1 c2 c3 : ReplayCache} (h : SameNonces c1 c2) (h' : SameNonces c2 c3) :
    SameNonces c1 c3 :=
  ⟨h'.order.trans h.order, h'.nonces.trans h.nonces⟩

theorem Remembers.same {c : ℕ} {cache cache' : ReplayCache} (h : cache.Remembers c history)
    (hsame : SameNonces cache cache') :
    cache'.Remembers c history :=
  ⟨hsame.order.trans h.order, by rw [hsame.nonces, hsame.order, h.nonces], hsame.order ▸ h.nodup⟩

/-- The cache after calls with these nonces, each with the capacity at its time. -/
def afterCalls (calls : List (String × ℕ)) : ReplayCache :=
  calls.foldl (fun cache call => (cache.nonceFresh call.1 call.2).2) {}

/-- The nonces that calls have accepted, the oldest first, and how many of the newest are left: a
call evicts the oldest ones until its capacity holds the others, and the nonce of the call always
stays. -/
def accept (a : List String × ℕ) (call : String × ℕ) : List String × ℕ :=
  if call.1 ∈ a.1.rtake a.2 then a else (a.1 ++ [call.1], min (a.2 + 1) (max call.2 1))

def acceptedBy (calls : List (String × ℕ)) : List String × ℕ := calls.foldl accept ([], 0)

theorem Remembers.call {cache : ReplayCache} {a : List String × ℕ} (h : cache.Remembers a.2 a.1)
    (call : String × ℕ) :
    (cache.nonceFresh call.1 call.2).2.Remembers (accept a call).2 (accept a call).1 := by
  unfold accept
  by_cases hnonce : call.1 ∈ cache.nonces
  · rw [if_pos (h.mem_iff.mp hnonce), ReplayCache.nonceFresh, if_pos hnonce]
    exact h
  · rw [if_neg (h.mem_iff.not.mp hnonce)]
    exact h.nonceFresh hnonce rfl

theorem afterCalls_remembers (calls : List (String × ℕ)) :
    (afterCalls calls).Remembers (acceptedBy calls).2 (acceptedBy calls).1 :=
  foldl_rel (r := fun cache (a : List String × ℕ) => Remembers a.2 a.1 cache) ⟨rfl, rfl, nodup_nil⟩
    fun call _ _ _ h => h.call call

/-- Over any calls, the set holds what the queue does, the queue holds nothing twice, and a nonce is
refused exactly if it has been accepted and not been evicted since. -/
theorem nonceFresh_eq_false_iff (calls : List (String × ℕ)) (nonce : String) (cap : ℕ) :
    (afterCalls calls).nonces = (afterCalls calls).nonceOrder.toFinset ∧
      (afterCalls calls).nonceOrder.Nodup ∧
      (afterCalls calls).nonceOrder = (acceptedBy calls).1.rtake (acceptedBy calls).2 ∧
      (((afterCalls calls).nonceFresh nonce cap).1 = false ↔
        nonce ∈ (acceptedBy calls).1.rtake (acceptedBy calls).2) := by
  have h := afterCalls_remembers calls
  refine ⟨h.nonces, h.nodup, h.order, ?_⟩
  rw [← h.mem_iff, nonceFresh]
  split <;> simp [*]

end ReplayCache

namespace RequestHandler

open AgentRuntime ReplayCache

variable {ε : Type} {crates : Crates} {guest : Guest ε} {policy : AgentPolicy}
  {req : JsonRpcRequest} {s s1 : AgentRuntime ε}

theorem checkIdempotent_sameNonces {now : ℕ} :
    SameNonces s.replay (stateOf (checkIdempotent now req s)).replay := by
  cases h : req.idempotencyKey with
  | none =>
    rw [checkIdempotent_none h]
    exact .refl _
  | some key =>
    rw [checkIdempotent_eq h]
    cases (s.replay.idempotentGet key now).1 <;> exact ⟨rfl, rfl⟩

theorem settle_sameNonces (now : ℕ) (resp : JsonRpcResponse) :
    SameNonces s.replay (stateOf (settle now req resp s)).replay := by
  unfold settle
  cases req.idempotencyKey with
  | none => exact .refl _
  | some key => cases resp.error <;> exact ⟨rfl, rfl⟩

theorem handleOn_sameNonces (times : Times) (bytes : Bytes) (chan : Option ChannelHandle)
    (s : AgentRuntime ε) :
    SameNonces (stateOf (accept crates policy times bytes s)).replay
      (stateOf (handleOn crates guest policy times bytes chan s)).replay := by
  unfold handleOn
  rw [stateOf_returning]
  cases haccept : accept crates policy times bytes s with
  | error e s1 =>
    rw [bind_of_error haccept]
    exact .refl _
  | ok req s1 =>
    rw [bind_of_ok haccept]
    have hdispatch : (stateOf (dispatch crates guest policy req chan s1)).replay = s1.replay :=
      dispatch_replay req chan s1
    cases h : dispatch crates guest policy req chan s1 with
    | error e s2 =>
      rw [h] at hdispatch
      rw [bind_of_error h]
      exact ⟨congrArg nonceOrder hdispatch, congrArg nonces hdispatch⟩
    | ok resp s2 =>
      rw [h] at hdispatch
      rw [bind_of_ok h]
      refine SameNonces.trans ⟨congrArg nonceOrder hdispatch, congrArg nonces hdispatch⟩ ?_
      dsimp only
      split
      · rw [stateOf_bind_pure]
        exact settle_sameNonces times.store resp
      · exact .refl _

variable (crates guest policy) in
theorem handleOn_nonces (times : Times) (bytes : Bytes) (chan : Option ChannelHandle)
    (s : AgentRuntime ε) :
    SameNonces s.replay (stateOf (handleOn crates guest policy times bytes chan s)).replay ∨
    ∃ nonce, nonce ∉ s.replay.nonces ∧
      SameNonces (s.replay.nonceFresh nonce policy.security.nonceCacheSize).2
        (stateOf (handleOn crates guest policy times bytes chan s)).replay := by
  have hsame : SameNonces (stateOf (accept crates policy times bytes s)).replay
      (stateOf (handleOn crates guest policy times bytes chan s)).replay :=
    handleOn_sameNonces times bytes chan s
  obtain ⟨e, s', herror, haudits⟩ | ⟨req, -, -, ⟨-, hok⟩ | ⟨-, -, hfresh, heq⟩⟩ :=
    accept_cases crates policy times bytes s
  · rw [herror] at hsame
    exact .inl (SameNonces.trans ⟨congrArg nonceOrder haudits.replay,
      congrArg nonces haudits.replay⟩ hsame)
  · rw [hok] at hsame
    exact .inl hsame
  · rw [heq, stateOf_bind_pure] at hsame
    replace hsame := checkIdempotent_sameNonces.trans hsame
    cases hnonce : req.nonce with
    | none =>
      rw [recorded, hnonce] at hsame
      exact .inl hsame
    | some nonce =>
      rw [recorded, hnonce] at hsame
      exact .inr ⟨nonce, hfresh nonce hnonce, hsame⟩

theorem accept_ok_mutating {times : Times} {bytes : Bytes}
    (h : accept crates policy times bytes s = .ok req s1)
    (hmutating : req.rpcMethod.isMutating = true) :
    Timely crates policy times.utc req ∧ NonceFresh req s ∧
      SameNonces (recorded policy req s).replay s1.replay := by
  obtain ⟨e, s', herror, -⟩ | ⟨req', -, -, ⟨hpure, hok⟩ | ⟨-, htimely, hfresh, heq⟩⟩ :=
    accept_cases crates policy times bytes s
  · cases h.symm.trans herror
  · obtain rfl : req = req' := (EStateM.Result.ok.inj (h.symm.trans hok)).1
    rw [hmutating] at hpure
    cases hpure
  · obtain ⟨⟨⟩, s2, hcheck, hlast⟩ := bind_eq_ok (heq.symm.trans h)
    obtain ⟨rfl, rfl⟩ := EStateM.Result.ok.inj hlast
    have hsame : SameNonces (recorded policy req' s).replay
        (stateOf (checkIdempotent times.lookup req' (recorded policy req' s))).replay :=
      checkIdempotent_sameNonces
    rw [hcheck] at hsame
    exact ⟨htimely, hfresh, hsame⟩

structure Arrival where
  times : Times
  bytes : Bytes
  chan : Option ChannelHandle

variable (crates guest policy)

def stateAt (arrivals : ℕ → Arrival) (start : AgentRuntime ε) : ℕ → AgentRuntime ε
  | 0 => start
  | k + 1 => stateOf (handleOn crates guest policy (arrivals k).times (arrivals k).bytes
      (arrivals k).chan (stateAt arrivals start k))

def Dispatched (arrivals : ℕ → Arrival) (start : AgentRuntime ε) (k : ℕ) (req : JsonRpcRequest) :
    Prop :=
  ∃ s, accept crates policy (arrivals k).times (arrivals k).bytes
    (stateAt crates guest policy arrivals start k) = .ok req s

def Records (arrivals : ℕ → Arrival) (start : AgentRuntime ε) (k : ℕ) (nonce : String) : Prop :=
  nonce ∉ (stateAt crates guest policy arrivals start k).replay.nonces ∧
    nonce ∈ (stateAt crates guest policy arrivals start (k + 1)).replay.nonces

section Runs

variable {crates guest policy} {arrivals : ℕ → Arrival} {start : AgentRuntime ε}
variable {nonce : String}

def recordedAt (crates : Crates) (guest : Guest ε) (policy : AgentPolicy)
    (arrivals : ℕ → Arrival) (start : AgentRuntime ε) (k : ℕ) : Option String :=
  (stateAt crates guest policy arrivals start (k + 1)).replay.nonceOrder.getLast?.filter
    (· ∉ (stateAt crates guest policy arrivals start k).replay.nonces)

theorem nonceOrder_getLast {cap : ℕ} {cache : ReplayCache} {history : List String}
    (h : cache.Remembers (max cap 1) history) (hnonce : nonce ∉ cache.nonces) :
    (cache.nonceFresh nonce cap).2.nonceOrder.getLast? = some nonce := by
  rw [(h.nonceFresh hnonce rfl).order]
  unfold List.rtake
  rw [length_append, length_singleton, drop_append_of_le_length (by omega),
    List.getLast?_concat]

theorem recordedAt_fresh {history : List String} {k : ℕ}
    (h : (stateAt crates guest policy arrivals start k).replay.Remembers
      (max policy.security.nonceCacheSize 1) history)
    (hnonce : nonce ∉ (stateAt crates guest policy arrivals start k).replay.nonces)
    (hsame : SameNonces ((stateAt crates guest policy arrivals start k).replay.nonceFresh nonce
      policy.security.nonceCacheSize).2
      (stateAt crates guest policy arrivals start (k + 1)).replay) :
    recordedAt crates guest policy arrivals start k = some nonce := by
  unfold recordedAt
  rw [hsame.order, nonceOrder_getLast h hnonce, Option.filter_some, if_pos (by simpa using hnonce)]

theorem stateAt_remembers (hstart : start.replay = {}) (k : ℕ) :
    (stateAt crates guest policy arrivals start k).replay.Remembers
      (max policy.security.nonceCacheSize 1)
      (upTo (recordedAt crates guest policy arrivals start) k) := by
  induction k with
  | zero =>
    rw [stateAt, hstart]
    exact ⟨by simp [upTo], rfl, nodup_nil⟩
  | succ k ih =>
    rw [upTo_succ]
    obtain hsame | ⟨nonce, hnonce, hsame⟩ := handleOn_nonces crates guest policy
      (arrivals k).times (arrivals k).bytes (arrivals k).chan
      (stateAt crates guest policy arrivals start k)
    · have hnone : recordedAt crates guest policy arrivals start k = none := by
        unfold recordedAt
        rw [stateAt, hsame.order, Option.filter_eq_none_iff]
        intro last hlast
        have hmem := mem_of_getLast? hlast
        simpa [ih.nonces] using hmem
      rw [hnone, Option.toList_none, append_nil]
      exact ih.same hsame
    · rw [recordedAt_fresh ih hnonce hsame, Option.toList_some]
      exact (ih.nonceFresh hnonce (by omega)).same hsame

theorem recordedAt_new (hstart : start.replay = {}) {k : ℕ}
    (h : recordedAt crates guest policy arrivals start k = some nonce) :
    Records crates guest policy arrivals start k nonce := by
  obtain ⟨hlast, hnew⟩ := Option.filter_eq_some_iff.mp h
  refine ⟨by simpa using hnew, ?_⟩
  rw [(stateAt_remembers hstart (k + 1)).nonces, mem_toFinset]
  exact mem_of_getLast? hlast

theorem recordedAt_of_dispatched (hstart : start.replay = {}) {k : ℕ}
    (h : Dispatched crates guest policy arrivals start k req)
    (hmutating : req.rpcMethod.isMutating = true) (hnonce : req.nonce = some nonce) :
    recordedAt crates guest policy arrivals start k = some nonce := by
  obtain ⟨s1, haccept⟩ := h
  obtain ⟨-, hfresh, hsame⟩ := accept_ok_mutating haccept hmutating
  rw [recorded, hnonce] at hsame
  have hlast : SameNonces (stateOf (accept crates policy (arrivals k).times (arrivals k).bytes
      (stateAt crates guest policy arrivals start k))).replay
        (stateAt crates guest policy arrivals start (k + 1)).replay :=
    handleOn_sameNonces _ _ _ _
  rw [haccept] at hlast
  exact recordedAt_fresh (stateAt_remembers hstart k) (hfresh nonce hnonce) (hsame.trans hlast)

theorem toInt_toInt64_le (n : UInt64) : n.toInt64.toInt ≤ n.toNat := by
  change n.toBitVec.toInt ≤ n.toBitVec.toNat
  rw [BitVec.toInt_eq_toNat_cond]
  split <;> omega

theorem deadline_le {issued due : Int} {ttlMs : UInt64}
    (h : deadline crates issued ttlMs = .ok due) : due ≤ issued + ttlMs.toNat * 1000000 := by
  have hle := toInt_toInt64_le ttlMs
  unfold deadline at h
  dsimp only at h
  split at h
  · cases h
  · split at h
    · obtain rfl := Except.ok.inj h
      omega
    · cases h

end Runs

/-- Of all requests that arrive, a mutating one with a time of issue is dispatched only until its
lifetime is over, and two mutating ones with the same nonce only if as many other nonces as the
cache holds were recorded in between. -/
theorem dispatched_in_time_and_apart (arrivals : ℕ → Arrival) (machine : ε) :
    (∀ k req ts, Dispatched crates guest policy arrivals { machine } k req →
      req.rpcMethod.isMutating = true → req.ts = some ts →
      ∃ issued, crates.parseFromRfc3339 ts = .ok issued ∧
        (arrivals k).times.utc ≤ issued + (requestTtl policy req).toNat * 1000000) ∧
    ∀ i j req req' nonce, i < j →
      Dispatched crates guest policy arrivals { machine } i req →
      Dispatched crates guest policy arrivals { machine } j req' →
      req.rpcMethod.isMutating = true → req'.rpcMethod.isMutating = true →
      req.nonce = some nonce → req'.nonce = some nonce →
      ∃ others : List String, others.length = max policy.security.nonceCacheSize 1 ∧
        others.Nodup ∧ nonce ∉ others ∧ ∀ other ∈ others, ∃ k, i < k ∧ k < j ∧
          Records crates guest policy arrivals { machine } k other := by
  have hstart : ({ machine } : AgentRuntime ε).replay = {} := rfl
  constructor
  · rintro k req ts ⟨s, haccept⟩ hmutating hts
    obtain ⟨htimely, -, -⟩ := accept_ok_mutating haccept hmutating
    rw [Timely, hts] at htimely
    obtain ⟨issued, due, hissued, hdue, hle⟩ := htimely
    exact ⟨issued, hissued, hle.trans (deadline_le hdue)⟩
  · intro i j req req' nonce hij hi hj hmutating hmutating' hnonce hnonce'
    have hfresh : ∀ k x, recordedAt crates guest policy arrivals { machine } k = some x →
        x ∉ (upTo (recordedAt crates guest policy arrivals { machine }) k).rtake
          (max policy.security.nonceCacheSize 1) := by
      intro k x hx
      rw [← (stateAt_remembers hstart k).mem_iff]
      exact (recordedAt_new hstart hx).1
    obtain ⟨others, hlen, hnodup, hnot, hothers⟩ := others_between hfresh hij
      (recordedAt_of_dispatched hstart hi hmutating hnonce)
      (recordedAt_of_dispatched hstart hj hmutating' hnonce')
    refine ⟨others, hlen, hnodup, hnot, fun other hother => ?_⟩
    obtain ⟨k, hik, hkj, hk⟩ := hothers other hother
    exact ⟨k, hik, hkj, recordedAt_new hstart hk⟩

def rebootRequest (nonce : String) : JsonRpcRequest where
  jsonrpc := "2.0"
  method := "guestkit.reboot"
  params := .null
  id := none
  ts := some "2026-01-01T00:00:00Z"
  ttlMs := none
  nonce := some nonce
  idempotencyKey := none

def rebootFrame (nonce : String) : Bytes :=
  ("\x7b\"jsonrpc\":\"2.0\",\"method\":\"guestkit.reboot\",\"params\":null," ++
    "\"ts\":\"2026-01-01T00:00:00Z\",\"nonce\":\"" ++ nonce ++ "\"\x7d").toUTF8.data.toList

def rebootCrates : Crates where
  fromSlice := fun _ => .error "expected value"
  toVec := fun _ => .ok []
  parseRequest := fun bytes =>
    if bytes = rebootFrame "a" then .ok (rebootRequest "a")
    else if bytes = rebootFrame "b" then .ok (rebootRequest "b")
    else .error "expected value"
  fixPlan := fun _ => .error "expected value"
  remediationActions := fun _ => none
  glob := fun _ => none
  parseFromRfc3339 := fun _ => .ok (1767225600 * 10 ^ 9)
  inRange := fun _ => true
  encode := fun text => text

def rebootArrivals (k : ℕ) : Arrival where
  times := ⟨1767222000 * 10 ^ 9, 0, 0⟩
  bytes := rebootFrame (if k = 1 then "b" else "a")
  chan := none

/-- With room for one nonce, a second one lets the first be used again; and a request can be
dispatched before it is issued. -/
theorem nonce_dispatched_twice :
    Dispatched rebootCrates idleGuest { security := { nonceCacheSize := 1 } } rebootArrivals
      { machine := () } 0 (rebootRequest "a") ∧
    Dispatched rebootCrates idleGuest { security := { nonceCacheSize := 1 } } rebootArrivals
      { machine := () } 2 (rebootRequest "a") ∧
    (rebootRequest "a").rpcMethod.isMutating = true ∧
    ∃ issued, rebootCrates.parseFromRfc3339 "2026-01-01T00:00:00Z" = .ok issued ∧
      (rebootArrivals 0).times.utc < issued :=
  ⟨⟨_, rfl⟩, ⟨_, rfl⟩, rfl, _, rfl, by decide⟩

theorem nonce_apart :
    (∃ issued, rebootCrates.parseFromRfc3339 "2026-01-01T00:00:00Z" = .ok issued ∧
      (rebootArrivals 0).times.utc ≤ issued + 300000 * 1000000) ∧
    ∃ others : List String, others.length = 1 ∧ others.Nodup ∧ "a" ∉ others ∧
      ∀ other ∈ others, ∃ k, 0 < k ∧ k < 2 ∧
        Records rebootCrates idleGuest { security := { nonceCacheSize := 1 } } rebootArrivals
          { machine := () } k other := by
  obtain ⟨htime, hapart⟩ := dispatched_in_time_and_apart rebootCrates idleGuest
    { security := { nonceCacheSize := 1 } } rebootArrivals ()
  exact ⟨htime 0 (rebootRequest "a") _ ⟨_, rfl⟩ rfl rfl,
    hapart 0 2 (rebootRequest "a") (rebootRequest "a") "a" (by decide) ⟨_, rfl⟩ ⟨_, rfl⟩
      rfl rfl rfl rfl⟩

end RequestHandler

end Guestkit

import Guestkit.Ebpf.Agent
import Guestkit.Ebpf.Install

/-! What the network program decides, in terms of addresses: a compiled rule matches a packet if the
peer is in its block, and the program drops a packet if the policy that it finds says so. -/

namespace Guestkit.Ebpf

open Lib Option

variable {dir : Direction}

/-- The packet is policed, its peer is not the host itself, and no rule allows it. -/
structure NpView.Refuses (e : Endian) (v : NpView) (pol : NpPolicy) (dir : Direction) (p : Pkt) :
    Prop where
  policed : pol.flags &&& isolated dir ≠ 0
  remote : loopback e p = false
  unmatched : ∀ slot < min npMaxRules pol.nrules, ∀ r, v.rule slot = some r →
    ruleMatches r dir p = false

def NpPolicy.Enforced (pol : NpPolicy) (nowNs : Nat) : Prop :=
  pol.flags &&& npEnforce ≠ 0 ∧ nowNs < pol.deadlineNs

def NpView.Drops (e : Endian) (v : NpView) (nowNs : Nat) (skb : Skb) (dir : Direction) : Prop :=
  ∃ pol p, v.policy = some pol ∧ parsePacket e skb (dir = .ingress) = some p ∧
    v.Refuses e pol dir p ∧ pol.Enforced nowNs

theorem anyMatches_iff {rules : HashMap NpRuleKey NpRule} {c : Nat} {p : Pkt} {left slot : Nat} :
    anyMatches rules c dir p left slot = true ↔
      ∃ i, slot ≤ i ∧ i < slot + left ∧
        ∃ r, rules.lookup ⟨c, i⟩ = some r ∧ ruleMatches r dir p = true := by
  induction left generalizing slot with
  | zero =>
    refine ⟨nofun, fun ⟨i, hlow, hhigh, _⟩ => ?_⟩
    omega
  | succ left ih =>
    have hsplit : (∃ i, slot ≤ i ∧ i < slot + (left + 1) ∧
          ∃ r, rules.lookup ⟨c, i⟩ = some r ∧ ruleMatches r dir p = true) ↔
        (∃ r, rules.lookup ⟨c, slot⟩ = some r ∧ ruleMatches r dir p = true) ∨
          anyMatches rules c dir p left (slot + 1) = true := by
      rw [ih]
      constructor
      · rintro ⟨i, hlow, hhigh, hr⟩
        rcases Nat.eq_or_lt_of_le hlow with rfl | hlt
        · exact .inl hr
        · exact .inr ⟨i, hlt, by omega, hr⟩
      · rintro (hr | ⟨i, hlow, hhigh, hr⟩)
        · exact ⟨slot, Nat.le_refl slot, by omega, hr⟩
        · exact ⟨i, by omega, by omega, hr⟩
    rw [hsplit, anyMatches]
    cases hlookup : rules.lookup ⟨c, slot⟩ with
    | none => simp
    | some r => simp

theorem anyMatches_eq_false_iff {maps : NpMaps} {c : Nat} {p : Pkt} {n : Nat} :
    anyMatches maps.rules c dir p n 0 = false ↔
      ∀ slot < n, ∀ r, (maps.view c).rule slot = some r → ruleMatches r dir p = false := by
  rw [← Bool.not_eq_true, anyMatches_iff]
  constructor
  · intro h slot hslot r hr
    exact Bool.eq_false_iff.mpr fun hmatches =>
      h ⟨slot, Nat.zero_le slot, by omega, r, hr, hmatches⟩
  · rintro h ⟨slot, -, hslot, r, hr, hmatches⟩
    exact Bool.false_ne_true ((h slot (by omega) r hr).symm.trans hmatches)

theorem verdict_of_parsed {e : Endian} {maps : NpMaps} {skb : Skb} {pol : NpPolicy} {p : Pkt}
    (nowNs : Nat) (hpol : maps.policies.lookup skb.cgroupId = some pol)
    (hparse : parsePacket e skb (dir = .ingress) = some p) :
    verdict e maps nowNs skb dir = 0 ↔
      (maps.view skb.cgroupId).Refuses e pol dir p ∧ pol.Enforced nowNs := by
  unfold verdict
  rw [hpol]
  simp only [hparse]
  constructor
  · intro h
    by_cases hpoliced : pol.flags &&& isolated dir = 0
    · simp [hpoliced] at h
    · cases hremote : loopback e p with
      | true => simp [hremote] at h
      | false =>
        cases hmatch : anyMatches maps.rules skb.cgroupId dir p (min npMaxRules pol.nrules) 0 with
        | true => simp [hmatch] at h
        | false =>
          refine ⟨⟨hpoliced, hremote, anyMatches_eq_false_iff.mp hmatch⟩, ?_⟩
          rw [if_neg hpoliced, hremote, hmatch, if_neg Bool.false_ne_true,
            if_neg Bool.false_ne_true] at h
          split at h
          · next henforced => exact henforced
          · exact absurd h (by decide)
  · rintro ⟨⟨hpoliced, hremote, hunmatched⟩, henforced⟩
    rw [if_neg hpoliced, hremote, anyMatches_eq_false_iff.mpr hunmatched,
      if_neg Bool.false_ne_true, if_neg Bool.false_ne_true]
    exact if_pos henforced

theorem verdict_eq_zero_iff (e : Endian) (maps : NpMaps) (nowNs : Nat) (skb : Skb)
    (dir : Direction) :
    verdict e maps nowNs skb dir = 0 ↔ (maps.view skb.cgroupId).Drops e nowNs skb dir := by
  constructor
  · intro h
    cases hpol : maps.policies.lookup skb.cgroupId with
    | none => simp [verdict, hpol] at h
    | some pol =>
      cases hparse : parsePacket e skb (dir = .ingress) with
      | none => simp [verdict, hpol, hparse] at h
      | some p => exact ⟨pol, p, hpol, hparse, (verdict_of_parsed nowNs hpol hparse).mp h⟩
  · rintro ⟨pol, p, hpol, hparse, hdrops⟩
    exact (verdict_of_parsed nowNs hpol hparse).mpr hdrops

section Words

variable (e : Endian)

theorem words_get {bytes : List Byte} {i : Nat} (hi : i < 4) (h : 4 * i + 4 ≤ bytes.length) :
    (words e bytes)[i] = e.word (bytes.getD (4 * i) 0) (bytes.getD (4 * i + 1) 0)
      (bytes.getD (4 * i + 2) 0) (bytes.getD (4 * i + 3) 0) := by
  rw [words, Vector.getElem_ofFn]
  have hget : ∀ k, bytes.getD (4 * i + k) 0 = (bytes.drop (4 * i)).getD k 0 := by
    intro k
    simp
  have hlength : 4 ≤ (bytes.drop (4 * i)).length := by
    rw [List.length_drop]
    omega
  rw [show 4 * i = 4 * i + 0 from rfl, hget 0, hget 1, hget 2, hget 3]
  match bytes.drop (4 * i), hlength with
  | b0 :: b1 :: b2 :: b3 :: rest, _ => rfl

theorem words_get_short {bytes : List Byte} {i : Nat} (hi : i < 4) (h : bytes.length ≤ 4 * i) :
    (words e bytes)[i] = 0 := by
  rw [words, Vector.getElem_ofFn]
  simp only [List.drop_eq_nil_of_le h]

variable {n : Nat} (hwords : 4 ∣ n)

theorem getD_masked (a m : Vector Byte n) (j : Nat) :
    (masked a m).toList.getD j 0 = a.toList.getD j 0 &&& m.toList.getD j 0 := by
  rcases Nat.lt_or_ge j n with hj | hj
  · simp [masked, List.getD, hj]
  · simp [List.getD, hj]

include hwords

theorem words_and (a m : Vector Byte n) {i : Nat} (hi : i < 4) :
    (words e a.toList)[i] &&& (words e m.toList)[i] = (words e (masked a m).toList)[i] := by
  rcases Nat.lt_or_ge (4 * i) n with hlt | hge
  · have hbound : 4 * i + 4 ≤ n := by omega
    rw [words_get e hi (by simpa using hbound), words_get e hi (by simpa using hbound),
      words_get e hi (by simpa using hbound), Endian.word_and]
    simp only [getD_masked]
  · rw [words_get_short e hi (by simpa using hge), words_get_short e hi (by simpa using hge),
      words_get_short e hi (by simpa using hge)]
    rfl

theorem words_injective (hn : n ≤ 16) {a b : Vector Byte n}
    (h : ∀ i (hi : i < 4), (words e a.toList)[i] = (words e b.toList)[i]) : a = b := by
  have hgetD : ∀ k < n, a.toList.getD k 0 = b.toList.getD k 0 := by
    intro k hk
    have hbound : 4 * (k / 4) + 4 ≤ n := by omega
    have hword := h (k / 4) (by omega)
    rw [words_get e _ (by simpa using hbound), words_get e _ (by simpa using hbound),
      Endian.word_inj] at hword
    obtain ⟨h0, h1, h2, h3⟩ := hword
    obtain hr | hr | hr | hr : k % 4 = 0 ∨ k % 4 = 1 ∨ k % 4 = 2 ∨ k % 4 = 3 := by omega
    · rwa [show 4 * (k / 4) = k by omega] at h0
    · rwa [show 4 * (k / 4) + 1 = k by omega] at h1
    · rwa [show 4 * (k / 4) + 2 = k by omega] at h2
    · rwa [show 4 * (k / 4) + 3 = k by omega] at h3
  refine Vector.ext fun k hk => ?_
  simpa [List.getD, hk] using hgetD k hk

theorem words_and_eq_iff (hn : n ≤ 16) (peer net mask : Vector Byte n) :
    (∀ i (hi : i < 4), (words e peer.toList)[i] &&& (words e mask.toList)[i] =
        (words e (masked net mask).toList)[i]) ↔
      masked peer mask = masked net mask := by
  simp only [words_and e hwords]
  exact ⟨words_injective e hwords hn, fun h i hi => by rw [h]⟩

end Words

theorem masked_eq_iff {n prefixLength : Nat} (hbits : prefixLength ≤ 8 * n)
    (peer net : Vector Byte n) :
    masked peer (maskBytes n prefixLength) = masked net (maskBytes n prefixLength) ↔
      ∀ i < prefixLength, bitAt peer i = bitAt net i := by
  have hmask : ∀ (a : Vector Byte n) (k : Nat) (hk : k < n),
      (masked a (maskBytes n prefixLength))[k] =
        a[k] &&& Byte.high (min (prefixLength - k * 8) 8) := by
    intro a k hk
    simp [masked, maskBytes]
  have hbit : ∀ (a : Vector Byte n) (i : Nat) (hi : i / 8 < n),
      bitAt a i = (a[i / 8]).bit (i % 8) := by
    intro a i hi
    simp [bitAt, hi]
  constructor
  · intro h i hi
    have hk : i / 8 < n := by omega
    have hbyte := congrArg (fun v : Vector Byte n => v[i / 8]) h
    simp only [hmask] at hbyte
    rw [hbit peer i hk, hbit net i hk]
    exact (Byte.and_high_eq_iff (Nat.min_le_right _ _)).mp hbyte (i % 8) (by omega)
  · intro h
    refine Vector.ext fun k hk => ?_
    rw [hmask peer k hk, hmask net k hk]
    refine (Byte.and_high_eq_iff (Nat.min_le_right _ _)).mpr fun j hj => ?_
    have hsame := h (8 * k + j) (by omega)
    rw [hbit peer _ (by omega), hbit net _ (by omega)] at hsame
    simpa [show (8 * k + j) / 8 = k by omega, show (8 * k + j) % 8 = j by omega] using hsame

def Family.af : Family → Nat
  | .v4 => afInet
  | .v6 => afInet6

def IsPacket : Family → List Byte → Prop
  | .v4, data => 20 ≤ data.length ∧ (data.getD 0 0) >>> 4 = 4
  | .v6, data => 40 ≤ data.length ∧ (data.getD 0 0) >>> 4 = 6

instance (version : Family) (data : List Byte) : Decidable (IsPacket version data) := by
  cases version
  · exact inferInstanceAs (Decidable (_ ∧ _))
  · exact inferInstanceAs (Decidable (_ ∧ _))

def octetsAt (n : Nat) (data : List Byte) (offset : Nat) : Vector Byte n :=
  Vector.ofFn fun i => data.getD (offset + i) 0

variable (version : Family) (data : List Byte)

def peerOf (dir : Direction) : IpAddr :=
  match version with
  | .v4 => .v4 (octetsAt 4 data (if dir = .ingress then 12 else 16))
  | .v6 => .v6 (octetsAt 16 data (if dir = .ingress then 8 else 24))

def headerProto : Byte :=
  match version with
  | .v4 => data.getD 9 0
  | .v6 => data.getD 6 0

def transportOffset : Nat :=
  match version with
  | .v4 => (data.getD 0 0 &&& 0x0f).toNat * 4
  | .v6 => 40

def destPort : BitVec 16 :=
  let l4 := transportOffset version data
  if hasPort (headerProto version data) then
    match data[l4 + 2]?, data[l4 + 3]? with
    | some high, some low => high ++ low
    | _, _ => 0
  else 0

def IpAddr.octets : IpAddr → List Byte
  | .v4 octets => octets.toList
  | .v6 octets => octets.toList

def localhost6 : Vector Byte 16 := #v[0, 0, 0, 0, 0, 0, 0, 0, 0, 0, 0, 0, 0, 0, 0, 1]

def IpAddr.IsLoopback : IpAddr → Prop
  | .v4 octets => octets.getD 0 0 = 127
  | .v6 octets => octets = localhost6

def pktOf (e : Endian) (version : Family) (data : List Byte) (dir : Direction) : Pkt :=
  ⟨version, headerProto version data, destPort version data,
    words e (peerOf version data dir).octets⟩

section Parsing

variable (e : Endian) {data : List Byte}

theorem loadWord_of_length {offset : Nat} (h : offset + 4 ≤ data.length) :
    loadWord e data offset = some (e.word (data.getD offset 0) (data.getD (offset + 1) 0)
      (data.getD (offset + 2) 0) (data.getD (offset + 3) 0)) := by
  have hget : ∀ k < data.length, data[k]? = some (data.getD k 0) := by
    intro k hk
    simp [List.getD, hk]
  rw [loadWord, hget _ (by omega), hget _ (by omega), hget _ (by omega), hget _ (by omega)]
  rfl

theorem loadPort_eq (l4 : Nat) (proto : Byte) :
    loadPort e data l4 proto =
      if hasPort proto then
        match data[l4 + 2]?, data[l4 + 3]? with
        | some high, some low => high ++ low
        | _, _ => 0
      else 0 := by
  have hzero : e.fromBe 0 = 0 := by cases e <;> decide
  unfold loadPort
  split
  · unfold loadHalf
    cases data[l4 + 2]? with
    | none => exact hzero
    | some high =>
      cases hlow : data[l4 + 2 + 1]? with
      | none => simpa [hlow] using hzero
      | some low => simpa [hlow] using e.fromBe_half high low
  · rfl

theorem octetsAt_getD (n offset : Nat) {k : Nat} (hk : k < n) :
    (octetsAt n data offset).toList.getD k 0 = data.getD (offset + k) 0 := by
  simp [octetsAt, List.getD, hk]

theorem words_octetsAt (n offset i : Nat) (hi : i < 4) (hword : 4 * i + 4 ≤ n)
    (hlength : offset + n ≤ data.length) :
    loadWord e data (offset + 4 * i) = some (words e (octetsAt n data offset).toList)[i] := by
  rw [words_get e hi (by simpa using hword), loadWord_of_length e (by omega)]
  simp only [octetsAt_getD n offset (show 4 * i < n by omega),
    octetsAt_getD n offset (show 4 * i + 1 < n by omega),
    octetsAt_getD n offset (show 4 * i + 2 < n by omega),
    octetsAt_getD n offset (show 4 * i + 3 < n by omega), Nat.add_assoc]

theorem parsePacket_of_packet {version : Family} {c : Nat} (h : IsPacket version data)
    (dir : Direction) :
    parsePacket e ⟨c, version.af, data⟩ (dir = .ingress) = some (pktOf e version data dir) := by
  have hget : ∀ k < data.length, data[k]? = some (data.getD k 0) := by
    intro k hk
    simp [List.getD, hk]
  have hfour : ∀ v : Vector (BitVec 32) 4, v = #v[v[0], v[1], v[2], v[3]] := by
    refine fun v => Vector.ext fun i hi => ?_
    obtain rfl | rfl | rfl | rfl : i = 0 ∨ i = 1 ∨ i = 2 ∨ i = 3 := by omega
    all_goals rfl
  unfold parsePacket
  cases version with
  | v4 =>
    obtain ⟨hlength, -⟩ := h
    have hword := words_octetsAt e 4 (if dir = .ingress then 12 else 16) 0 (by omega) (by omega)
      (show _ ≤ data.length by split <;> omega)
    rw [if_pos (show Family.v4.af = afInet from rfl)]
    simp only [decide_eq_true_eq, hget 0 (by omega), hget 9 (by omega)]
    rw [show ∀ k, k + 4 * 0 = k from fun _ => rfl] at hword
    rw [hword]
    simp only [bind_eq_bind, bind_some, pure_def, pktOf, loadPort_eq]
    rw [hfour (words e (peerOf .v4 data dir).octets)]
    rfl
  | v6 =>
    obtain ⟨hlength, -⟩ := h
    have hword := fun i hi hword =>
      words_octetsAt e 16 (if dir = .ingress then 8 else 24) i hi hword
      (show _ ≤ data.length by split <;> omega)
    rw [if_neg (show ¬Family.v6.af = afInet by decide),
      if_pos (show Family.v6.af = afInet6 from rfl)]
    simp only [decide_eq_true_eq, hget 6 (by omega)]
    have hword0 := hword 0 (by omega) (by omega)
    have hword1 := hword 1 (by omega) (by omega)
    have hword2 := hword 2 (by omega) (by omega)
    have hword3 := hword 3 (by omega) (by omega)
    rw [show ∀ k, k + 4 * 0 = k from fun _ => rfl] at hword0
    rw [hword0, hword1, hword2, hword3]
    simp only [bind_eq_bind, bind_some, pure_def, pktOf, loadPort_eq]
    rw [hfour (words e (peerOf .v6 data dir).octets)]
    rfl

end Parsing

section Rules

variable {e : Endian} {version : Family} {data : List Byte} {dir : Direction}

theorem words_eq_iff {n : Nat} (e : Endian) (hwords : 4 ∣ n) (hn : n ≤ 16) {a b : Vector Byte n} :
    (words e a.toList)[0] = (words e b.toList)[0] ∧ (words e a.toList)[1] = (words e b.toList)[1] ∧
        (words e a.toList)[2] = (words e b.toList)[2] ∧
        (words e a.toList)[3] = (words e b.toList)[3] ↔ a = b := by
  constructor
  · rintro ⟨h0, h1, h2, h3⟩
    refine words_injective e hwords hn fun i hi => ?_
    obtain rfl | rfl | rfl | rfl : i = 0 ∨ i = 1 ∨ i = 2 ∨ i = 3 := by omega
    · exact h0
    · exact h1
    · exact h2
    · exact h3
  · rintro rfl
    exact ⟨rfl, rfl, rfl, rfl⟩

theorem words_localhost6 (e : Endian) :
    words e localhost6.toList = #v[0, 0, 0, e.word 0 0 0 1] := by
  cases e <;> decide

theorem loopback_pktOf :
    loopback e (pktOf e version data dir) = true ↔ (peerOf version data dir).IsLoopback := by
  cases version with
  | v4 =>
    have hff : ∀ b : Byte, b &&& 255#8 = b := by decide
    change decide ((words e (octetsAt 4 data _).toList)[0] &&& e.word 0xff 0 0 0 =
      e.word 127 0 0 0) = true ↔ (octetsAt 4 data _)[0] = 127
    rw [decide_eq_true_iff, words_get e (by omega) (by simp), Endian.word_and, Endian.word_inj]
    simp [hff, List.getD]
  | v6 =>
    have hiff := words_eq_iff e (by decide) (by decide)
      (a := octetsAt 16 data (if dir = .ingress then 8 else 24)) (b := localhost6)
    rw [words_localhost6] at hiff
    simpa [loopback, pktOf, peerOf, IpAddr.IsLoopback, IpAddr.octets, Vector.getD] using hiff

theorem parseCidr_maxPrefix {s : String} {addr : IpAddr} {prefixLength : Nat}
    (h : parseCidr s = .ok (addr, prefixLength)) : prefixLength ≤ addr.maxPrefix := by
  have hcheck : ∀ (a : IpAddr) (n : Nat) (err : String),
      (if a.maxPrefix < n then .error err else .ok (a, n)) =
        (.ok (addr, prefixLength) : Except String (IpAddr × Nat)) →
      prefixLength ≤ addr.maxPrefix := by
    intro a n err hok
    split at hok
    · cases hok
    · cases hok
      omega
  unfold parseCidr at h
  dsimp only at h
  split at h
  · cases h
  · split at h
    · exact hcheck _ _ _ h
    · split at h
      · exact hcheck _ _ _ h
      · cases h

theorem ruleMatches_iff {r : NpRule} {p : Pkt} :
    ruleMatches r dir p = true ↔
      r.dir = dir ∧ r.family = p.family ∧ (r.proto = 0 ∨ r.proto = p.proto) ∧
        (r.port = 0 ∨ r.port = p.port) ∧
        ∀ i (hi : i < 4), p.addr[i] &&& r.mask[i] = r.net[i] := by
  rw [ruleMatches, decide_eq_true_iff]

theorem block_matches {n prefixLength : Nat} (e : Endian) (hwords : 4 ∣ n) (hn : n ≤ 16)
    (hbits : prefixLength ≤ 8 * n) (peer net : Vector Byte n) :
    (∀ i (hi : i < 4),
        (words e peer.toList)[i] &&& (words e (maskBytes n prefixLength).toList)[i] =
          (words e (masked net (maskBytes n prefixLength)).toList)[i]) ↔
      ∀ i < prefixLength, bitAt peer i = bitAt net i :=
  (words_and_eq_iff e hwords hn peer net _).trans (masked_eq_iff hbits peer net)

theorem ruleMatches_compiled {d : Direction} {addr : IpAddr} {prefixLength : Nat} {proto : Byte}
    {port : BitVec 16} {r : NpRule} (hbits : prefixLength ≤ addr.maxPrefix)
    (h : compileRule e d addr prefixLength proto port = .ok r) :
    ruleMatches r dir (pktOf e version data dir) = true ↔
      d = dir ∧ addr.InBlock prefixLength (peerOf version data dir) ∧
        (proto = 0 ∨ proto = headerProto version data) ∧
        (port = 0 ∨ port = destPort version data) := by
  rw [ruleMatches_iff]
  unfold compileRule at h
  split at h
  · cases h
  · cases addr with
    | v4 octets =>
      change prefixLength ≤ 32 at hbits
      rw [Nat.min_eq_left hbits] at h
      cases h
      cases version with
      | v4 =>
        have hblock := block_matches e (by decide) (by decide) hbits
          (octetsAt 4 data (if dir = .ingress then 12 else 16)) octets
        exact ⟨fun ⟨hd, _, hproto, hport, hwords⟩ => ⟨hd, hblock.mp hwords, hproto, hport⟩,
          fun ⟨hd, hin, hproto, hport⟩ => ⟨hd, rfl, hproto, hport, hblock.mpr hin⟩⟩
      | v6 => exact ⟨fun h => Family.noConfusion h.2.1, fun h => h.2.1.elim⟩
    | v6 octets =>
      change prefixLength ≤ 128 at hbits
      rw [Nat.min_eq_left hbits] at h
      cases h
      cases version with
      | v4 => exact ⟨fun h => Family.noConfusion h.2.1, fun h => h.2.1.elim⟩
      | v6 =>
        have hblock := block_matches e (by decide) (by decide) hbits
          (octetsAt 16 data (if dir = .ingress then 8 else 24)) octets
        exact ⟨fun ⟨hd, _, hproto, hport, hwords⟩ => ⟨hd, hblock.mp hwords, hproto, hport⟩,
          fun ⟨hd, hin, hproto, hport⟩ => ⟨hd, rfl, hproto, hport, hblock.mpr hin⟩⟩

/-- The rule, as it is written in a request, allows a packet. -/
def NetRuleSpec.Allows (r : NetRuleSpec) (dir : Direction) (peer : IpAddr) (proto : Byte)
    (port : BitVec 16) : Prop :=
  parseDirection r.direction = .ok dir ∧
    (∃ addr prefixLength, parseCidr r.cidr = .ok (addr, prefixLength) ∧
      addr.InBlock prefixLength peer) ∧
    (∃ q, parseProto (r.proto.getD "any") = .ok q ∧ (q = 0 ∨ q = proto)) ∧
    (r.port.getD 0 = 0 ∨ r.port.getD 0 = port)

theorem ruleMatches_compileSpec {spec : NetRuleSpec} {r : NpRule} (h : compileSpec e spec = .ok r) :
    ruleMatches r dir (pktOf e version data dir) = true ↔
      spec.Allows dir (peerOf version data dir) (headerProto version data)
        (destPort version data) := by
  obtain ⟨d, hd, h⟩ := except_ok_bind_iff.mp h
  obtain ⟨⟨addr, prefixLength⟩, hcidr, h⟩ := except_ok_bind_iff.mp h
  obtain ⟨proto, hproto, h⟩ := except_ok_bind_iff.mp h
  rw [ruleMatches_compiled (parseCidr_maxPrefix hcidr) h, NetRuleSpec.Allows, hd, hcidr, hproto]
  constructor
  · rintro ⟨rfl, hin, hproto', hport⟩
    exact ⟨rfl, ⟨addr, prefixLength, rfl, hin⟩, ⟨proto, rfl, hproto'⟩, hport⟩
  · rintro ⟨hdir, ⟨_, _, heq, hin⟩, ⟨_, heq', hproto'⟩, hport⟩
    cases hdir
    cases heq
    cases heq'
    exact ⟨rfl, hin, hproto', hport⟩

end Rules

end Guestkit.Ebpf

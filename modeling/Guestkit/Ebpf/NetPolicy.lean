import Guestkit.Ebpf.Address
import Guestkit.Lib.HashMap

/-! The network policy of a container: the allow rules in the layout that the kernel program reads,
and the program, which decides on each packet of a cgroup. -/

namespace Guestkit.Ebpf

open Lib

inductive Direction where
  | egress
  | ingress
  deriving DecidableEq

inductive Family where
  | v4
  | v6
  deriving DecidableEq

def npEgressIsolated : BitVec 32 := 1 <<< 0

def npIngressIsolated : BitVec 32 := 1 <<< 1

def npEnforce : BitVec 32 := 1 <<< 2

def npMaxRules : Nat := 32

structure NpPolicy where
  flags : BitVec 32
  nrules : Nat
  deadlineNs : Nat
  deriving DecidableEq

structure NpRuleKey where
  cgroupId : Nat
  slot : Nat
  deriving DecidableEq

/-- One allow rule; protocol and port 0 stand for any.  The words have the bytes of the network and
of its mask in the order of the machine. -/
structure NpRule where
  dir : Direction
  family : Family
  proto : Byte
  port : BitVec 16
  net : Vector (BitVec 32) 4
  mask : Vector (BitVec 32) 4
  deriving DecidableEq

def parseProto (s : String) : Except String Byte :=
  match (Text.trim s).toLower with
  | "" => .ok 0
  | "any" => .ok 0
  | "all" => .ok 0
  | "tcp" => .ok 6
  | "udp" => .ok 17
  | "sctp" => .ok 132
  | "icmp" => .ok 1
  | "icmpv6" => .ok 58
  | "ipv6-icmp" => .ok 58
  | n =>
    match Text.parseUnsigned 10 256 n with
    | .ok number => .ok (BitVec.ofNat 8 number)
    | .error _ => .error ("unknown protocol `" ++ s ++ "`")

def parseDirection (s : String) : Except String Direction :=
  match (Text.trim s).toLower with
  | "egress" => .ok .egress
  | "out" => .ok .egress
  | "ingress" => .ok .ingress
  | "in" => .ok .ingress
  | _ => .error ("direction must be egress or ingress (got `" ++ s ++ "`)")

def maskBytes (n prefixLength : Nat) : Vector Byte n :=
  Vector.ofFn fun i => Byte.high (min (prefixLength - i * 8) 8)

def words (e : Endian) (bytes : List Byte) : Vector (BitVec 32) 4 :=
  Vector.ofFn fun i =>
    match bytes.drop (4 * i) with
    | b₀ :: b₁ :: b₂ :: b₃ :: _ => e.word b₀ b₁ b₂ b₃
    | _ => 0

def masked {n : Nat} (octets mask : Vector Byte n) : Vector Byte n :=
  Vector.zipWith (· &&& ·) octets mask

def compileRule (e : Endian) (dir : Direction) (addr : IpAddr) (prefixLength : Nat) (proto : Byte)
    (port : BitVec 16) : Except String NpRule :=
  if port ≠ 0 ∧ proto ∉ [0, 6, 17, 132] then
    .error ("port " ++ toString port.toNat ++ " needs tcp, udp, sctp or any protocol")
  else
    match addr with
    | .v4 octets =>
      let mask := maskBytes 4 (min prefixLength 32)
      .ok ⟨dir, .v4, proto, port, words e (masked octets mask).toList, words e mask.toList⟩
    | .v6 octets =>
      let mask := maskBytes 16 (min prefixLength 128)
      .ok ⟨dir, .v6, proto, port, words e (masked octets mask).toList, words e mask.toList⟩

def npPolicy (egress ingress enforce : Bool) (nrules deadlineNs : Nat) : NpPolicy where
  flags := (if egress then npEgressIsolated else 0) |||
    (if ingress then npIngressIsolated else 0) ||| (if enforce then npEnforce else 0)
  nrules := nrules
  deadlineNs := if enforce then deadlineNs else 0

structure NpMaps where
  policies : HashMap Nat NpPolicy := ∅
  rules : HashMap NpRuleKey NpRule := ∅

/-- A packet as the program gets it: the cgroup and the address family of its socket, and its bytes
from the IP header on. -/
structure Skb where
  cgroupId : Nat
  family : Nat
  data : List Byte

def afInet : Nat := 2

def afInet6 : Nat := 10

structure Pkt where
  family : Family
  proto : Byte
  port : BitVec 16
  addr : Vector (BitVec 32) 4

section Program

variable (e : Endian)

def loadWord (data : List Byte) (offset : Nat) : Option (BitVec 32) := do
  let b₀ ← data[offset]?
  let b₁ ← data[offset + 1]?
  let b₂ ← data[offset + 2]?
  let b₃ ← data[offset + 3]?
  pure (e.word b₀ b₁ b₂ b₃)

def loadHalf (data : List Byte) (offset : Nat) : Option (BitVec 16) := do
  let b₀ ← data[offset]?
  let b₁ ← data[offset + 1]?
  pure (e.half b₀ b₁)

def hasPort (proto : Byte) : Bool := proto = 6 ∨ proto = 17 ∨ proto = 132

def loadPort (data : List Byte) (l4 : Nat) (proto : Byte) : BitVec 16 :=
  if hasPort proto then e.fromBe ((loadHalf e data (l4 + 2)).getD 0) else 0

def parsePacket (skb : Skb) (ingress : Bool) : Option Pkt :=
  if skb.family = afInet then do
    let vihl ← skb.data[0]?
    let proto ← skb.data[9]?
    let addr ← loadWord e skb.data (if ingress then 12 else 16)
    pure ⟨.v4, proto, loadPort e skb.data ((vihl &&& 0x0f).toNat * 4) proto, #v[addr, 0, 0, 0]⟩
  else if skb.family = afInet6 then do
    let proto ← skb.data[6]?
    let offset := if ingress then 8 else 24
    let addr₀ ← loadWord e skb.data offset
    let addr₁ ← loadWord e skb.data (offset + 4)
    let addr₂ ← loadWord e skb.data (offset + 8)
    let addr₃ ← loadWord e skb.data (offset + 12)
    pure ⟨.v6, proto, loadPort e skb.data 40 proto, #v[addr₀, addr₁, addr₂, addr₃]⟩
  else none

def loopback (p : Pkt) : Bool :=
  match p.family with
  | .v4 => p.addr.getD 0 0 &&& e.word 0xff 0 0 0 = e.word 127 0 0 0
  | .v6 => p.addr.getD 0 0 = 0 ∧ p.addr.getD 1 0 = 0 ∧ p.addr.getD 2 0 = 0 ∧
    p.addr.getD 3 0 = e.word 0 0 0 1

def ruleMatches (r : NpRule) (dir : Direction) (p : Pkt) : Bool :=
  r.dir = dir ∧ r.family = p.family ∧ (r.proto = 0 ∨ r.proto = p.proto) ∧
    (r.port = 0 ∨ r.port = p.port) ∧
    ∀ i (_ : i < 4), p.addr[i] &&& r.mask[i] = r.net[i]

def anyMatches (rules : HashMap NpRuleKey NpRule) (cgroupId : Nat) (dir : Direction) (p : Pkt) :
    Nat → Nat → Bool
  | 0, _ => false
  | left + 1, slot =>
    match rules.lookup ⟨cgroupId, slot⟩ with
    | some r =>
      if ruleMatches r dir p then true else anyMatches rules cgroupId dir p left (slot + 1)
    | none => anyMatches rules cgroupId dir p left (slot + 1)

def isolated : Direction → BitVec 32
  | .egress => npEgressIsolated
  | .ingress => npIngressIsolated

/-- 1 lets the packet pass, 0 drops it. -/
def verdict (maps : NpMaps) (nowNs : Nat) (skb : Skb) (dir : Direction) : Int :=
  match maps.policies.lookup skb.cgroupId with
  | none => 1
  | some pol =>
    if pol.flags &&& isolated dir = 0 then 1
    else
      match parsePacket e skb (dir = .ingress) with
      | none => 1
      | some p =>
        if loopback e p then 1
        else if anyMatches maps.rules skb.cgroupId dir p (min npMaxRules pol.nrules) 0 then 1
        else if pol.flags &&& npEnforce ≠ 0 ∧ nowNs < pol.deadlineNs then 0
        else 1

end Program

end Guestkit.Ebpf

import Guestkit.Lib.Bytes
import Guestkit.Lib.Text

/-! IP addresses as the standard library reads them, and CIDR blocks. -/

namespace Guestkit.Ebpf

open Lib Lib.Text

inductive IpAddr where
  | v4 (octets : Vector Byte 4)
  | v6 (octets : Vector Byte 16)
  deriving DecidableEq

namespace IpAddr

/-- A number of at most `maxDigits` digits, less than `bound`. -/
def readNumber (radix maxDigits bound : Nat) (allowZeroPrefix : Bool) (s : List Char) :
    Option (Nat × List Char) :=
  let digits := s.takeWhile fun c => (digit radix c).isSome
  let value := digits.foldl (fun n c => n * radix + (digit radix c).getD 0) 0
  if maxDigits < digits.length ∨ digits = [] then none
  else if allowZeroPrefix = false ∧ digits.head? = some '0' ∧ 1 < digits.length then none
  else if value < bound then some (value, s.drop digits.length)
  else none

/-- What is read after a separator, which is not there before the first. -/
def readSeparator {α : Type} (sep : Char) (index : Nat)
    (inner : List Char → Option (α × List Char)) (s : List Char) : Option (α × List Char) :=
  if index = 0 then inner s
  else
    match s with
    | c :: rest => if c = sep then inner rest else none
    | [] => none

def readIpv4Addr (s : List Char) : Option (Vector Byte 4 × List Char) := do
  let (a, s) ← readSeparator '.' 0 (readNumber 10 3 256 false) s
  let (b, s) ← readSeparator '.' 1 (readNumber 10 3 256 false) s
  let (c, s) ← readSeparator '.' 2 (readNumber 10 3 256 false) s
  let (d, s) ← readSeparator '.' 3 (readNumber 10 3 256 false) s
  pure (#v[BitVec.ofNat 8 a, BitVec.ofNat 8 b, BitVec.ofNat 8 c, BitVec.ofNat 8 d], s)

/-- Up to `left` groups, the first of which is number `i`; an address of version 4 may stand for the
last two. -/
def readGroups (i : Nat) : Nat → List Char → List (BitVec 16) × Bool × List Char
  | 0, s => ([], false, s)
  | left + 1, s =>
    match if 0 < left then readSeparator ':' i readIpv4Addr s else none with
    | some (quad, rest) => ([quad[0] ++ quad[1], quad[2] ++ quad[3]], true, rest)
    | none =>
      match readSeparator ':' i (readNumber 16 4 (2 ^ 16) true) s with
      | some (group, rest) =>
        let (groups, ipv4, rest) := readGroups (i + 1) left rest
        (BitVec.ofNat 16 group :: groups, ipv4, rest)
      | none => ([], false, s)

/-- The address of eight groups, each with its high byte first. -/
def ofGroups (groups : List (BitVec 16)) : Vector Byte 16 :=
  Vector.ofFn fun i =>
    let group := groups.getD (i / 2) 0
    if i % 2 = 0 then group.extractLsb' 8 8 else group.extractLsb' 0 8

def readIpv6Addr (s : List Char) : Option (Vector Byte 16 × List Char) :=
  let (head, ipv4, rest) := readGroups 0 8 s
  if head.length = 8 then some (ofGroups head, rest)
  else if ipv4 then none
  else
    match rest with
    | ':' :: ':' :: rest =>
      let (tail, _, rest) := readGroups 0 (8 - (head.length + 1)) rest
      let zeros := List.replicate (8 - head.length - tail.length) 0
      some (ofGroups (head ++ zeros ++ tail), rest)
    | _ => none

def parse (s : String) : Option IpAddr :=
  match readIpv4Addr s.toList with
  | some (octets, rest) => if rest = [] then some (.v4 octets) else none
  | none =>
    match readIpv6Addr s.toList with
    | some (octets, rest) => if rest = [] then some (.v6 octets) else none
    | none => none

def maxPrefix : IpAddr → Nat
  | .v4 _ => 32
  | .v6 _ => 128

end IpAddr

/-- An address and a prefix; a bare address is a host route. -/
def parseCidr (s : String) : Except String (IpAddr × Nat) := do
  let (a, p) := match splitOnce '/' s with
    | some (a, p) => (a, some p)
    | none => (s, none)
  match IpAddr.parse (trim a) with
  | none => .error ("`" ++ s ++ "`: not an IP address")
  | some addr =>
    let prefixLength ← match p with
      | none => .ok addr.maxPrefix
      | some p =>
        match parseUnsigned 10 256 (trim p) with
        | .ok n => .ok n
        | .error _ => .error ("`" ++ s ++ "`: bad prefix length")
    if addr.maxPrefix < prefixLength then
      .error ("`" ++ s ++ "`: prefix longer than /" ++ toString addr.maxPrefix)
    else .ok (addr, prefixLength)

def bitAt {n : Nat} (octets : Vector Byte n) (i : Nat) : Bool :=
  (octets[i / 8]?.getD 0).bit (i % 8)

/-- Addresses of one version that agree in the first bits. -/
def IpAddr.InBlock (addr : IpAddr) (prefixLength : Nat) : IpAddr → Prop
  | .v4 peer =>
    match addr with
    | .v4 net => ∀ i < prefixLength, bitAt peer i = bitAt net i
    | .v6 _ => False
  | .v6 peer =>
    match addr with
    | .v6 net => ∀ i < prefixLength, bitAt peer i = bitAt net i
    | .v4 _ => False

example : (parseCidr "10.1.2.3").toOption = some (.v4 #v[10, 1, 2, 3], 32) := by decide +kernel

example : (parseCidr "2001:db8::/32").toOption =
    some (.v6 #v[0x20, 1, 0x0d, 0xb8, 0, 0, 0, 0, 0, 0, 0, 0, 0, 0, 0, 0], 32) := by decide +kernel

end Guestkit.Ebpf

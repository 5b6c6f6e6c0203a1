import Mathlib

/-! JSON values with the numbers of `serde_json`: unsigned and negative 64-bit integers, and doubles
by their bits. -/

namespace Guestkit.Lib

inductive JsonNumber where
  | posInt (n : UInt64)
  | negInt (n : Int64)
  | float (bits : UInt64)
  deriving DecidableEq

inductive Json where
  | null
  | bool (b : Bool)
  | number (n : JsonNumber)
  | string (s : String)
  | array (items : List Json)
  | object (fields : List (String × Json))

namespace Json

def get (key : String) : Json → Option Json
  | object fields => fields.lookup key
  | _ => none

def asStr : Json → Option String
  | string s => some s
  | _ => none

def asBool : Json → Option Bool
  | bool b => some b
  | _ => none

def asU64 : Json → Option UInt64
  | number (.posInt n) => some n
  | _ => none

def asI64 : Json → Option Int64
  | number (.posInt n) => if n.toNat < 2 ^ 63 then some n.toInt64 else none
  | number (.negInt n) => some n
  | _ => none

def asArray : Json → Option (List Json)
  | array items => some items
  | _ => none

def asStrings : Json → Option (List String)
  | array items => items.mapM asStr
  | _ => none

end Json

end Guestkit.Lib

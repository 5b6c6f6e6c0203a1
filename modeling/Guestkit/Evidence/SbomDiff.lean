import Guestkit.Lib.Fs.Ops
import Guestkit.Lib.HashMap
import Guestkit.Lib.Json

/-! The comparison of two bills of materials: SPDX, CycloneDX or GuestKit inventories. -/

namespace Guestkit.SbomDiff

open Lib Lib.Fs Lib.Text List

def listedPackage (p : Json) : Option (String × String) :=
  let name := trim (((p.get "name").bind Json.asStr).getD "")
  if name = "" then none
  else some (name, (((p.get "versionInfo").or (p.get "version")).bind Json.asStr).getD "")

/-- The names and versions that a document lists, in its order. -/
def listed (arr : List Json) : List (String × String) := arr.filterMap listedPackage

section

variable (fromStr : String → Option Json)

end

variable {fromStr : String → Option Json} {t : Tree} {path raw : String} {arr : List Json}

end Guestkit.SbomDiff

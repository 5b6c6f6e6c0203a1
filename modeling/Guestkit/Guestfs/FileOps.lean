import Guestkit.Guestfs.Handle

/-! The host paths of the file operations on the guest.  The guest's file systems are part of the
host's tree, below the mountpoint of the guest's root. -/

namespace Guestkit

open Lib Lib.Fs

def PathValidator.validateFsPath (path : String) : Except Error Unit :=
  if path = "" then .error (.invalidOperation "Filesystem path cannot be empty")
  else if Text.contains path ".." then
    .error (.invalidOperation ("Path contains '..' (path traversal attack): " ++ path))
  else if path.toList.contains '\x00' then
    .error (.invalidOperation "Path contains null byte")
  else if 4096 < path.utf8ByteSize then
    .error (.invalidOperation ("Path too long (max 4096): " ++ toString path.utf8ByteSize))
  else .ok ()

def shortest : List String → Option String
  | [] => none
  | s :: rest =>
    match shortest rest with
    | none => some s
    | some m => if m.utf8ByteSize < s.utf8ByteSize then some m else some s

namespace Guestfs

variable (self : Guestfs) (order : HashOrder String String)

/-- The host path where the guest's root is mounted: the mount root if something is mounted there,
and the shortest mountpoint otherwise. -/
def findRootMountpoint : Except Error String :=
  let mountpoints := (order.iter self.mounted).map Prod.snd
  let exact := self.mountRoot.bind fun root => mountpoints.find? (· = root.display)
  match exact with
  | some mp => .ok mp
  | none =>
    match shortest mountpoints with
    | some mp => .ok mp
    | none => .error (.invalidState "No filesystem mounted. Call mount_ro() first.")

def candidatePath (rootMountpoint guestPath : String) : Path :=
  (Path.ofString rootMountpoint).join (Path.ofString (Text.trimStartMatches (· = '/') guestPath))

/-- The canonical form of a path that exists, or whose parent does.  A path whose parent does not
exist is left as it is. -/
def canonicalCandidate (t : Tree) (candidate : Path) (guestPath : String) : Except Error Path :=
  match t.canonicalize candidate with
  | .ok loc => .ok (Path.ofLoc loc)
  | .error .noEnt =>
    match candidate.parent, candidate.fileName with
    | some parent, some name =>
      match t.canonicalize parent with
      | .ok dir => .ok ((Path.ofLoc dir).join [name])
      | .error _ => .ok candidate
    | _, _ => .error (.notFound ("Path does not exist: " ++ guestPath))
  | .error e => .error (.io e)

/-- The host path of a guest path, which is checked to be below the canonical root. -/
def resolveGuestPath (t : Tree) (guestPath : String) : Except Error Path := do
  PathValidator.validateFsPath guestPath
  let rootMountpoint ← self.findRootMountpoint order
  let canonical ← canonicalCandidate t (candidatePath rootMountpoint guestPath) guestPath
  match t.canonicalize (Path.ofString rootMountpoint) with
  | .error e => .error (.invalidState ("Failed to canonicalize mount root: " ++ e.message))
  | .ok root =>
    if canonical.startsWith (Path.ofLoc root) then .ok canonical
    else
      .error (.invalidOperation
        ("Path '" ++ guestPath ++ "' escapes guest root (symlink attack or path traversal)"))

end Guestfs

end Guestkit

import Guestkit.Lib.Fs.Walk

/-! The operations of `std::fs` on a file tree, with the errors of the system calls. -/

namespace Guestkit.Lib.Fs

inductive Errno where
  | noEnt
  | exist
  | notDir
  | isDir
  | loop
  | notFile
  | notUtf8
  deriving DecidableEq

def Errno.message : Errno → String
  | .noEnt => "No such file or directory (os error 2)"
  | .exist => "File exists (os error 17)"
  | .notDir => "Not a directory (os error 20)"
  | .isDir => "Is a directory (os error 21)"
  | .loop => "Too many levels of symbolic links (os error 40)"
  | .notFile => "the source path is neither a regular file nor a symlink to a regular file"
  | .notUtf8 => "stream did not contain valid UTF-8"

namespace Tree

def lookup (t : Tree) (follow : Bool) (p : Path) : Except Errno Loc :=
  match t.walk follow p with
  | .found loc => .ok loc
  | .missing _ _ _ => .error .noEnt
  | .notDir _ => .error .notDir
  | .loop => .error .loop

variable (t : Tree) (p : Path)

def stat : Option Node :=
  match t.walk true p with
  | .found loc => t.node loc
  | _ => none

def pathExists : Bool := (t.stat p).isSome

def isDir : Bool := t.stat p = some .dir

def isSymlink : Bool :=
  match t.walk false p with
  | .found loc =>
    match t.node loc with
    | some (.link _) => true
    | _ => false
  | _ => false

def canonicalize : Except Errno Loc := t.lookup true p

def read : Except Errno Data := do
  match t.node (← t.lookup true p) with
  | some (.file data _) => .ok data
  | some .dir => .error .isDir
  | _ => .error .noEnt

def readToString : Except Errno String := do
  match ← t.read p with
  | .text s => .ok s
  | .raw _ => .error .notUtf8

end Tree

structure Machine (ε : Type) where
  outer : ε
  tree : Tree

/-- Programs over a file tree; an error keeps what was done before it. -/
abbrev FsM := EStateM Errno Tree

/-- Puts a file at the end of a path, in place of the file there or as a new one.  A file that
exists keeps its mode. -/
def writeData (p : Path) (data : Data) : FsM Unit := do
  let t ← get
  match t.walk true p with
  | .found loc =>
    match t.node loc with
    | some (.file _ mode) => set (t.put loc (.file data mode))
    | some .dir => throw .isDir
    | _ => throw .noEnt
  | .missing dir name [] => set (t.put (name :: dir) (.file data 0o644))
  | .missing _ _ _ => throw .noEnt
  | .notDir _ => throw .notDir
  | .loop => throw .loop

def write (p : Path) (content : String) : FsM Unit := writeData p (.text content)

def setMode (p : Path) (mode : Nat) : FsM Unit := do
  let t ← get
  match t.lookup true p with
  | .ok loc =>
    match t.node loc with
    | some (.file data _) => set (t.put loc (.file data mode))
    | _ => pure ()
  | .error e => throw e

/-- Copies the contents and the mode of a file.  A file that is copied to itself is emptied. -/
def copy (source destination : Path) : FsM Unit := do
  let t ← get
  match t.lookup true source with
  | .error e => throw e
  | .ok loc =>
    match t.node loc with
    | some (.file data mode) =>
      writeData destination
        (if t.lookup true destination = .ok loc then .text "" else data)
      setMode destination mode
    | _ => throw .notFile

def mkdir (p : Path) : FsM Unit := do
  let t ← get
  match t.walk false (p.reverse.dropWhile (· = "")).reverse with
  | .found _ => throw .exist
  | .missing dir name [] => set (t.put (name :: dir) .dir)
  | .missing _ _ _ => throw .noEnt
  | .notDir _ => throw .notDir
  | .loop => throw .loop

def ensureDir (p : Path) : FsM Unit :=
  tryCatch (mkdir p) fun e => do
    if (← get).isDir p then pure () else throw e

/-- Makes the first of the paths, after the rest of them if a directory is missing. -/
def createDirs : List Path → FsM Unit
  | [] => pure ()
  | p :: ancestors =>
    tryCatch (mkdir p) fun e => do
      if e = .noEnt then
        createDirs ancestors
        ensureDir p
      else if (← get).isDir p then pure ()
      else throw e

def createDirAll (p : Path) : FsM Unit := createDirs p.ancestors

def removeFile (p : Path) : FsM Unit := do
  let t ← get
  match t.lookup false p with
  | .error e => throw e
  | .ok loc =>
    if t.node loc = some .dir then throw .isDir else set (t.erase loc)

/-- Puts the object `n` from `loc` at the end of a path, in place of the file or link there. -/
def moveTo (loc : Loc) (n : Node) (destination : Path) : FsM Unit := do
  let t ← get
  match t.walk false destination with
  | .found loc' =>
    if loc' = loc then pure ()
    else if t.node loc' = some .dir then throw .isDir
    else set ((t.put loc' n).erase loc)
  | .missing dir name [] => set ((t.put (name :: dir) n).erase loc)
  | .missing _ _ _ => throw .noEnt
  | .notDir _ => throw .notDir
  | .loop => throw .loop

/-- Renames a file or a link.  Directories are not renamed here. -/
def rename (source destination : Path) : FsM Unit := do
  let t ← get
  match t.lookup false source with
  | .error e => throw e
  | .ok loc =>
    match t.node loc with
    | none => throw .noEnt
    | some .dir => throw .isDir
    | some n => moveTo loc n destination

def symlink (target : String) (p : Path) : FsM Unit := do
  let t ← get
  match t.walk false p with
  | .found _ => throw .exist
  | .missing dir name [] =>
    if target = "" then throw .noEnt else set (t.put (name :: dir) (.link target))
  | .missing _ _ _ => throw .noEnt
  | .notDir _ => throw .notDir
  | .loop => throw .loop

end Guestkit.Lib.Fs

import Chip8.Fault
import Chip8.Log

/-!
Program files.

A program file is the image of a program without a header. Files are found in a tree
of directories; a path is followed one component at a time, and the first component
that leads nowhere decides what is wrong with it.
-/

namespace Chip8

inductive ReadFailure
  | noSuchFile
  | isDirectory
  | notDirectory
  | nameTooLong
  | embeddedNul
  | other (reason : String)
deriving DecidableEq, Repr

def ReadFailure.reason : ReadFailure → String
  | noSuchFile => "No such file or directory"
  | isDirectory => "Is a directory"
  | notDirectory => "Not a directory"
  | nameTooLong => "File name too long"
  | embeddedNul => "embedded null byte"
  | other reason => reason

namespace ProgramFile

def program (path : String) : Except ReadFailure (List UInt8) → Except Fault (List UInt8)
  | .error .embeddedNul => .error .embeddedNul
  | .error failure => .error (.unusableProgram path failure.reason)
  | .ok [] => .error (.unusableProgram path "file is empty")
  | .ok image => .ok image

def record (image : List UInt8) : Record :=
  .info ("Program length " ++ toString image.length ++ " bytes.")

end ProgramFile

/-! ### Trees of files -/

inductive FileTree.Node
  | file (content : List UInt8)
  | directory
deriving DecidableEq, Repr

/-- A tree of files, given by the paths of its files and directories. -/
structure FileTree where
  nodes : List (List String × FileTree.Node)
deriving Repr

namespace FileTree

def maxComponent : Nat := 255

def maxPath : Nat := 4095

def components (path : String) : List String :=
  ((path.toList.splitOn '/').map String.ofList).filter (· ≠ "")

/-- What lies at a place below the root of a tree. Whatever has something below it is a
directory. -/
def node? (tree : FileTree) (place : List String) : Option Node :=
  match tree.nodes.lookup place with
  | some node => some node
  | none =>
      if place = [] ∨ tree.nodes.any fun (other, _) => place.isPrefixOf other then
        some .directory
      else none

/-- Directories that every host has: the first below the root of all paths, and those
in some of them. -/
def hostDirectories : List (List String) :=
  ["boot", "dev", "etc", "home", "media", "mnt", "opt", "proc", "root", "run", "srv", "sys",
    "tmp", "usr", "var"].map ([·])
  ++ ["fd", "pts", "shm"].map (["dev", ·])
  ++ ["self", "sys"].map (["proc", ·])
  ++ ["bin", "lib", "lib64", "local", "sbin", "share"].map (["usr", ·])
  ++ ["cache", "lib", "local", "log", "opt", "spool", "tmp"].map (["var", ·])

/-- What every host has: its directories, and a device that is always empty. -/
def host : FileTree :=
  ⟨(["dev", "null"], .file []) :: hostDirectories.map fun path => (path, .directory)⟩

/-- The directory of the host in which a tree is made, under a name that nobody knows. -/
def workspace : List String := ["tmp"]

/-- A place that a path has led to, in a tree or elsewhere on the host, with the last
component first. -/
inductive Place
  | inside (reversed : List String)
  | outside (reversed : List String)
deriving DecidableEq, Repr

def nodeAt? (tree : FileTree) : Place → Option Node
  | .inside reversed => tree.node? reversed.reverse
  | .outside reversed => host.node? reversed.reverse

/-- The directory that a place lies in; the root of all paths lies in itself. -/
def Place.parent : Place → Place
  | .inside [] => .outside workspace.reverse
  | .inside (_ :: reversed) => .inside reversed
  | .outside reversed => .outside reversed.tail

/-- The place of a name in the directory at a place. Programs and their libraries are
kept below `usr`, and every process finds the directory it works in. -/
def Place.child (name : String) : Place → Place
  | .inside reversed => .inside (name :: reversed)
  | .outside reversed =>
      if reversed = [] ∧ ["bin", "lib", "lib64", "sbin"].contains name then
        .outside [name, "usr"]
      else if reversed = ["self", "proc"] ∧ name = "cwd" then .inside []
      else .outside (name :: reversed)

def follow (tree : FileTree) (place : Place) (component : String) :
    Except ReadFailure Place :=
  match tree.nodeAt? place with
  | none => .error .noSuchFile
  | some (.file _) => .error .notDirectory
  | some .directory =>
      if component.utf8ByteSize > maxComponent then .error .nameTooLong
      else if component = "." then .ok place
      else if component = ".." then .ok place.parent
      else
        let child := place.child component
        if (tree.nodeAt? child).isSome then .ok child else .error .noSuchFile

def read (tree : FileTree) (path : String) : Except ReadFailure (List UInt8) := do
  if path.toList.contains '\x00' then throw .embeddedNul
  if path = "" then throw .noSuchFile
  if path.utf8ByteSize > maxPath then throw .nameTooLong
  let start : Place := if path.startsWith "/" then .outside [] else .inside []
  let place ← (components path).foldlM tree.follow start
  match tree.nodeAt? place with
  | some (.file content) => if path.endsWith "/" then .error .notDirectory else .ok content
  | some .directory => .error .isDirectory
  | none => .error .noSuchFile

end FileTree

end Chip8

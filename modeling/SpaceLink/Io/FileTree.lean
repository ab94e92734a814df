import SpaceLink.Bytes
import SpaceLink.Io.Error
import SpaceLink.Text.Split

/-! # File trees

Files in directories, and the way that a path takes through them. Every name of a path has to be
looked up in a directory, so behind the name of a file none can follow.
-/
namespace SpaceLink

inductive FileTree where
  | file (contents : Bytes)
  | directory (entries : List (String × FileTree))

namespace FileTree

def maxName : Nat := 255

def maxPath : Nat := 4095

/-- Follows names from a place, with the directories above it, the nearest first. An empty name and
a dot stay in a directory, and two dots go up; the root is above itself. -/
def follow (above : List FileTree) (here : FileTree) : List String → Except IoError FileTree
  | [] => .ok here
  | name :: rest =>
    match here with
    | file _ => .error .notDirectory
    | directory entries =>
      if name = "" ∨ name = "." then follow above here rest
      else if name = ".." then
        match above with
        | [] => follow [] here rest
        | parent :: above => follow above parent rest
      else if maxName < name.utf8ByteSize then .error .nameTooLong
      else match entries.lookup name with
        | some next => follow (here :: above) next rest
        | none => .error .noSuchFile

/-- What a path leads to, from the root if it begins with a slash, else from a directory in it. -/
def resolve (root working : FileTree) (path : String) : Except IoError FileTree :=
  if path.isEmpty then .error .noSuchFile
  else if maxPath < path.utf8ByteSize then .error .nameTooLong
  else
    let names := (Text.parts '/' path.toList).map String.ofList
    if path.startsWith "/" then follow [] root names else follow [root] working names

def read (root working : FileTree) (path : String) : Except IoError Bytes := do
  match ← root.resolve working path with
  | file contents => return contents
  | directory _ => throw .isDirectory

def empty : FileTree := directory []

/-- A directory of empty ones. -/
def ofNames (names : List String) : List (String × FileTree) := names.map fun name => (name, empty)

/-- The only user of a machine, in the form of its list of users. -/
def users : String := "root:x:0:0:root:/root:/bin/sh\n"

/-- A machine with the usual directories, the device that has nothing to read, and more files at
its root. -/
def plain (files : List (String × Bytes)) : FileTree := directory (
  files.map (fun (name, contents) => (name, file contents)) ++ [
    ("dev", directory (("null", file []) :: ofNames ["pts", "shm"])),
    ("etc", directory [("passwd", file (utf8 users))]),
    ("usr", directory (ofNames ["bin", "include", "lib", "local", "sbin", "share", "src"])),
    ("var", directory (ofNames ["cache", "lib", "log", "run", "spool", "tmp"]))] ++
  ofNames ["bin", "boot", "home", "lib", "media", "mnt", "opt", "proc", "root", "run",
    "sbin", "srv", "sys", "tmp"])

end FileTree
end SpaceLink

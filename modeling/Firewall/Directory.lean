import Firewall.Terminal

/-!
A working directory of plain files, without directories in it, and the paths that lead into it or
out of it. Of what lies outside, the directories above it and the usual ones at the root are taken
to be there.
-/

namespace Firewall

structure File where
  text : String
  executable : Bool := false
deriving DecidableEq, Repr

namespace Path

/-- The steps of a path behind its root; empty steps and single points lead nowhere. -/
def steps (path : String) : List String :=
  (path.splitOn "/").filter fun step => step ≠ "" ∧ step ≠ "."

/-- The root that a path starts at, if it does not start in the working directory. Two slashes at
the front are a root of their own; any other number of them is one. -/
def root (path : String) : String :=
  match (path.toList.takeWhile (· = '/')).length with
  | 0 => ""
  | 2 => "//"
  | _ => "/"

def normal (path : String) : String :=
  let written := root path ++ "/".intercalate (steps path)
  if written.isEmpty then "." else written

/-- The path of the directory that a path lies in, written so that it can be of nothing else. -/
def parent (path : String) : String :=
  root path ++ "/".intercalate ("." :: (steps path).dropLast ++ ["."])

def rootDirectories : List String :=
  ["bin", "boot", "dev", "etc", "home", "lib", "media", "mnt", "opt", "proc", "root", "run", "sbin",
    "srv", "sys", "tmp", "usr", "var"]

/-- The device that reads as a blank file. -/
def nullDevice : String := "/dev/null"

/-- The steps behind the directories that are taken to be there; `depth` is how far below the root
the steps begin, if that is known. -/
def behindKnown (depth : Option Nat) : List String → List String
  | [] => []
  | step :: rest =>
    if step = ".." then behindKnown (depth.map (· - 1)) rest
    else if depth = some 0 ∧ rootDirectories.contains step then behindKnown (some 1) rest
    else step :: rest

def unknownSteps (path : String) : List String :=
  behindKnown (if (root path).isEmpty then none else some 0) (steps path)

end Path

namespace SystemFault

def noSuchFile (path : String) : SystemFault :=
  { number := some 2, reason := "No such file or directory", path := some path }

def notDirectory (path : String) : SystemFault :=
  { number := some 20, reason := "Not a directory", path := some path }

def isDirectory (path : String) : SystemFault :=
  { number := some 21, reason := "Is a directory", path := some path }

def nameTooLong (path : String) : SystemFault :=
  { number := some 36, reason := "File name too long", path := some path }

/-- A path that never reaches the operating system, which gives no number to it. -/
def nullInPath (path : String) : SystemFault :=
  { reason := "embedded null byte", path := some path }

/-- Whether a fault is of the path as it is written. -/
def isUnusablePath (f : SystemFault) : Bool := f.number.isNone && f.path.isSome

end SystemFault

/-- The files of a working directory by their names, and files outside of it by their paths. -/
abbrev Directory (α : Type) := List (String × α)

namespace Directory

variable {α : Type}

def isInside (entry : String × α) : Bool := !entry.1.contains '/'

/-- The longest path and the longest name in it, in bytes. -/
def pathLimit : Nat := 4095

def nameLimit : Nat := 255

/-- The entry that a path leads to, whether it is there or not, or why it leads to none. -/
def locate (d : Directory α) (path : String) : Except SystemFault String :=
  let place := Path.normal path
  let steps := Path.steps path
  if path.contains '\x00' then .error (.nullInPath place)
  else if pathLimit < place.utf8ByteSize then .error (.nameTooLong place)
  else if (d.lookup place).isSome then .ok place
  else match Path.unknownSteps path with
    | [] => .error (.isDirectory place)
    | name :: rest =>
      let known := Path.root path ++ "/".intercalate (steps.take (steps.length - rest.length))
      if nameLimit < name.utf8ByteSize then .error (.nameTooLong place)
      else if rest.isEmpty then .ok place
      else if (d.lookup known).isSome then .error (.notDirectory place)
      else .error (.noSuchFile place)

def read (d : Directory α) (path : String) : Except SystemFault α := do
  let place ← d.locate path
  match d.lookup place with
  | some a => return a
  | none => throw (.noSuchFile place)

/-- The directory with a file in place of the one of its name, or after all others. -/
def put (d : Directory α) (place : String) (a : α) : Directory α :=
  if (d.lookup place).isSome then d.map fun entry => if entry.1 = place then (place, a) else entry
  else d ++ [(place, a)]

def write (d : Directory α) (path : String) (a : α) : Except SystemFault (Directory α) := do
  let place ← d.locate path
  return d.put place a

end Directory
end Firewall

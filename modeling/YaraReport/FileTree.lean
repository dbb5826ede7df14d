/-
This file models a file system as far as the program can see it: directories and
plain files at places, a place being the names on the way from the root. A path
is followed segment by segment; every step needs a directory to stand in, so a
path that goes on after a plain file is refused for another reason than one whose
next name does not exist. Names and paths have a greatest length. That of a path
is looked at before it is followed, that of a name only when its turn comes.
-/

import YaraReport.SystemError

namespace YaraReport

abbrev Place := List String

structure File where
  content : List UInt8
  runnable : Bool
  deriving DecidableEq, Repr

inductive Node where
  | directory
  | file (file : File)
  deriving DecidableEq, Repr

/-- A file system: what stands at each place, the first entry for a place counting. The root is
a directory whatever the entries say. -/
structure FileTree where
  entries : List (Place × Node)
  deriving DecidableEq, Repr

namespace FileTree

def empty : FileTree := ⟨[]⟩

def node? (tree : FileTree) (place : Place) : Option Node :=
  if place = [] then some .directory else tree.entries.lookup place

def set (tree : FileTree) (place : Place) (node : Node) : FileTree :=
  ⟨(place, node) :: tree.entries.filter fun entry => entry.1 ≠ place⟩

def erase (tree : FileTree) (place : Place) : FileTree :=
  ⟨tree.entries.filter fun entry => entry.1 ≠ place⟩

/-! ### Following paths -/

def nameLimit : Nat := 255

def pathLimit : Nat := 4095

/-- The directory in which a step of a path ends, or the name it leads to. -/
def step (place : Place) (segment : String) : Place :=
  if segment = "" ∨ segment = "." then place
  else if segment = ".." then place.dropLast
  else place ++ [segment]

/-- Follows segments from a place. Every step needs a directory to stand in, and a name that is
not too long. -/
def follow (tree : FileTree) (place : Place) : List String → Except SystemError Place
  | [] => .ok place
  | segment :: rest =>
    match tree.node? place with
    | none => .error .notFound
    | some (.file _) => .error .notDirectory
    | some .directory =>
      if nameLimit < segment.utf8ByteSize then .error .nameTooLong
      else follow tree (step place segment) rest

/-- Where a path begins, given the directory it is relative to. -/
def origin (directory : Place) (path : String) : Place :=
  if Path.isRooted path then [] else directory

/-- The place that a path leads to and what stands there. The names are looked up one at a time,
so that only they are limited and not the path as a whole. -/
def resolve (tree : FileTree) (directory : Place) (path : String) :
    Except SystemError (Place × Node) :=
  if SystemError.holdsZero path then .error .zeroInPath
  else if path = "" then .error .notFound
  else
    match tree.follow (origin directory path) (Path.segments path) with
    | .error error => .error error
    | .ok place =>
      match tree.node? place with
      | some node => .ok (place, node)
      | none => .error .notFound

/-- Why a path is refused as a whole, before it is followed. -/
def refusal? (path : String) : Option SystemError :=
  if SystemError.holdsZero path then some .zeroInPath
  else if path = "" then some .notFound
  else if pathLimit < path.utf8ByteSize then some .nameTooLong
  else none

def find (tree : FileTree) (directory : Place) (path : String) :
    Except SystemError (Place × Node) :=
  match refusal? path with
  | some error => .error error
  | none => tree.resolve directory path

def exists? (tree : FileTree) (directory : Place) (path : String) : Bool :=
  (tree.find directory path).isOk

def isFile (tree : FileTree) (directory : Place) (path : String) : Bool :=
  match tree.find directory path with
  | .ok (_, .file _) => true
  | _ => false

def read (tree : FileTree) (directory : Place) (path : String) :
    Except SystemError (List UInt8) :=
  match tree.find directory path with
  | .ok (_, .file file) => .ok file.content
  | .ok (_, .directory) => .error .isDirectory
  | .error error => .error error

/-- The segments to follow for a path that is written to. Slashes at its end count as one, and
the name before them is left out: no file is made there, whatever the name. -/
def writtenWay (segments : List String) : List String :=
  let names := (segments.reverse.dropWhile (· = "")).reverse
  if segments.getLast? = some "" then names.dropLast ++ [""] else names

/-- Where a file is created or replaced when a path is written to. The path must lead to a
directory up to its last name, and must not end as only the path of a directory may. -/
def target (tree : FileTree) (directory : Place) (path : String) : Except SystemError Place :=
  let segments := Path.segments path
  match refusal? path with
  | some error => .error error
  | none =>
    match tree.follow (origin directory path) (writtenWay segments) with
    | .error error => .error error
    | .ok place =>
      if segments.getLast? = some "" ∨ tree.node? place = some .directory then
        .error .isDirectory
      else .ok place

/-- Where a file is created that a path names, when nothing may stand there yet. -/
def vacancy (tree : FileTree) (directory : Place) (path : String) : Except SystemError Place :=
  match refusal? path with
  | some error => .error error
  | none =>
    match tree.follow (origin directory path) (Path.segments path) with
    | .error error => .error error
    | .ok place => if (tree.node? place).isSome then .error .alreadyThere else .ok place

/-- The file system after bytes are written to the file that a path names. -/
def write (tree : FileTree) (directory : Place) (path : String) (content : List UInt8) :
    Except SystemError FileTree :=
  match tree.target directory path with
  | .error error => .error error
  | .ok place =>
    match tree.node? place with
    | some (.file file) => .ok (tree.set place (.file { file with content }))
    | some .directory | none => .ok (tree.set place (.file ⟨content, false⟩))

/-! ### Laws -/

theorem node?_set (tree : FileTree) (place : Place) (node : Node) (named : place ≠ []) :
    (tree.set place node).node? place = some node := by
  simp [node?, set, named]

end FileTree

end YaraReport

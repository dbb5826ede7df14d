/-
This file models what surrounds the program: the files, the directory it works
in, its environment, the clock, and the programs it can start. A program is known
by what a run of it does, given its arguments: what it leaves in the file that
its last argument names, and what its watcher sees. A file that may be run is a
program, or a script that another file runs, or neither.

The system may refuse a request for reasons that do not show in the files, such as
a full disk or missing rights. For which requests it does so is a fact of the
surroundings, and every request is modelled with its refusals.
-/

import YaraReport.FileTree
import YaraReport.Child.Supervision
import YaraReport.Interpreter

namespace YaraReport

structure Performance where
  /-- The bytes that it leaves in the file that its last argument names, if it writes there. -/
  written : Option (List UInt8)
  run : Child.Run

abbrev Program := List String → Performance

structure Launch where
  program : Place
  arguments : List String
  files : FileTree

/-- What the system refuses for reasons that do not show in the files. -/
structure Refusals where
  /-- To open a file at a place for writing, where there may be none yet. -/
  opening? : Place → Option SystemError
  /-- To write to an open file at a place. -/
  writing? : Place → Option SystemError
  /-- To move a file from one place to another, which may lie on another disk. -/
  moving? : Place → Place → Option SystemError
  /-- To start a number of threads. -/
  threading? : Nat → Option SystemError

def Refusals.none : Refusals :=
  ⟨fun _ => .none, fun _ => .none, fun _ _ => .none, fun _ => .none⟩

structure Machine where
  files : FileTree
  directory : Place
  environment : List (String × String)
  /-- The reading of the clock in nanoseconds. -/
  clock : Nat
  programs : Place → Option Program
  refusals : Refusals
  /-- The random parts of the names that are tried for temporary files. -/
  scratchNames : Nat → String
  /-- How many of these names have been tried. -/
  scratchCount : Nat
  /-- The rows on the error stream where the program breaks down for a reason: the part of it that
  breaks down, and where, is named there as well. -/
  alarm : String → List String

def Place.path (place : Place) : String :=
  if place = [] then "/" else String.join (place.map fun name => "/" ++ name)

namespace Machine

def environmentValue? (machine : Machine) (name : String) : Option String :=
  machine.environment.lookup name

def absolute (machine : Machine) (path : String) : String :=
  Path.absolute (Place.path machine.directory) path

def find (machine : Machine) (path : String) : Except SystemError (Place × Node) :=
  machine.files.find machine.directory path

def resolve (machine : Machine) (path : String) : Except SystemError (Place × Node) :=
  machine.files.resolve machine.directory path

def exists? (machine : Machine) (path : String) : Bool :=
  machine.files.exists? machine.directory path

def isFile (machine : Machine) (path : String) : Bool :=
  machine.files.isFile machine.directory path

def read (machine : Machine) (path : String) : Except SystemError (List UInt8) :=
  machine.files.read machine.directory path

/-! ### Temporary files -/

/-- A temporary file that was made. -/
structure Scratch where
  /-- Its absolute path. -/
  path : String
  place : Place
  deriving DecidableEq, Repr

/-- A refusal to make a temporary file, and the path that it is about. -/
structure ScratchRefusal where
  path : String
  error : SystemError
  deriving DecidableEq, Repr

/-- The directory for temporary files. -/
def scratchDirectory (machine : Machine) : String :=
  let directory := (machine.environmentValue? "TMPDIR").getD "/tmp"
  if Path.isRooted directory then directory
  else Path.join (Place.path machine.directory) directory

/-- Where a new file is opened at a path. -/
def vacancy (machine : Machine) (path : String) : Except SystemError Place :=
  match machine.files.vacancy machine.directory path with
  | .error error => .error error
  | .ok place =>
    match machine.refusals.opening? place with
    | some error => .error error
    | none => .ok place

/-- How many names are tried for a temporary file. -/
def scratchTries : Nat := 65536

/-- Makes an empty temporary file in a directory, trying one name after the other until there is
nothing of that name. -/
def tryScratch (machine : Machine) (directory extension : String) :
    Nat → Except ScratchRefusal (Scratch × Machine)
  | 0 => .error ⟨directory, .tooManyScratchFiles⟩
  | tries + 1 =>
    let name := "yarapipe-" ++ machine.scratchNames machine.scratchCount ++ extension
    let path := Path.join directory name
    let tried := { machine with scratchCount := machine.scratchCount + 1 }
    match machine.vacancy path with
    | .ok place =>
      .ok (⟨path, place⟩, { tried with files := machine.files.set place (.file ⟨[], false⟩) })
    | .error error =>
      if error = .alreadyThere then tryScratch tried directory extension tries
      else .error ⟨path, error⟩

def makeScratch (machine : Machine) (extension : String) :
    Except ScratchRefusal (Scratch × Machine) :=
  machine.tryScratch machine.scratchDirectory extension scratchTries

/-- Writes to a temporary file that is empty. To write nothing is never refused. -/
def fillScratch (machine : Machine) (scratch : Scratch) (content : List UInt8) :
    Except SystemError Machine :=
  match content, machine.refusals.writing? scratch.place with
  | _ :: _, some error => .error error
  | _, _ =>
    .ok { machine with files := machine.files.set scratch.place (.file ⟨content, false⟩) }

def dropScratch (machine : Machine) (scratch : Scratch) : Machine :=
  { machine with files := machine.files.erase scratch.place }

/-! ### Moving and copying files -/

/-- Moves the file at a path to where another path leads. What stands there is replaced. -/
def move (machine : Machine) (source destination : String) : Except SystemError Machine :=
  match machine.find source with
  | .error error => .error error
  | .ok (origin, node) =>
    match machine.files.target machine.directory destination with
    | .error error => .error error
    | .ok place =>
      match machine.refusals.moving? origin place with
      | some error => .error error
      | none => .ok { machine with files := (machine.files.erase origin).set place node }

/-- Copies the file at a path to where another path leads, with the right to be run if it has that.
What stands there is replaced. -/
def copy (machine : Machine) (source destination : String) : Except SystemError Machine :=
  match machine.find source with
  | .error error => .error error
  | .ok (_, .directory) => .error .notPlain
  | .ok (_, .file file) =>
    match machine.files.target machine.directory destination with
    | .error error => .error error
    | .ok place =>
      match machine.refusals.opening? place with
      | some error => .error error
      | none => .ok { machine with files := machine.files.set place (.file file) }

/-! ### Threads -/

/-- Why a scan cannot have as many threads as it is asked to have; none at all are started where
none are asked for. -/
def poolRefusal? (machine : Machine) (threads : Nat) : Option SystemError :=
  if threads = 0 then none else machine.refusals.threading? threads

/-! ### Starting programs -/

def runnableAt (machine : Machine) (path : String) : Except SystemError Place :=
  match machine.find path with
  | .error error => .error error
  | .ok (_, .directory) => .error .notPermitted
  | .ok (place, .file file) => if file.runnable then .ok place else .error .notPermitted

/-- The number of bytes that one argument of a program may have. -/
def argumentLimit : Nat := 131071

/-- A program with the arguments that it is started with. -/
structure Call where
  place : Place
  program : Program
  arguments : List String

/-- The interpreter of the script at a place, if there is a script. -/
def interpreterAt (machine : Machine) (place : Place) : Option Interpreter :=
  match machine.files.node? place with
  | some (.file file) => Interpreter.ofContent? file.content
  | _ => none

/-- The number of files, the program at their end included, that may run each other. -/
def chainLimit : Nat := 6

/-- What running the file at a place with some arguments calls in the end, when `path` is what
the file is called by and no more than `limit` files may run each other. -/
def callOf (machine : Machine) (limit : Nat) (place : Place) (path : String)
    (arguments : List String) : Except SystemError Call :=
  match limit with
  | 0 => .error .tooManyLinks
  | limit + 1 =>
    match machine.programs place with
    | some program => .ok ⟨place, program, arguments⟩
    | none =>
      match machine.interpreterAt place with
      | none => .error .notRunnable
      | some interpreter =>
        match machine.runnableAt interpreter.path with
        | .error error => .error error
        | .ok place =>
          callOf machine limit place interpreter.path (interpreter.arguments path ++ arguments)

/-- What running the file at a path with some arguments calls. The arguments are looked at only
once there is a file to run, and the file is read only after that. -/
def callAt (machine : Machine) (arguments : List String) (path : String) :
    Except SystemError Call :=
  match machine.runnableAt path with
  | .error error => .error error
  | .ok place =>
    if arguments.any fun argument => argumentLimit < argument.utf8ByteSize then
      .error .argumentsTooLong
    else machine.callOf chainLimit place path arguments

/-- The directories that bare program names are looked for in. -/
def searchPath (machine : Machine) : List String :=
  match machine.environmentValue? "PATH" with
  | some value => (value.toList.splitOn ':').map String.ofList
  | none => ["/bin", "/usr/bin"]

/-- The refusal that a search reports after one more candidate was refused: the latest, but a
candidate that exists and may not be run counts more than one that does not exist. -/
def graver (former latter : SystemError) : SystemError :=
  if former = .notPermitted then former else latter

/-- Looks for a bare name in directories. A candidate that does not exist or may not be run
does not end the search. -/
def search (machine : Machine) (arguments : List String) (name : String)
    (refusal : SystemError) : List String → Except SystemError Call
  | [] => .error refusal
  | directory :: rest =>
    match machine.callAt arguments
        (if directory = "" then name else Path.join directory name) with
    | .ok call => .ok call
    | .error error =>
      if error ∈ [.notFound, .notDirectory, .notPermitted] then
        search machine arguments name (graver refusal error) rest
      else .error error

/-- What running a program with some arguments calls, given its path or bare name. -/
def call (machine : Machine) (name : String) (arguments : List String) :
    Except SystemError Call :=
  if (name :: arguments).any SystemError.holdsZero then .error .zeroInArgument
  else if name = "" then .error .notFound
  else if '/' ∈ name.toList then machine.callAt arguments name
  else machine.search arguments name .notFound machine.searchPath

/-- A program that has been started. -/
structure Started where
  launch : Launch
  run : Child.Run
  machine : Machine

/-- The surroundings after a program has written to the file that its last argument names; a
file that cannot be written to stays as it is. -/
def writeLast (machine : Machine) (arguments : List String) (written : Option (List UInt8)) :
    Machine :=
  match written, arguments.getLast? with
  | some content, some path =>
    match machine.files.write machine.directory path content with
    | .ok files => { machine with files }
    | .error _ => machine
  | _, _ => machine

def launch (machine : Machine) (name : String) (arguments : List String) :
    Except SystemError Started :=
  match machine.call name arguments with
  | .error error => .error error
  | .ok call =>
    let performance := call.program call.arguments
    .ok ⟨⟨call.place, call.arguments, machine.files⟩, performance.run,
      machine.writeLast call.arguments performance.written⟩

end Machine

end YaraReport

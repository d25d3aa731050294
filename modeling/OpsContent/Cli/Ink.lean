import OpsContent.Text.Blank

/-!
# Coloured text

Text for people may be coloured. An ink is switched on in front of a text and off behind it.
-/

namespace OpsContent.Cli

/-- How a part of the output is set off. -/
inductive Ink where
  | bold
  | dimmed
  | green
  | yellow
  | cyan
  deriving DecidableEq

namespace Ink

def code : Ink → String
  | .bold => "1"
  | .dimmed => "2"
  | .green => "32"
  | .yellow => "33"
  | .cyan => "36"

def start (ink : Ink) : String :=
  "\x1b[" ++ ink.code ++ "m"

def reset : String := "\x1b[0m"

/-- Take the ink up again behind every reset. -/
def renew (ink : Ink) : List Char → List Char
  | '\x1b' :: '[' :: '0' :: 'm' :: rest => reset.toList ++ ink.start.toList ++ renew ink rest
  | char :: rest => char :: renew ink rest
  | [] => []

/-- Set a text off, if colors are wanted. -/
def paint (colors : Bool) (ink : Ink) (text : String) : String :=
  if colors then ink.start ++ String.ofList (ink.renew text.toList) ++ reset else text

/-- Are colours wanted? A terminal shows them unless `CLICOLOR` is zero; `NO_COLOR` switches them
off, and a `CLICOLOR_FORCE` other than zero on. -/
def wanted (environment : String → Option String) (terminal : Bool) : Bool :=
  if (environment "CLICOLOR_FORCE").any (· != "0") then true
  else if (environment "NO_COLOR").isSome then false
  else terminal && (environment "CLICOLOR").all (· != "0")

end Ink

end OpsContent.Cli

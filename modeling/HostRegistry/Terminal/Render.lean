import HostRegistry.Json.Printer
import HostRegistry.Report

/-!
Output as text on the two streams.

A plain terminal gets tagged lines on standard output. A fancy one gets the tagged lines as marked
blocks on standard error, with a bar down the left side. Lines of the log go to standard error in
one of two formats. Colours and other styles are left out.
-/

set_option autoImplicit false

namespace HostRegistry

/-- Text on the two streams. -/
structure Streams where
  output : String
  errors : String
  deriving DecidableEq

namespace Streams

/-- No text. -/
def empty : Streams := ⟨"", ""⟩

/-- One text after another, on each stream. -/
def append (a b : Streams) : Streams := ⟨a.output ++ b.output, a.errors ++ b.errors⟩

instance : Append Streams := ⟨append⟩

/-- A line of standard output. -/
def line (text : String) : Streams := ⟨text ++ "\n", ""⟩

end Streams

namespace Terminal

/-- The lines of a text; the break after the last one is left out, and a carriage return before a
break belongs to it. -/
def linesOf (current : List Char) : List Char → List String
  | [] => if current = [] then [] else [String.ofList current.reverse]
  | '\r' :: '\n' :: r => String.ofList current.reverse :: linesOf [] r
  | '\n' :: r => String.ofList current.reverse :: linesOf [] r
  | c :: r => linesOf (c :: current) r

/-- A block with a mark before its first line and a bar before the others. An empty line ends it. -/
def markedBlock (mark text : String) : String :=
  match linesOf [] text.toList ++ [""] with
  | [] => ""
  | first :: rest =>
    mark ++ "  " ++ first ++ "\n" ++ String.join (rest.map fun l => "│  " ++ l ++ "\n")

/-- A message with its detail. -/
def detailed (message : String) : Option String → String
  | some detail => message ++ " (" ++ detail ++ ")"
  | none => message

/-- A piece of output on a plain terminal. -/
def plain : Notice → Streams
  | .intro title => .line (title ++ "\n")
  | .heading title => .line ("\n" ++ title)
  | .success message detail => .line ("  [OK] " ++ detailed message detail)
  | .warning message hint => .line ("  [WARN] " ++ message ++ " - " ++ hint)
  | .info message => .line ("  [INFO] " ++ message)
  | .field key value => .line ("  " ++ key ++ ": " ++ value)

/-- A piece of output on a fancy terminal, without its colours and other styles. -/
def fancy : Notice → Streams
  | .intro title => ⟨"", "┌  " ++ title ++ "\n│\n"⟩
  | .heading title => ⟨"\n", markedBlock "●" title⟩
  | .success message detail => ⟨"", markedBlock "◆" (detailed message detail)⟩
  | .warning message hint => ⟨"", markedBlock "▲" (message ++ " - " ++ hint)⟩
  | .info message => ⟨"", markedBlock "●" message⟩
  | .field key value => .line ("  " ++ key ++ ": " ++ value)

/-! ## The log -/

/-- How lines of the log are written. -/
inductive LogFormat where
  | text
  | json
  deriving DecidableEq

/-- A character of a message in the text format. What could command a terminal is spelled out. -/
def logChar (c : Char) : List Char :=
  if c = '\x1b' ∨ c = '\x07' ∨ c = '\x08' ∨ c = '\x0c' ∨ c = '\x7f' then
    ['\\', 'x', Nat.digitChar (c.toNat / 16), Nat.digitChar (c.toNat % 16)]
  else if 0x80 ≤ c.toNat ∧ c.toNat ≤ 0x9F then
    ['\\', 'u', '{'] ++ Nat.toDigits 16 c.toNat ++ ['}']
  else [c]

/-- The name of a level, five characters wide. -/
def paddedLevel : Level → String
  | .debug => "DEBUG"
  | .info => " INFO"

/-- A written line of the log. -/
def logText (format : LogFormat) (timestamp : String) (entry : LogLine) : String :=
  match format with
  | .text => paddedLevel entry.level ++ " " ++ String.ofList (entry.message.toList.flatMap logChar) ++ "\n"
  | .json =>
    String.ofList (Json.object .compact 0
      [Json.member .compact "timestamp" (Json.quote timestamp),
        Json.member .compact "level" (Json.quote entry.level.text),
        Json.member .compact "fields"
          (Json.textMembers .compact 1 [("message", entry.message)])]) ++ "\n"

/-- What is written, and how. -/
structure Settings where
  isFancy : Bool
  shown : Level → Bool
  format : LogFormat

/-- A report as text. Lines of the log may say when they were written. -/
def render (settings : Settings) (timestamp : String) (report : Report) : Streams :=
  match report with
  | .notice notice => if settings.isFancy then fancy notice else plain notice
  | .line text => .line text
  | report =>
    match report.logLine? with
    | some entry =>
      if settings.shown entry.level then ⟨"", logText settings.format timestamp entry⟩
      else .empty
    | none => .empty

/-- Settings for a plain terminal without a log. -/
def quiet : Settings := ⟨false, fun _ => false, .text⟩

end Terminal

end HostRegistry

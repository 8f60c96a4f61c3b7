import HostRegistry.CommandLine.Grammar

/-!
Why a command line is not run: it is wrong, or it asks for the help or the version.
-/

set_option autoImplicit false

namespace HostRegistry.CommandLine

/-- Why a text is no attribute. -/
inductive EntryFault where
  | noSign (text : String)
  | noKey (text : String)
  deriving DecidableEq

/-- The words for a fault. -/
def EntryFault.message : EntryFault → String
  | .noSign text => "invalid KEY=VALUE format: no '=' found in '" ++ text ++ "'"
  | .noKey text => "invalid KEY=VALUE format: empty key in '" ++ text ++ "'"

/-- The attribute that a text is: its key before the first equality sign, its value after it. -/
def readEntry (text : String) : Except EntryFault (String × String) :=
  match text.toList.span (· ≠ '=') with
  | (_, []) => .error (.noSign text)
  | ([], _) => .error (.noKey text)
  | (key, _ :: value) => .ok (String.ofList key, String.ofList value)

/-- Why a command line is not run. -/
inductive UsageFault where
  | help
  | version (node : Node)
  | nothingAsked
  | missingCommand
  | unknownCommand
  | unknownArgument
  | missingOperand
  | invalidValue
  | superfluousValue
  | repeatedSwitch
  | invalidEntry (fault : EntryFault)
  deriving DecidableEq

/-- Whether a command line asked for what it gets, so that nothing is wrong. -/
def UsageFault.isAnswer : UsageFault → Bool
  | .help | .version _ => true
  | _ => false

end HostRegistry.CommandLine

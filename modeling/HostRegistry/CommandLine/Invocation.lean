import HostRegistry.CommandLine.Reader

/-!
A command line as a whole: the command, and the switches that may stand anywhere.

Of a switch that several nodes are given, the value of the last node counts, and where no node is
given one the variable of the environment does.
-/

set_option autoImplicit false

namespace HostRegistry.CommandLine

/-- What a command line asks for. -/
structure Invocation where
  command : Command
  verbosity : Nat
  config : Option String
  host : Option String
  storeDirectory : Option String
  deriving DecidableEq

/-- The last of the values given. -/
def lastGiven {α : Type} (values : List (Option α)) : Option α :=
  values.foldl (fun earlier later => later.or earlier) none

/-- The value of a setting that counts. -/
def effective (env : Environment) (setting : Setting) (values : List (Option String)) :
    Option String :=
  (lastGiven values).or (setting.standIn?.bind env.get?)

/-- What the arguments of the program ask for. -/
def Invocation.ofArguments (env : Environment) (arguments : List String) :
    Except UsageFault Invocation := do
  let (command, values) ← readFrom env .program .start arguments
  let verbosities := values.map fun v => if v.verbosity = 0 then none else some v.verbosity
  return {
    command
    verbosity := (lastGiven verbosities).getD 0
    config := effective env .config (values.map Values.config)
    host := effective env .host (values.map Values.host)
    storeDirectory := effective env .storeDirectory (values.map Values.storeDirectory) }

end HostRegistry.CommandLine

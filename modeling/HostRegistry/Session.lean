import HostRegistry.Command.Config
import HostRegistry.Command.Host
import HostRegistry.CommandLine.Invocation
import HostRegistry.Terminal.Render

/-!
A whole run of the program: from its arguments to what it writes and how it ends.

The arguments are read, then the configuration, then the command runs. How reports are written is
known only once the configuration is, so what was reported before is never written.
-/

set_option autoImplicit false

namespace HostRegistry

/-- What a run finds around it. -/
structure Surroundings where
  environment : Environment
  isTerminal : Bool

/-- How a run ends. -/
inductive Ending where
  | done
  | unusable (fault : CommandLine.UsageFault)
  | failed (error : Error)
  deriving DecidableEq

/-- A report, and how it is to be written. -/
structure Display where
  settings : Terminal.Settings
  report : Report

/-- The text of a display at a time. -/
def Display.text (display : Display) (timestamp : String) : Streams :=
  Terminal.render display.settings timestamp display.report

namespace Ending

/-- The name of the program at a node of the command line. -/
def programName (node : CommandLine.Node) : String := "-".intercalate ("hostinfo" :: node.words)

/-- The version of the program. -/
def programVersion : String := "0.1.0"

/-- How the program is called. -/
def usage : String := "Usage: hostinfo [OPTIONS] <COMMAND>\n"

/-- What is written about an ending. The help is left out but for its usage line, and so is what a
usage error says of the argument that is wrong. -/
def text : Ending → Streams
  | .done => .empty
  | .unusable (.version node) => .line (programName node ++ " " ++ programVersion)
  | .unusable .help => ⟨usage, ""⟩
  | .unusable (.invalidEntry fault) => ⟨"", "error: " ++ fault.message ++ "\n\n" ++ usage⟩
  | .unusable _ => ⟨"", usage⟩
  | .failed error =>
    ⟨"", "Error: " ++ error.message ++ "\n" ++
      match error.hint? with
      | some hint => "Hint: " ++ hint ++ "\n"
      | none => ""⟩

/-- The exit code for an ending. -/
def code : Ending → Nat
  | .done => 0
  | .unusable fault => if fault.isAnswer then 0 else 2
  | .failed _ => 1

end Ending

namespace Surroundings

/-- Variables that are set where nobody watches. -/
def unattendedVariables : List String :=
  ["CI", "GITHUB_ACTIONS", "GITLAB_CI", "CIRCLECI", "TRAVIS", "JENKINS_URL", "BUILDKITE"]

/-- Whether somebody watches the output. -/
def isWatched (s : Surroundings) : Bool :=
  s.isTerminal && unattendedVariables.all fun name => (s.environment.get? name).isNone

/-- Whether lines of a level are shown. -/
def shows (verbosity : Nat) : Level → Bool
  | .info => 1 ≤ verbosity
  | .debug => 2 ≤ verbosity

/-- The settings for a verbosity and a configuration. -/
def settings (s : Surroundings) (verbosity : Nat) (config : Config) : Terminal.Settings :=
  { isFancy := s.isWatched
    shown := shows verbosity
    format := if config.logFormat = "json" then .json else .text }

end Surroundings

/-- Runs a command. -/
def Command.run (command : Command) (target : Target) (file : ConfigFile) (config : Config)
    (defaultDirectory : String) : Script Report (Except Error Unit) :=
  match command with
  | .host command => command.run ⟨target, config, defaultDirectory⟩
  | .config action => ConfigAction.run file config action

/-- Runs what a command line asks for. -/
def CommandLine.Invocation.run (invocation : CommandLine.Invocation) (s : Surroundings) :
    Script Display (Except Error Unit) := do
  let file : ConfigFile := ⟨invocation.config.getD s.environment.configPath⟩
  match ← file.load.silent with
  | .error error => return .error error
  | .ok config =>
    let target : Target := ⟨invocation.host, invocation.storeDirectory⟩
    (invocation.command.run target file config s.environment.hostsDirectory).mapReports
      (Display.mk (s.settings invocation.verbosity config))

/-- Runs the program. -/
def Surroundings.run (s : Surroundings) (arguments : List String) : Script Display Ending :=
  match CommandLine.Invocation.ofArguments s.environment arguments with
  | .error fault => return .unusable fault
  | .ok invocation => do
    match ← invocation.run s with
    | .error error => return .failed error
    | .ok _ => return .done

end HostRegistry

import HostRegistry.Session
import HostRegistry.Terminal.Timestamp
import Std.Time.DateTime.Timestamp

/-!
The program: the script of a run, played against the files and the streams of the system.
-/

set_option autoImplicit false

namespace HostRegistry.Program

/-- The fault with a number of the system. Some calls give the number with its sign changed. -/
def faultOfCode (code : UInt32) (text : String) : FileFault :=
  match (if code < 0x80000000 then code else 0 - code).toNat with
  | 2 => .notFound
  | 16 => .busy
  | 17 => .alreadyExists
  | 20 => .notDirectory
  | 21 => .isDirectory
  | 36 => .nameTooLong
  | number => .other number text

/-- The fault that an error of the system is. -/
def faultOf : IO.Error → FileFault
  | .alreadyExists _ code text | .invalidArgument _ code text | .permissionDenied _ code text
  | .resourceExhausted _ code text | .inappropriateType _ code text | .noSuchThing _ code text
  | .interrupted _ code text | .noFileOrDirectory _ code text | .otherError code text
  | .resourceBusy code text | .resourceVanished code text | .unsupportedOperation code text
  | .hardwareFault code text | .unsatisfiedConstraints code text | .illegalOperation code text
  | .protocolError code text | .timeExpired code text => faultOfCode code text
  | .unexpectedEof => .other 5 "Input/output error"
  | .userError text => .other 5 text

/-- Does something with the file at a path. -/
def attempt {α : Type} (path : String) (action : String → IO α) : IO (Except FileFault α) := do
  if '\x00' ∈ path.toList then return .error .badPath
  match ← (action path).toBaseIO with
  | .ok value => return .ok value
  | .error error => return .error (faultOf error)

/-- Whether a path leads anywhere. -/
def leadsSomewhere (path : String) : IO Bool := do
  match ← attempt path fun path => IO.FS.realPath path with
  | .ok _ => return true
  | .error _ => return false

/-- Answers a request. A path that leads to a directory can be followed by one more step. -/
def perform : (request : Request) → IO request.Answer
  | .readFile path => attempt path fun path => IO.FS.readBinFile path
  | .pathExists path => leadsSomewhere path
  | .isDirectory path => if path = "" then return false else leadsSomewhere (path ++ "/.")
  | .makeDirectory path => attempt path fun path => IO.FS.createDir path
  | .writeFile path content => attempt path fun path => IO.FS.writeBinFile path content
  | .moveFile source goal =>
    attempt (source ++ goal) fun _ => IO.FS.rename source goal
  | .removeFile path => attempt path fun path => IO.FS.removeFile path

/-- Plays a script. -/
def play {ρ α : Type} (onReport : ρ → IO Unit) : Script ρ α → IO α
  | .done value => return value
  | .ask request next => do
    let answer ← perform request
    play onReport (next answer)
  | .report item next => do
    onReport item
    play onReport next

/-- Writes text to the two streams. -/
def write (streams : Streams) : IO Unit := do
  let output ← IO.getStdout
  let errors ← IO.getStderr
  output.putStr streams.output
  output.flush
  errors.putStr streams.errors
  errors.flush

/-- The text of this moment. -/
def now : IO String := do
  let moment ← Std.Time.Timestamp.now
  return Terminal.timestamp (moment.toNanosecondsSinceUnixEpoch.toInt.toNat / 1000)

/-- The variables that count. -/
def knownVariables : List String :=
  Environment.placeVariables ++ CommandLine.settingVariables ++ Surroundings.unattendedVariables

/-- The environment of the program. -/
def environment : IO Environment := do
  let mut found : SortedMap String String := ∅
  for name in knownVariables do
    if let some value ← IO.getEnv name then found := found.insert name value
  return ⟨found, none⟩

/-- Runs the program with arguments and gives its exit code. -/
def run (arguments : List String) : IO UInt32 := do
  let surroundings : Surroundings := ⟨← environment, ← (← IO.getStdout).isTty⟩
  let ending ← play (fun display => do write (display.text (← now))) (surroundings.run arguments)
  write ending.text
  return ending.code.toUInt32

end HostRegistry.Program

/-- The entry of the program. -/
def main (arguments : List String) : IO UInt32 := HostRegistry.Program.run arguments

import HostRegistry.Command.Basic
import HostRegistry.CommandLine.Fault

/-!
What was given to one node of the command line, and the command it makes.
-/

set_option autoImplicit false

namespace HostRegistry.CommandLine

/-- Everything that can be given to a node. -/
structure Values where
  verbosity : Nat
  config : Option String
  host : Option String
  storeDirectory : Option String
  labels : List String
  entries : List (String × String)
  force : Bool
  format : Option ShowFormat
  operands : List String
  deriving DecidableEq

namespace Values

/-- Nothing given. -/
def empty : Values := ⟨0, none, none, none, [], [], false, none, []⟩

/-- The highest verbosity. -/
def mostVerbose : Nat := 255

/-- The value of a setting that can be given once. -/
def once {α : Type} (old : Option α) (new : Except UsageFault α) : Except UsageFault (Option α) :=
  match old with
  | some _ => .error .repeatedSwitch
  | none => new.map some

/-- A path; the empty text is none. -/
def readPath (text : String) : Except UsageFault String :=
  if text = "" then .error .invalidValue else .ok text

/-- The format with a name. -/
def readFormat (text : String) : Except UsageFault ShowFormat :=
  if text = "table" then .ok .table
  else if text = "json" then .ok .json
  else if text = "plain" then .ok .plain
  else .error .invalidValue

/-- An attribute. -/
def readAttribute (text : String) : Except UsageFault (String × String) :=
  (readEntry text).mapError .invalidEntry

/-- The values of a node after a toggle. Help and version put an end to everything else. -/
def turnOn (node : Node) (v : Values) : Toggle → Except UsageFault Values
  | .verbose => .ok { v with verbosity := min mostVerbose (v.verbosity + 1) }
  | .force => if v.force then .error .repeatedSwitch else .ok { v with force := true }
  | .help => .error .help
  | .version => .error (.version node)

/-- The values after a setting with its text. -/
def assign (v : Values) (text : String) : Setting → Except UsageFault Values
  | .config => do return { v with config := ← once v.config (readPath text) }
  | .host => do return { v with host := ← once v.host (.ok text) }
  | .storeDirectory => do
    return { v with storeDirectory := ← once v.storeDirectory (readPath text) }
  | .label => .ok { v with labels := v.labels ++ [text] }
  | .attribute => do return { v with entries := v.entries ++ [← readAttribute text] }
  | .format => do return { v with format := ← once v.format (readFormat text) }

/-- The values after operands that are attributes. -/
def assignEntries (v : Values) (texts : List String) : Except UsageFault Values := do
  return { v with entries := v.entries ++ (← texts.mapM readAttribute) }

/-- The values after an operand. -/
def assignOperand (v : Values) (text : String) : Values :=
  { v with operands := v.operands ++ [text] }

/-- Whether none of the switches of every node was given. -/
def isBare (v : Values) : Bool :=
  v.verbosity = 0 && v.config.isNone && v.host.isNone && v.storeDirectory.isNone

/-- The single operand. -/
def onlyOperand (v : Values) : Except UsageFault String :=
  match v.operands with
  | [text] => .ok text
  | _ => .error .missingOperand

/-- The two operands. -/
def bothOperands (v : Values) : Except UsageFault (String × String) :=
  match v.operands with
  | [first, second] => .ok (first, second)
  | _ => .error .missingOperand

/-- The operands, of which there is one at least. -/
def someOf {α : Type} (items : List α) : Except UsageFault (List α) :=
  if items.isEmpty then .error .missingOperand else .ok items

/-- The command that the values of the last node make. -/
def command (v : Values) : Node → Except UsageFault Command
  | .program | .label | .attribute => .error .missingCommand
  | .create => .ok (.host (.create v.labels v.entries v.force))
  | .show => .ok (.host (.show (v.format.getD .table)))
  | .labelGet => do return .host (.label (.get (← v.onlyOperand)))
  | .labelAdd => do return .host (.label (.add (← someOf v.operands)))
  | .labelRemove => do return .host (.label (.remove (← someOf v.operands)))
  | .labelSet => do
    let (family, value) ← v.bothOperands
    return .host (.label (.set family value))
  | .attributeGet => do return .host (.attribute (.get (← v.onlyOperand)))
  | .attributeSet => do return .host (.attribute (.set (← someOf v.entries)))
  | .attributeUnset => do return .host (.attribute (.unset (← someOf v.operands)))
  | .config => .ok (.config none)
  | .configShow => .ok (.config (some .show))
  | .configPath => .ok (.config (some .path))
  | .configInit => .ok (.config (some (.init v.force)))
  | .configSet => do
    let (key, value) ← v.bothOperands
    return .config (some (.set key value))

end Values

end HostRegistry.CommandLine

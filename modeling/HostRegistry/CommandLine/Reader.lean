import HostRegistry.CommandLine.Values
import HostRegistry.Config.Environment

/-!
Reading a command line from left to right.

Each node reads arguments until a word leads to a node below it, which reads the rest. A setting
given without a value waits for the next argument, and what was given last is only looked at when
something else follows it; so of two faults the one met first is reported. Two dashes on their own
make all arguments after them operands.
-/

set_option autoImplicit false

namespace HostRegistry.CommandLine

/-- What was given last and not looked at yet. -/
inductive Pending where
  | nothing
  | setting (setting : Setting) (text : Option String)
  | entries (texts : List String)

/-- How far a node has read. -/
structure Progress where
  values : Values
  pending : Pending
  onlyOperands : Bool

/-- The forms of an argument. -/
inductive Argument where
  | dashes
  | word (word : String) (attached : Option String)
  | letters (letters : List Char)
  | plain

/-- The form of an argument. -/
def Argument.ofText (text : String) : Argument :=
  match text.toList with
  | ['-', '-'] => .dashes
  | '-' :: '-' :: r =>
    match r.span (· ≠ '=') with
    | (name, _ :: attached) => .word (String.ofList name) (some (String.ofList attached))
    | (name, []) => .word (String.ofList name) none
  | '-' :: c :: r => .letters (c :: r)
  | _ => .plain

namespace Progress

/-- Nothing read. -/
def start : Progress := ⟨.empty, .nothing, false⟩

/-- Looks at what is pending. -/
def settle (p : Progress) : Except UsageFault Progress :=
  match p.pending with
  | .nothing => .ok p
  | .setting _ none => .error .invalidValue
  | .setting setting (some text) => do
    return { p with values := ← p.values.assign text setting, pending := .nothing }
  | .entries texts => do
    return { p with values := ← p.values.assignEntries texts, pending := .nothing }

/-- Whether the next argument can only be the value of a setting. -/
def isWaiting (p : Progress) : Bool :=
  match p.pending with
  | .setting _ none => true
  | _ => false

/-- Takes a toggle. -/
def takeToggle (node : Node) (p : Progress) (toggle : Toggle) : Except UsageFault Progress := do
  let p ← p.settle
  return { p with values := ← p.values.turnOn node toggle }

/-- Takes a setting, with its value or before it. -/
def takeSetting (p : Progress) (setting : Setting) :
    Option String → Except UsageFault Progress
  | none => do
    let p ← p.settle
    return { p with pending := .setting setting none }
  | some text => do
    let p ← p.settle
    return { p with values := ← p.values.assign text setting }

/-- Takes a switch given by its word. -/
def takeWord (node : Node) (p : Progress) (word : String) (attached : Option String) :
    Except UsageFault Progress :=
  match node.switchOfWord? word, attached with
  | none, _ => .error .unknownArgument
  | some (.toggle _), some _ => .error .superfluousValue
  | some (.toggle toggle), none => takeToggle node p toggle
  | some (.setting setting), attached => p.takeSetting setting attached

/-- The value that the letters after a setting are, if any. -/
def attachedLetters : List Char → Option String
  | [] => none
  | '=' :: r => some (String.ofList r)
  | r => some (String.ofList r)

/-- Takes switches given by letters. -/
def takeLetters (node : Node) : Progress → List Char → Except UsageFault Progress
  | p, [] => .ok p
  | p, c :: r =>
    match node.switchOfLetter? c with
    | none => .error .unknownArgument
    | some (.setting setting) => p.takeSetting setting (attachedLetters r)
    | some (.toggle toggle) => do takeLetters node (← takeToggle node p toggle) r

/-- The word that leads to the help of any node. -/
def helpWord : String := "help"

/-- Whether a text is a word that leads on from a node. -/
def leadsOn (node : Node) (text : String) : Bool :=
  node.below ≠ [] && (text = helpWord || (node.below.lookup text).isSome)

/-- The fault of an operand that a node has no place for. -/
def misplaced (node : Node) (p : Progress) (text : String) : UsageFault :=
  if node.below = [] ∨ (p.onlyOperands ∧ leadsOn node text) then .unknownArgument
  else .unknownCommand

/-- Takes an operand. -/
def takeOperand (node : Node) (p : Progress) (text : String) : Except UsageFault Progress :=
  match node.operands with
  | .exactly count =>
    if p.values.operands.length < count then do
      let p ← p.settle
      return { p with values := p.values.assignOperand text }
    else .error (misplaced node p text)
  | .texts => do
    let p ← p.settle
    return { p with values := p.values.assignOperand text }
  | .entries =>
    match p.pending with
    | .entries texts => .ok { p with pending := .entries (texts ++ [text]) }
    | _ => do
      let p ← p.settle
      return { p with pending := .entries [text] }

/-- Takes an argument that does not lead to another node. -/
def take (node : Node) (p : Progress) (text : String) : Except UsageFault Progress :=
  if p.onlyOperands then takeOperand node p text
  else
    match Argument.ofText text, p.pending with
    | .dashes, _ => .ok { p with onlyOperands := true }
    | .word word attached, _ => takeWord node p word attached
    | .letters letters, _ => takeLetters node p letters
    | .plain, .setting setting none => .ok { p with pending := .setting setting (some text) }
    | .plain, _ => takeOperand node p text

end Progress

/-- The settings whose variables count as given by themselves. -/
def settingVariables : List String :=
  [Setting.config, .host, .storeDirectory].filterMap Setting.standIn?

/-- Whether a variable that stands in for a path that is not given is empty. -/
def emptyVariable (env : Environment) (setting : Setting) (given : Option String) : Bool :=
  given.isNone && setting.standIn?.bind env.get? = some ""

/-- The values of a node that has read everything. -/
def finish (env : Environment) (p : Progress) : Except UsageFault Values := do
  let values := (← p.settle).values
  if emptyVariable env .config values.config ||
      emptyVariable env .storeDirectory values.storeDirectory then
    .error .invalidValue
  else return values

/-- The command of the last node. Asking for nothing at all is told apart from leaving out the
command. -/
def commandOf (env : Environment) (node : Node) (values : Values) : Except UsageFault Command :=
  match values.command node with
  | .error .missingCommand =>
    if values.isBare && settingVariables.all fun name => (env.get? name).isNone then
      .error .nothingAsked
    else .error .missingCommand
  | answer => answer

/-- What becomes of the word for help: help, unless a word after it leads nowhere. -/
def helpFault : List (String × Node) → List String → UsageFault
  | _, [] => .help
  | below, text :: rest =>
    match below.lookup text with
    | some node => helpFault node.below rest
    | none => if below ≠ [] ∧ text = Progress.helpWord ∧ rest = [] then .help else .unknownCommand

/-- Reads arguments at a node, and gives the command and the values of all nodes from it on. -/
def readFrom (env : Environment) (node : Node) (p : Progress) :
    List String → Except UsageFault (Command × List Values)
  | [] => do
    let values ← finish env p
    return (← commandOf env node values, [values])
  | text :: rest =>
    if p.onlyOperands || p.isWaiting || !Progress.leadsOn node text then do
      readFrom env node (← Progress.take node p text) rest
    else
      match node.below.lookup text with
      | none => .error (helpFault node.below rest)
      | some next => do
        let (command, below) ← readFrom env next .start rest
        return (command, (← finish env p) :: below)

end HostRegistry.CommandLine

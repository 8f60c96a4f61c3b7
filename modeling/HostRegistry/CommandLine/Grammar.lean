/-!
The shape of the command line.

The commands form a tree. A node of it offers switches, and either leads to the nodes below it or
takes operands. Six of the switches are offered by every node.
-/

set_option autoImplicit false

namespace HostRegistry.CommandLine

/-- The nodes of the tree: the program, its commands and their actions. -/
inductive Node where
  | program
  | create
  | «show»
  | label
  | labelGet
  | labelAdd
  | labelRemove
  | labelSet
  | attribute
  | attributeGet
  | attributeSet
  | attributeUnset
  | config
  | configShow
  | configPath
  | configInit
  | configSet
  deriving DecidableEq

/-- The nodes below a node, by the words that lead to them. -/
def Node.below : Node → List (String × Node)
  | .program =>
    [("create", .create), ("show", .show), ("label", .label), ("attr", .attribute),
      ("config", .config)]
  | .label =>
    [("get", .labelGet), ("add", .labelAdd), ("remove", .labelRemove), ("set", .labelSet)]
  | .attribute => [("get", .attributeGet), ("set", .attributeSet), ("unset", .attributeUnset)]
  | .config =>
    [("show", .configShow), ("path", .configPath), ("init", .configInit), ("set", .configSet)]
  | _ => []

/-- The words that lead to a node. -/
def Node.words : Node → List String
  | .program => []
  | .create => ["create"]
  | .show => ["show"]
  | .label => ["label"]
  | .labelGet => ["label", "get"]
  | .labelAdd => ["label", "add"]
  | .labelRemove => ["label", "remove"]
  | .labelSet => ["label", "set"]
  | .attribute => ["attr"]
  | .attributeGet => ["attr", "get"]
  | .attributeSet => ["attr", "set"]
  | .attributeUnset => ["attr", "unset"]
  | .config => ["config"]
  | .configShow => ["config", "show"]
  | .configPath => ["config", "path"]
  | .configInit => ["config", "init"]
  | .configSet => ["config", "set"]

/-- Switches that take no value. -/
inductive Toggle where
  | verbose
  | force
  | help
  | version
  deriving DecidableEq

/-- Switches that take a value. -/
inductive Setting where
  | config
  | host
  | storeDirectory
  | label
  | attribute
  | format
  deriving DecidableEq

/-- A switch. -/
inductive Switch where
  | toggle (toggle : Toggle)
  | setting (setting : Setting)
  deriving DecidableEq

/-- The letter that a switch is given by after one dash, if it has one. -/
def Switch.letter? : Switch → Option Char
  | .toggle .verbose => some 'v'
  | .toggle .force => some 'f'
  | .toggle .help => some 'h'
  | .toggle .version => some 'V'
  | .setting .config => some 'c'
  | .setting .host => none
  | .setting .storeDirectory => none
  | .setting .label => some 'l'
  | .setting .attribute => some 'a'
  | .setting .format => some 'f'

/-- The word that a switch is given by after two dashes. -/
def Switch.word : Switch → String
  | .toggle .verbose => "verbose"
  | .toggle .force => "force"
  | .toggle .help => "help"
  | .toggle .version => "version"
  | .setting .config => "config"
  | .setting .host => "host"
  | .setting .storeDirectory => "store-dir"
  | .setting .label => "label"
  | .setting .attribute => "attr"
  | .setting .format => "format"

/-- The switches that every node offers. -/
def commonSwitches : List Switch :=
  [.toggle .verbose, .setting .config, .setting .host, .setting .storeDirectory, .toggle .help,
    .toggle .version]

/-- The switches that a node offers. -/
def Node.switches : Node → List Switch
  | .create => [.setting .label, .setting .attribute, .toggle .force] ++ commonSwitches
  | .show => .setting .format :: commonSwitches
  | .configInit => .toggle .force :: commonSwitches
  | _ => commonSwitches

/-- The switch of a node with a letter. -/
def Node.switchOfLetter? (node : Node) (letter : Char) : Option Switch :=
  node.switches.find? fun s => s.letter? = some letter

/-- The switch of a node with a word. -/
def Node.switchOfWord? (node : Node) (word : String) : Option Switch :=
  node.switches.find? fun s => s.word = word

/-- What a node takes besides switches. -/
inductive Operands where
  | exactly (count : Nat)
  | texts
  | entries
  deriving DecidableEq

/-- The operands of a node. -/
def Node.operands : Node → Operands
  | .labelGet | .attributeGet => .exactly 1
  | .labelSet | .configSet => .exactly 2
  | .labelAdd | .labelRemove | .attributeUnset => .texts
  | .attributeSet => .entries
  | _ => .exactly 0

/-- The variable whose value counts where a setting is not given. -/
def Setting.standIn? : Setting → Option String
  | .config => some "HOSTINFO_CONFIG"
  | .host => some "HOSTINFO_HOST"
  | .storeDirectory => some "HOSTINFO_STORE_DIR"
  | _ => none

end HostRegistry.CommandLine

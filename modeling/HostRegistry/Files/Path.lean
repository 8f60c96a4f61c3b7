/-!
Paths as texts: joining, splitting and taking the parent.

A path is cut at its slashes into segments. Empty segments and single dots count for nothing, except
for a dot at the very front. `components` is what a path means apart from its spelling; `parent?`,
`fileName?` and `withFileName` work on the text and keep the spelling of what they keep.
-/

set_option autoImplicit false

namespace HostRegistry.Path

/-- The pieces of a text between its slashes; there is at least one. -/
def pieces : List Char → List (List Char)
  | [] => [[]]
  | c :: r =>
    if c = '/' then [] :: pieces r
    else
      match pieces r with
      | [] => [[c]]
      | piece :: rest => (c :: piece) :: rest

/-- What a path starts from. -/
inductive Origin where
  | root
  | here
  | none
  deriving DecidableEq

/-- The text of an origin. -/
def Origin.text : Origin → List Char
  | .root => ['/']
  | .here => ['.']
  | .none => []

/-- The origin of a path and the segments after it. -/
def split (path : String) : Origin × List (List Char) :=
  match path.toList with
  | '/' :: r => (.root, pieces r)
  | ['.'] => (.here, [])
  | '.' :: '/' :: r => (.here, pieces ('/' :: r))
  | cs => (.none, pieces cs)

/-- Segments with slashes between them. -/
def joinSegments : List (List Char) → List Char
  | [] => []
  | [s] => s
  | s :: rest => s ++ '/' :: joinSegments rest

/-- The path of an origin and the segments after it, the last one first. -/
def unsplit (origin : Origin) (reversed : List (List Char)) : String :=
  String.ofList (origin.text ++ joinSegments reversed.reverse)

/-- Whether a segment counts for nothing. -/
def isIdle (segment : List Char) : Bool := segment = [] || segment = ['.']

/-- One step of a path. -/
inductive Component where
  | root
  | here
  | up
  | name (name : String)
  deriving DecidableEq

/-- The component of a segment that is not idle. -/
def segmentComponent (segment : List Char) : Component :=
  if segment = ['.', '.'] then .up else .name (String.ofList segment)

/-- The component of an origin, if it has one. -/
def Origin.component : Origin → List Component
  | .root => [.root]
  | .here => [.here]
  | .none => []

/-- What a path means: its steps in order. -/
def components (path : String) : List Component :=
  (split path).1.component ++ ((split path).2.filter (!isIdle ·)).map segmentComponent

/-- Whether a path starts at the root. -/
def isAbsolute (path : String) : Bool := path.toList.head? = some '/'

/-- A path seen from another one; an absolute path replaces the other. -/
def join (base path : String) : String :=
  if isAbsolute path then path
  else if base.toList = [] ∨ base.toList.getLast? = some '/' then base ++ path
  else base ++ "/" ++ path

/-- The path without its last step; neither the root nor the empty path has one. -/
def parent? (path : String) : Option String :=
  let (origin, segments) := split path
  match segments.reverse.dropWhile isIdle with
  | _ :: rest => some (unsplit origin (rest.dropWhile isIdle))
  | [] => if origin = .here then some "" else none

/-- The name that a path ends in. -/
def fileName? (path : String) : Option String :=
  match (split path).2.reverse.dropWhile isIdle with
  | [] => none
  | segment :: _ => if segment = ['.', '.'] then none else some (String.ofList segment)

/-- The path with the name it ends in replaced, or with a name added if it ends in none. -/
def withFileName (path name : String) : String :=
  match fileName? path, parent? path with
  | some _, some parent => join parent name
  | _, _ => join path name

/-- The paths above the segments, the last of which comes first, down to the origin. -/
def ancestorsFrom (origin : Origin) : List (List Char) → List String
  | [] =>
    match origin with
    | .root => ["/"]
    | .here => [".", ""]
    | .none => [""]
  | segment :: rest =>
    if isIdle segment then ancestorsFrom origin rest
    else unsplit origin (segment :: rest) :: ancestorsFrom origin rest

/-- A path and all paths above it, the longest first. -/
def ancestors (path : String) : List String :=
  ancestorsFrom (split path).1 (split path).2.reverse

end HostRegistry.Path

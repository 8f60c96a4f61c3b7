import HostRegistry.Record.Basic

/-!
What the labels of a record say about its host: board, operating system, pools and build.

Each view reads the labels of one family, or of the build families in their order of precedence. A
build label without text after the colon is a build with an empty name, and not the absence of one.
-/

set_option autoImplicit false

namespace HostRegistry.Record

/-- The families that name the image a host runs, the preferred one first. -/
def buildFamilies : List String := ["cros-version", "ab-version", "testbed-version"]

/-- The value of the first of the families that has one. -/
def firstValue? (r : Record) (families : List String) : Option String :=
  families.findSome? fun family => r.labels.findSome? (Label.value? family)

/-- The build of the host. -/
def build? (r : Record) : Option String := r.firstValue? buildFamilies

/-- The board of the host, empty if there is none. -/
def board (r : Record) : String := r.valueOf "board"

/-- The operating system of the host, empty if there is none. -/
def os (r : Record) : String := r.valueOf "os"

/-- The pools of the host, ascending and without repetitions. -/
def pools (r : Record) : List String :=
  (SortedMap.ofList ((r.valuesOf "pool").map fun pool => (pool, ()))).entries.map (·.1)

end HostRegistry.Record

import HostRegistry.Record.Document
import HostRegistry.Record.Views

/-!
A host and all that its record says, as one JSON text.
-/

set_option autoImplicit false

namespace HostRegistry.Record

/-- The characters of the JSON text about a host. -/
def sheetChars (host : String) (r : Record) : List Char :=
  Json.object .pretty 0
    ([Json.member .pretty "hostname" (Json.quote host)] ++ r.jsonMembers .pretty ++
      [Json.member .pretty "board" (Json.quote r.board),
        Json.member .pretty "os" (Json.quote r.os),
        Json.member .pretty "build"
          (match r.build? with
          | some build => Json.quote build
          | none => "null".toList),
        Json.member .pretty "pools" (Json.texts .pretty 1 r.pools)])

/-- The JSON text about a host. -/
def sheet (host : String) (r : Record) : String := String.ofList (sheetChars host r)

end HostRegistry.Record

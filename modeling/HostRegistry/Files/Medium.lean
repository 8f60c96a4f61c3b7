import HostRegistry.Script

/-!
Writes that break off.

A write opens its file, which makes or empties it, and then puts the content in piece by piece. A
medium that has no room left or has a fault ends the write before all is in, and the part that is in
stays. `Medium.on` spells this out for every write of a script, as a row of writes that each leave
the file a byte longer; so `run` and `states` tell of files that are half written as well. On a
medium that takes everything, a script does what it does by itself.
-/

set_option autoImplicit false

namespace HostRegistry

/-- The writes that a medium breaks off: after how many bytes of the content, and with what fault. -/
structure Medium where
  breaks : String → (content : ByteArray) → Option (Fin content.size × FileFault)

namespace Medium

variable {ρ α : Type}

/-- A medium that takes every content. -/
def ample : Medium := ⟨fun _ _ => none⟩

/-- Opens the file at a path and puts the first bytes of a content into it, one after the other. -/
def pour (path : String) (content : ByteArray) : Nat → Script ρ (Except FileFault Unit)
  | 0 => Script.request (.writeFile path (content.extract 0 0))
  | n + 1 => do
    match ← pour path content n with
    | .error fault => return .error fault
    | .ok _ => Script.request (.writeFile path (content.extract 0 (n + 1)))

/-- Writes a content as far as the medium takes it. -/
def write (m : Medium) (path : String) (content : ByteArray) : Script ρ (Except FileFault Unit) :=
  match m.breaks path content with
  | none => pour path content content.size
  | some (n, fault) => do
    match ← pour path content n with
    | .error early => return .error early
    | .ok _ => return .error fault

/-- A script as it goes on a medium. -/
def on (m : Medium) : Script ρ α → Script ρ α
  | .done a => .done a
  | .ask (.writeFile path content) next =>
    (m.write path content).bind fun answer => m.on (next answer)
  | .ask r next => .ask r fun answer => m.on (next answer)
  | .report item next => .report item (m.on next)

end Medium

end HostRegistry

import HostRegistry.Proofs.Files.Components
import HostRegistry.Proofs.Store.HostFile

/-!
The files of hosts stay in their directory and never meet.

The name of a host holds no slash and does not begin with a dot, so the file of the host, and the one
that is written before it, are names in the directory of records, whatever that directory is called.
Paths are compared as paths: different spellings of one directory are the same directory.
-/

set_option autoImplicit false

namespace HostRegistry.FileBackend

open HostRegistry.Path (Inside components)

variable {host other : String}

/-- The file of a host is named in the directory. -/
theorem inside_path (directory : String) (hhost : isHostName host = true) :
    Inside directory (host ++ ".json") (forHost directory host).path :=
  Path.inside_join directory (isName_file hhost)

/-- The temporary file of a host is named in the directory as well. -/
theorem inside_temporary (directory : String) (hhost : isHostName host = true) :
    Inside directory (host ++ ".json.tmp") (forHost directory host).temporary := by
  obtain ⟨parent, hparent, htemporary, -⟩ := exists_temporary_eq directory hhost
  obtain ⟨parent', hparent', hsame⟩ := (inside_path directory hhost).parent
  obtain rfl : parent = parent' := Option.some.inj (hparent.symm.trans hparent')
  rw [htemporary]
  exact (Path.inside_join parent (isName_temporary hhost)).congr hsame

/-- The files of accepted hosts are confined and do not collide. In every directory the file of a host
is `<host>.json` and its temporary file is `<host>.json.tmp`; above both is the directory. The path of
a host's file belongs to one directory and one host, and so does that of its temporary file; and no
temporary file is the file of a host. -/
theorem confined_and_apart (directory : String) (hhost : isHostName host = true) :
    Inside directory (host ++ ".json") (forHost directory host).path ∧
    Inside directory (host ++ ".json.tmp") (forHost directory host).temporary ∧
    ∀ directory' other, isHostName other = true →
      (components (forHost directory host).path = components (forHost directory' other).path ↔
        components directory = components directory' ∧ host = other) ∧
      (components (forHost directory host).temporary =
          components (forHost directory' other).temporary ↔
        components directory = components directory' ∧ host = other) ∧
      components (forHost directory host).temporary ≠
        components (forHost directory' other).path := by
  refine ⟨inside_path directory hhost, inside_temporary directory hhost, ?_⟩
  intro directory' other hother
  refine ⟨?_, ?_, ?_⟩
  · rw [(inside_path directory hhost).eq_iff (inside_path directory' hother)]
    exact and_congr_right fun _ => String.append_left_inj _
  · rw [(inside_temporary directory hhost).eq_iff (inside_temporary directory' hother)]
    exact and_congr_right fun _ => String.append_left_inj _
  · intro heq
    have hnames := ((inside_temporary directory hhost).eq_iff (inside_path directory' hother)).mp heq
    exact append_json_ne other host hnames.2.symm

/-- Two hosts in a directory that is spelled in two ways. -/
theorem confined_and_apart_of_two_spellings :
    isHostName "host1" = true ∧ isHostName "host1.json" = true ∧
    Inside "./hosts//" ("host1" ++ ".json") (forHost "./hosts//" "host1").path ∧
    Inside "./hosts//" ("host1" ++ ".json.tmp") (forHost "./hosts//" "host1").temporary ∧
    (components (forHost "./hosts//" "host1").path =
        components (forHost "./hosts/." "host1.json").path ↔
      components "./hosts//" = components "./hosts/." ∧ "host1" = "host1.json") ∧
    (components (forHost "./hosts//" "host1").temporary =
        components (forHost "./hosts/." "host1.json").temporary ↔
      components "./hosts//" = components "./hosts/." ∧ "host1" = "host1.json") ∧
    components (forHost "./hosts//" "host1").temporary ≠
      components (forHost "./hosts/." "host1.json").path := by
  have hhost : isHostName "host1" = true := by decide
  have hother : isHostName "host1.json" = true := by decide
  obtain ⟨hpath, htemporary, hapart⟩ := confined_and_apart "./hosts//" hhost
  exact ⟨hhost, hother, hpath, htemporary, hapart "./hosts/." "host1.json" hother⟩

end HostRegistry.FileBackend

import HostRegistry.Config.File
import HostRegistry.Proofs.Store.HostFile
import HostRegistry.Proofs.Toml.Document

/-!
A configuration that was written is read as it was, whatever texts it holds, and one that was saved
is loaded.
-/

set_option autoImplicit false

namespace HostRegistry

open FileSystem

namespace Config

open Toml (Entries headerLine headerLine_append readExpressions textLine textLine_append)

/-- The entries of the text of a configuration. -/
def entries (c : Config) : Entries :=
  [("general", .table false false [("log_format", .text c.logFormat)]),
    ("store", .table false false
      (("backend", .text c.backend.name) :: (c.directory.map fun d => ("dir", .text d)).toList))]

theorem assignment_eq (key text : String) : assignment key text = textLine key text [] := by
  have hsign : " = ".toList = [' ', '=', ' '] := by decide
  rw [assignment, hsign, textLine]
  simp only [List.append_assoc, List.cons_append, List.nil_append]

/-- The text of a configuration, line by line. -/
theorem writeChars_eq (c : Config) :
    c.writeChars =
      headerLine "general" (textLine "log_format" c.logFormat ('\n' ::
        headerLine "store" (textLine "backend" c.backend.name
          (match c.directory with
            | some d => textLine "dir" d []
            | none => [])))) := by
  have hgeneral : "[general]\n".toList = headerLine "general" [] := by decide
  have hstore : "\n[store]\n".toList = '\n' :: headerLine "store" [] := by decide
  -- Unfolded by `delta`, for Lean takes very long to state the equation of the definition.
  delta writeChars
  rw [hgeneral, hstore]
  cases c.directory <;>
    simp only [assignment_eq, headerLine_append, textLine_append, List.cons_append, List.nil_append,
      List.append_nil]

theorem readDocument_write (c : Config) : Toml.readDocument c.write = some c.entries := by
  rw [Toml.readDocument, write, String.toList_ofList, writeChars_eq]
  show readExpressions _ (headerLine _ _) = _
  rw [Toml.readExpressions_headerLine (by decide) rfl, Toml.readExpressions_textLine (by decide) rfl,
    Toml.readExpressions_break, Toml.readExpressions_headerLine (by decide) rfl,
    Toml.readExpressions_textLine (by decide) rfl]
  cases hdir : c.directory with
  | none =>
    rw [Toml.readExpressions_nil, entries, hdir]
    rfl
  | some d =>
    simp only
    rw [Toml.readExpressions_textLine (by decide) rfl, Toml.readExpressions_nil, entries, hdir]
    rfl

/-- A written configuration is read as it was. -/
theorem read_write (c : Config) : read c.write = .ok c := by
  have hentries : ofEntries c.entries = some c := by
    obtain ⟨format, backend, directory⟩ := c
    cases backend <;> cases directory <;> rfl
  simp only [read, readDocument_write, hentries]

end Config

namespace ConfigFile

variable {fs after : FileSystem} {path text : String}

/-- A text that was written to a file is there. -/
theorem exists_of_writeText
    (h : ((Files.writeText path text : Script Report _).run fs).value = .ok ()) :
    let written := ((Files.writeText path text : Script Report _).run fs).files
    written.pathExists path = true ∧ written.readFile path = .ok text.toUTF8 := by
  intro written
  rcases fs.writeFile_cases path text.toUTF8 with
    ⟨fault, hrun⟩ | ⟨t, after, ht, hslash, hname, hdir, hrun, hchange⟩
  · have hvalue : (fs.writeFile path text.toUTF8).1 = .ok () := h
    rw [hrun] at hvalue
    cases hvalue
  · obtain rfl : written = after := congrArg Prod.snd hrun
    have hkeeps := hchange.keeps fun heq => absurd heq hdir
    have htarget := hkeeps.target ht
    refine ⟨?_, FileBackend.readFile_of_target htarget hslash hname hchange.find?_self⟩
    have hlocate := locate_of_target htarget hname (Option.isSome_of_eq_some hchange.find?_self)
      fun hs => by
        rw [hslash] at hs
        cases hs
    simp only [pathExists, hlocate]

/-- A configuration that the file holds as text is the one that counts. -/
theorem run_load_of_text {file : ConfigFile} {c : Config} (hexists : fs.pathExists file.path = true)
    (hread : fs.readFile file.path = .ok text.toUTF8) (hconfig : Config.read text = .ok c) :
    (file.load.run fs).value = .ok c := by
  have hfrom : ((loadFrom file.path).run fs).value = .ok c := by
    rw [loadFrom, Script.run_bind, FileBackend.run_readText_of_ok hread]
    simp only [hconfig]
    rfl
  rw [load, Script.run_request_bind]
  simp only [perform, hexists, if_true]
  exact hfrom

/-- A save that succeeds leaves the text of the configuration in the file. -/
theorem exists_of_save {file : ConfigFile} {c : Config}
    (h : ((file.save c).run fs).value = .ok ()) :
    let saved := ((file.save c).run fs).files
    saved.pathExists file.path = true ∧ saved.readFile file.path = .ok c.write.toUTF8 := by
  rw [save, Script.run_bind] at h ⊢
  generalize file.makeParent.run fs = made at h ⊢
  obtain ⟨value, reports, files⟩ := made
  cases value with
  | error error => cases h
  | ok _ =>
    simp only [Script.run_bind] at h ⊢
    cases hvalue : ((Files.writeText file.path c.write : Script Report _).run files).value with
    | error fault =>
      rw [hvalue] at h
      cases h
    | ok _ =>
      simp only
      exact exists_of_writeText hvalue

/-- A saved configuration is loaded. -/
theorem load_save (file : ConfigFile) (c : Config) (fs : FileSystem)
    (h : ((file.save c).run fs).value = .ok ()) :
    (file.load.run ((file.save c).run fs).files).value = .ok c := by
  obtain ⟨hexists, hread⟩ := exists_of_save h
  exact run_load_of_text hexists hread c.read_write

end ConfigFile

/-- Every configuration is read from its text as it was, and wherever it can be saved it is loaded
from what was saved. -/
theorem config_round_trip (c : Config) :
    Config.read c.write = .ok c ∧
    ∀ (file : ConfigFile) (fs : FileSystem), ((file.save c).run fs).value = .ok () →
      (file.load.run ((file.save c).run fs).files).value = .ok c :=
  ⟨c.read_write, fun file fs h => file.load_save c fs h⟩

/-- A configuration whose texts have quotation marks in rows and a line break. -/
theorem config_round_trip_of_quoted :
    let c : Config := ⟨"\"\"\"\n\\", .memory, some "it's \"\""⟩
    let file : ConfigFile := ⟨"/etc/hostinfo/config.toml"⟩
    Config.read c.write = .ok c ∧ ((file.save c).run .empty).value = .ok () ∧
      (file.load.run ((file.save c).run .empty).files).value = .ok c := by
  intro c file
  obtain ⟨hread, hload⟩ := config_round_trip c
  have hsave : ((file.save c).run .empty).value = .ok () := by
    have hok : ((file.save c).run .empty).value.isOk = true := by decide +kernel
    cases hvalue : ((file.save c).run .empty).value with
    | ok _ => rfl
    | error error =>
      rw [hvalue] at hok
      cases hok
  exact ⟨hread, hsave, hload file .empty hsave⟩

end HostRegistry

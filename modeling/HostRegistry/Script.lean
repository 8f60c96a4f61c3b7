import HostRegistry.Files.FileSystem

/-!
Scripts: what a command does to files, and what it reports on the way, as a value.

A script is done, or asks one thing of the file system and goes on with the answer, or makes one
report and goes on. `run` plays a script against a `FileSystem`; `states` lists the file systems it
passes through. `run_bind` says that scripts in sequence run in sequence.
-/

set_option autoImplicit false

namespace HostRegistry

/-- One thing asked of the file system. -/
inductive Request where
  | readFile (path : String)
  | pathExists (path : String)
  | isDirectory (path : String)
  | makeDirectory (path : String)
  | writeFile (path : String) (content : ByteArray)
  | moveFile (source goal : String)
  | removeFile (path : String)

/-- The kind of answer to a request. -/
abbrev Request.Answer : Request → Type
  | .readFile _ => Except FileFault ByteArray
  | .pathExists _ => Bool
  | .isDirectory _ => Bool
  | .makeDirectory _ => Except FileFault Unit
  | .writeFile _ _ => Except FileFault Unit
  | .moveFile _ _ => Except FileFault Unit
  | .removeFile _ => Except FileFault Unit

/-- The answer of a file system, and the file system after it. -/
def FileSystem.perform (fs : FileSystem) : (r : Request) → r.Answer × FileSystem
  | .readFile path => (fs.readFile path, fs)
  | .pathExists path => (fs.pathExists path, fs)
  | .isDirectory path => (fs.isDirectory path, fs)
  | .makeDirectory path => fs.makeDirectory path
  | .writeFile path content => fs.writeFile path content
  | .moveFile source goal => fs.moveFile source goal
  | .removeFile path => fs.removeFile path

/-- A computation that asks requests and reports values of `ρ`. -/
inductive Script (ρ α : Type) where
  | done (value : α)
  | ask (request : Request) (next : request.Answer → Script ρ α)
  | report (item : ρ) (next : Script ρ α)

/-- What a script leaves: its value, its reports in order, and the files. -/
structure Outcome (ρ α : Type) where
  value : α
  reports : List ρ
  files : FileSystem

namespace Script

variable {ρ α β : Type}

/-- One script after another. -/
def bind (x : Script ρ α) (f : α → Script ρ β) : Script ρ β :=
  match x with
  | .done a => f a
  | .ask r next => .ask r fun answer => (next answer).bind f
  | .report item next => .report item (next.bind f)

instance : Monad (Script ρ) where
  pure := .done
  bind := bind

/-- Asks one request. -/
def request (r : Request) : Script ρ r.Answer := .ask r .done

/-- Makes one report. -/
def emit (item : ρ) : Script ρ Unit := .report item (.done ())

/-- The script with every report renamed. -/
def mapReports {ρ' : Type} (f : ρ → ρ') : Script ρ α → Script ρ' α
  | .done a => .done a
  | .ask r next => .ask r fun answer => (next answer).mapReports f
  | .report item next => .report (f item) (next.mapReports f)

/-- The script without its reports. -/
def silent {ρ' : Type} : Script ρ α → Script ρ' α
  | .done a => .done a
  | .ask r next => .ask r fun answer => (next answer).silent
  | .report _ next => next.silent

/-- Plays a script against a file system. -/
def run : Script ρ α → FileSystem → Outcome ρ α
  | .done a, fs => ⟨a, [], fs⟩
  | .ask r next, fs => (next (fs.perform r).1).run (fs.perform r).2
  | .report item next, fs =>
    let rest := next.run fs
    { rest with reports := item :: rest.reports }

/-- The file systems that a script passes through, the first and the last one included. -/
def states : Script ρ α → FileSystem → List FileSystem
  | .done _, fs => [fs]
  | .ask r next, fs => fs :: (next (fs.perform r).1).states (fs.perform r).2
  | .report _ next, fs => next.states fs

/-- Scripts in sequence run in sequence. -/
theorem run_bind (x : Script ρ α) (f : α → Script ρ β) (fs : FileSystem) :
    (x >>= f).run fs =
      let first := x.run fs
      let second := (f first.value).run first.files
      ⟨second.value, first.reports ++ second.reports, second.files⟩ := by
  show (x.bind f).run fs = _
  induction x generalizing fs with
  | done a => rfl
  | ask r next ih => exact ih _ _
  | report item next ih => simp only [bind, run, ih, List.cons_append]

@[simp]
theorem run_pure (a : α) (fs : FileSystem) : (pure a : Script ρ α).run fs = ⟨a, [], fs⟩ := rfl

@[simp]
theorem run_request (r : Request) (fs : FileSystem) :
    (request r : Script ρ _).run fs = ⟨(fs.perform r).1, [], (fs.perform r).2⟩ := rfl

@[simp]
theorem run_emit (item : ρ) (fs : FileSystem) : (emit item).run fs = ⟨(), [item], fs⟩ := rfl

/-- Renaming the reports changes nothing else. -/
theorem run_mapReports {ρ' : Type} (f : ρ → ρ') (x : Script ρ α) (fs : FileSystem) :
    (x.mapReports f).run fs =
      ⟨(x.run fs).value, (x.run fs).reports.map f, (x.run fs).files⟩ := by
  induction x generalizing fs with
  | done a => rfl
  | ask r next ih => exact ih _ _
  | report item next ih => simp only [mapReports, run, ih, List.map_cons]

/-- Leaving the reports out changes nothing else. -/
theorem run_silent {ρ' : Type} (x : Script ρ α) (fs : FileSystem) :
    (x.silent : Script ρ' α).run fs = ⟨(x.run fs).value, [], (x.run fs).files⟩ := by
  induction x generalizing fs with
  | done a => rfl
  | ask r next ih => exact ih _ _
  | report item next ih => exact ih _

private theorem bind_done (x : Script ρ α) : x.bind .done = x := by
  induction x with
  | done a => rfl
  | ask r next ih => exact congrArg _ (funext ih)
  | report item next ih => exact congrArg _ ih

private theorem bind_bind {γ : Type} (x : Script ρ α) (f : α → Script ρ β) (g : β → Script ρ γ) :
    (x.bind f).bind g = x.bind fun a => (f a).bind g := by
  induction x with
  | done a => rfl
  | ask r next ih => exact congrArg _ (funext ih)
  | report item next ih => exact congrArg _ ih

instance : LawfulMonad (Script ρ) :=
  LawfulMonad.mk' (Script ρ) (fun x => bind_done x) (fun _ _ => rfl) (fun x f g => bind_bind x f g)

end Script

/-! ## File work made of several requests -/

namespace Files

variable {ρ : Type}

/-- Makes the first of the paths, and before it the others as far as they are missing. -/
def makeAll : List String → Script ρ (Except FileFault Unit)
  | [] => return .error (.other 0 "failed to create whole tree")
  | path :: above => do
    if path.toList = [] then return .ok ()
    match ← Script.request (.makeDirectory path) with
    | .ok _ => return .ok ()
    | .error .notFound =>
      match ← makeAll above with
      | .error fault => return .error fault
      | .ok _ =>
        match ← Script.request (.makeDirectory path) with
        | .ok _ => return .ok ()
        | .error fault => settled path fault
    | .error fault => settled path fault
where
  /-- A directory that is there already is as good as one just made. -/
  settled (path : String) (fault : FileFault) : Script ρ (Except FileFault Unit) := do
    if ← Script.request (.isDirectory path) then return .ok () else return .error fault

/-- Makes a directory and all that are missing above it. -/
def makeDirectories (path : String) : Script ρ (Except FileFault Unit) :=
  makeAll (Path.ancestors path)

/-- Reads a file as text. -/
def readText (path : String) : Script ρ (Except FileFault String) := do
  match ← Script.request (.readFile path) with
  | .error fault => return .error fault
  | .ok content =>
    match String.fromUTF8? content with
    | some text => return .ok text
    | none => return .error .notText

/-- Writes a text to a file. -/
def writeText (path text : String) : Script ρ (Except FileFault Unit) :=
  Script.request (.writeFile path text.toUTF8)

end Files

end HostRegistry

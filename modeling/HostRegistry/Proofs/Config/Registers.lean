import HostRegistry.Command.Config
import HostRegistry.Proofs.Config.Saving

/-!
Setting the keys of the configuration, one set after the other.

The keys are registers: each has the value that was set last, and a set that is refused changes
nothing. `Config.value?_setAll` says it of configurations, `ConfigFile.Holds.setAll` of the file. What
the file system is after a sequence of sets depends on the last configuration alone, so sets of
different keys can be exchanged.
-/

set_option autoImplicit false

namespace HostRegistry

/-! ## Keys and their values -/

namespace ConfigKey

/-- The name of a key. -/
def name : ConfigKey → String
  | .logFormat => "general.log_format"
  | .backend => "store.backend"
  | .directory => "store.dir"

/-- The values that a key can be set to. -/
def Admits : ConfigKey → String → Prop
  | .logFormat, value => value = "text" ∨ value = "json"
  | .backend, value => value = "file" ∨ value = "memory"
  | .directory, _ => True

instance (k : ConfigKey) (value : String) : Decidable (k.Admits value) :=
  match k with
  | .logFormat => inferInstanceAs (Decidable (_ ∨ _))
  | .backend => inferInstanceAs (Decidable (_ ∨ _))
  | .directory => .isTrue trivial

theorem ofName?_name (k : ConfigKey) : ofName? k.name = some k := by
  cases k <;> rfl

theorem name_inj {k other : ConfigKey} (h : k.name = other.name) : k = other := by
  have hsome := ofName?_name other
  rw [← h, ofName?_name] at hsome
  exact Option.some.inj hsome

theorem ofName?_eq_none {key : String} (h : ∀ k : ConfigKey, key ≠ k.name) : ofName? key = none := by
  have hformat : key ≠ "general.log_format" := h .logFormat
  have hbackend : key ≠ "store.backend" := h .backend
  have hdirectory : key ≠ "store.dir" := h .directory
  rw [ofName?, if_neg hformat, if_neg hbackend, if_neg hdirectory]

/-- What a set writes to a key. -/
def written? (k : ConfigKey) (set : String × String) : Option String :=
  if set.1 = k.name ∧ k.Admits set.2 then some set.2 else none

end ConfigKey

namespace StoreKind

theorem ofName?_eq_none {name : String} (h : ¬ConfigKey.backend.Admits name) :
    ofName? name = none := by
  rw [ofName?, if_neg fun hfile => h (Or.inl hfile), if_neg fun hmemory => h (Or.inr hmemory)]

theorem exists_ofName? {name : String} (h : ConfigKey.backend.Admits name) :
    ∃ kind, ofName? name = some kind ∧ kind.name = name := by
  rcases h with rfl | rfl
  · exact ⟨.file, rfl, rfl⟩
  · exact ⟨.memory, rfl, rfl⟩

theorem name_inj {kind other : StoreKind} (h : kind.name = other.name) : kind = other := by
  have hsome := ofName?_name other
  rw [← h, ofName?_name] at hsome
  exact Option.some.inj hsome

end StoreKind

namespace Config

variable {c : Config} {k : ConfigKey} {key value : String}

/-- The value of a key. -/
def value? (c : Config) : ConfigKey → Option String
  | .logFormat => some c.logFormat
  | .backend => some c.backend.name
  | .directory => c.directory

/-- A configuration is told by the values of its keys. -/
theorem ext_value? {a b : Config} (h : ∀ k, a.value? k = b.value? k) : a = b := by
  obtain ⟨format, backend, directory⟩ := a
  obtain ⟨format', backend', directory'⟩ := b
  obtain rfl : format = format' := Option.some.inj (h .logFormat)
  obtain rfl : backend = backend' := StoreKind.name_inj (Option.some.inj (h .backend))
  obtain rfl : directory = directory' := h .directory
  rfl

/-! ## One set -/

/-- `next` is `c` with another value of one key. -/
structure Replaced (c : Config) (k : ConfigKey) (value : String) (next : Config) : Prop where
  self : next.value? k = some value
  other : ∀ other, other ≠ k → next.value? other = c.value? other

theorem set_of_admits (h : k.Admits value) (c : Config) :
    ∃ next, c.set k.name value = .ok next ∧ c.Replaced k value next := by
  rw [set, ConfigKey.ofName?_name]
  cases k with
  | logFormat =>
    refine ⟨_, if_pos h, rfl, ?_⟩
    intro other hother
    cases other with
    | logFormat => exact absurd rfl hother
    | backend => rfl
    | directory => rfl
  | backend =>
    obtain ⟨kind, hkind, rfl⟩ := StoreKind.exists_ofName? h
    simp only [hkind]
    refine ⟨_, rfl, rfl, ?_⟩
    intro other hother
    cases other with
    | logFormat => rfl
    | backend => exact absurd rfl hother
    | directory => rfl
  | directory =>
    refine ⟨_, rfl, rfl, ?_⟩
    intro other hother
    cases other with
    | logFormat => rfl
    | backend => rfl
    | directory => exact absurd rfl hother

theorem set_of_not_admits (h : ¬k.Admits value) (c : Config) :
    ∃ message, c.set k.name value = .error (.user message) := by
  rw [set, ConfigKey.ofName?_name]
  cases k with
  | logFormat => exact ⟨_, if_neg h⟩
  | backend =>
    simp only [StoreKind.ofName?_eq_none h]
    exact ⟨_, rfl⟩
  | directory => exact absurd trivial h

theorem set_of_unknown (h : ∀ k : ConfigKey, key ≠ k.name) (c : Config) (value : String) :
    c.set key value = .error (.invalidKey key) := by
  rw [set, ConfigKey.ofName?_eq_none h]

/-- A set is refused, or it writes to one key. -/
theorem set_cases (c : Config) (key value : String) :
    (∃ error, c.set key value = .error error ∧ ∀ k : ConfigKey, key = k.name → ¬k.Admits value) ∨
    ∃ k next, key = k.name ∧ k.Admits value ∧ c.set key value = .ok next ∧ c.Replaced k value next := by
  by_cases hkey : ∃ k : ConfigKey, key = k.name
  · obtain ⟨k, rfl⟩ := hkey
    by_cases hvalue : k.Admits value
    · obtain ⟨next, hset, hreplaced⟩ := c.set_of_admits hvalue
      exact Or.inr ⟨k, next, rfl, hvalue, hset, hreplaced⟩
    · obtain ⟨message, hset⟩ := c.set_of_not_admits hvalue
      refine Or.inl ⟨_, hset, ?_⟩
      intro other hother
      rwa [← ConfigKey.name_inj hother]
  · have hunknown : ∀ k : ConfigKey, key ≠ k.name := fun k hk => hkey ⟨k, hk⟩
    exact Or.inl ⟨_, c.set_of_unknown hunknown value, fun k hk => absurd hk (hunknown k)⟩

/-! ## Sets one after the other -/

/-- The configuration after a set, which may be refused. -/
def afterSet (c : Config) (set : String × String) : Config :=
  match c.set set.1 set.2 with
  | .ok next => next
  | .error _ => c

/-- The configuration after sets one after the other. -/
def setAll (c : Config) (sets : List (String × String)) : Config := sets.foldl afterSet c

theorem value?_afterSet (c : Config) (set : String × String) (k : ConfigKey) :
    (c.afterSet set).value? k = (k.written? set).or (c.value? k) := by
  obtain ⟨key, value⟩ := set
  rw [afterSet, ConfigKey.written?]
  rcases c.set_cases key value with
    ⟨error, hset, hrefused⟩ | ⟨j, next, rfl, hvalue, hset, hreplaced⟩
  · have hnot : ¬(key = k.name ∧ k.Admits value) := fun ⟨hkey, hvalue⟩ => hrefused k hkey hvalue
    simp only [hset, if_neg hnot, Option.none_or]
  · simp only [hset]
    by_cases hk : k = j
    · subst hk
      rw [if_pos ⟨rfl, hvalue⟩, hreplaced.self, Option.some_or]
    · have hnot : ¬(j.name = k.name ∧ k.Admits value) := fun h => hk (ConfigKey.name_inj h.1).symm
      rw [if_neg hnot, hreplaced.other k hk, Option.none_or]

/-- Each key has the value that was written last. -/
theorem value?_setAll (c : Config) (sets : List (String × String)) (k : ConfigKey) :
    (c.setAll sets).value? k = ((sets.filterMap k.written?).getLast?).or (c.value? k) := by
  induction sets generalizing c with
  | nil => rfl
  | cons set rest ih =>
    have hcons : c.setAll (set :: rest) = (c.afterSet set).setAll rest := rfl
    rw [hcons, ih, value?_afterSet, List.filterMap_cons]
    cases k.written? set with
    | none => rw [Option.none_or]
    | some value =>
      rw [List.getLast?_cons, Option.some_or, Option.some_or]
      cases (rest.filterMap k.written?).getLast? <;> rfl

end Config

/-! ## Sets of the file -/

namespace ConfigFile

variable {file : ConfigFile} {fs : FileSystem} {c : Config}

/-- Sets a key of the configuration that the file holds now. -/
def set (file : ConfigFile) (key value : String) : Script Report (Except Error Unit) := do
  match ← file.load with
  | .error error => return .error error
  | .ok config => ConfigAction.run file config (some (.set key value))

/-- The file system after sets one after the other. -/
def setAll (file : ConfigFile) (sets : List (String × String)) (fs : FileSystem) : FileSystem :=
  sets.foldl (fun fs set => ((file.set set.1 set.2).run fs).files) fs

/-- The configuration that counts, and that another one can be saved. -/
structure Holds (file : ConfigFile) (fs : FileSystem) (c : Config) : Prop where
  load : (file.load.run fs).value = .ok c
  savable : file.Savable fs

theorem holds_save (h : file.Savable fs) (c : Config) :
    file.Holds ((file.save c).run fs).files c :=
  ⟨file.load_save c fs (h.run_save c), h.after_save c⟩

namespace Holds

variable {key value : String} (h : file.Holds fs c)
include h

theorem run_set : (file.set key value).run fs =
    ⟨((ConfigAction.runSet file c key value).run fs).value,
      (file.load.run fs).reports ++ ((ConfigAction.runSet file c key value).run fs).reports,
      ((ConfigAction.runSet file c key value).run fs).files⟩ := by
  have hfiles := ((reads_load file).run fs).2
  rw [set, Script.run_bind]
  simp only [h.load, hfiles]
  rfl

theorem run_set_of_error {error : Error} (hset : c.set key value = .error error) :
    ((file.set key value).run fs).value = .error error ∧
      ((file.set key value).run fs).files = fs := by
  rw [h.run_set, ConfigAction.runSet, hset]
  exact ⟨rfl, rfl⟩

theorem run_set_of_ok {next : Config} (hset : c.set key value = .ok next) :
    ((file.set key value).run fs).value = .ok () ∧
      ((file.set key value).run fs).files = ((file.save next).run fs).files := by
  have hsave := h.savable.run_save next
  rw [h.run_set, ConfigAction.runSet, hset]
  simp only [Script.run_bind, hsave]
  exact ⟨rfl, rfl⟩

/-- One set keeps the file and the configuration together. -/
theorem afterSet (key value : String) :
    file.Holds ((file.set key value).run fs).files (c.afterSet (key, value)) := by
  rw [Config.afterSet]
  cases hset : c.set key value with
  | error error =>
    rw [(h.run_set_of_error hset).2]
    exact h
  | ok next =>
    rw [(h.run_set_of_ok hset).2]
    exact holds_save h.savable next

/-- So does a sequence of sets. -/
theorem setAll (sets : List (String × String)) :
    file.Holds (file.setAll sets fs) (c.setAll sets) := by
  induction sets generalizing fs c with
  | nil => exact h
  | cons set rest ih => exact ih (h.afterSet set.1 set.2)

end Holds

/-! ## What is left of a sequence -/

/-- A set that is not refused. -/
def IsAccepted (set : String × String) : Prop := ∃ k : ConfigKey, set.1 = k.name ∧ k.Admits set.2

theorem setAll_of_none (h : file.Holds fs c) {sets : List (String × String)}
    (hnone : ∀ set ∈ sets, ¬IsAccepted set) : file.setAll sets fs = fs ∧ c.setAll sets = c := by
  induction sets with
  | nil => exact ⟨rfl, rfl⟩
  | cons set rest ih =>
    obtain ⟨hset, hrest⟩ := List.forall_mem_cons.mp hnone
    rcases c.set_cases set.1 set.2 with ⟨error, herror, -⟩ | ⟨k, next, hkey, hvalue, -, -⟩
    · have hfile : file.setAll (set :: rest) fs = file.setAll rest fs := by
        rw [setAll, List.foldl_cons, (h.run_set_of_error herror).2]
        rfl
      have hconfig : c.setAll (set :: rest) = c.setAll rest := by
        rw [Config.setAll, List.foldl_cons, Config.afterSet, herror]
        rfl
      rw [hfile, hconfig]
      exact ih hrest
    · exact absurd ⟨k, hkey, hvalue⟩ hset

/-- After a sequence in which a set was accepted, the last configuration was saved; no other one
left anything. -/
theorem setAll_of_some (h : file.Holds fs c) {sets : List (String × String)}
    (hsome : ∃ set ∈ sets, IsAccepted set) :
    file.setAll sets fs = ((file.save (c.setAll sets)).run fs).files := by
  induction sets generalizing fs c with
  | nil =>
    obtain ⟨set, hset, -⟩ := hsome
    cases hset
  | cons set rest ih =>
    have hfile : file.setAll (set :: rest) fs =
      file.setAll rest ((file.set set.1 set.2).run fs).files := rfl
    have hconfig : c.setAll (set :: rest) = (c.afterSet set).setAll rest := rfl
    have hafter := h.afterSet set.1 set.2
    rw [hfile, hconfig]
    rcases c.set_cases set.1 set.2 with
      ⟨error, herror, hrefused⟩ | ⟨k, next, -, -, hset, -⟩
    · -- The accepted set is a later one.
      obtain ⟨other, hmem, k, hkey, hvalue⟩ := hsome
      rcases List.mem_cons.mp hmem with rfl | hmem
      · exact absurd hvalue (hrefused k hkey)
      · rw [ih hafter ⟨other, hmem, k, hkey, hvalue⟩, (h.run_set_of_error herror).2]
    · have hnext : c.afterSet set = next := by
        rw [Config.afterSet, hset]
      rw [hnext] at hafter ⊢
      rw [(h.run_set_of_ok hset).2] at hafter ⊢
      -- What is saved now stays unless something is saved later, and then it leaves nothing.
      by_cases hrest : ∃ set ∈ rest, IsAccepted set
      · rw [ih hafter hrest, h.savable.files_save_save]
      · obtain ⟨hfiles, hlast⟩ :=
          setAll_of_none hafter fun set hset hacc => hrest ⟨set, hset, hacc⟩
        rw [hfiles, hlast]

section Exchange

variable {a b : List (String × String)}
  (hsame : ∀ key, a.filter (·.1 = key) = b.filter (·.1 = key))
include hsame

theorem mem_iff_of_filter {set : String × String} : set ∈ a ↔ set ∈ b := by
  have hmem : ∀ sets : List (String × String), set ∈ sets ↔ set ∈ sets.filter (·.1 = set.1) := by
    intro sets
    rw [List.mem_filter, decide_eq_true_iff, and_iff_left rfl]
  rw [hmem a, hmem b, hsame]

theorem filterMap_written?_of_filter (k : ConfigKey) :
    a.filterMap k.written? = b.filterMap k.written? := by
  have hfilter : ∀ sets : List (String × String),
      (sets.filter (·.1 = k.name)).filterMap k.written? = sets.filterMap k.written? := by
    intro sets
    rw [List.filterMap_filter]
    congr 1
    funext set
    by_cases hkey : set.1 = k.name
    · rw [if_pos (decide_eq_true hkey)]
    · rw [if_neg (by simp [hkey]), ConfigKey.written?, if_neg fun h => hkey h.1]
  rw [← hfilter a, ← hfilter b, hsame]

/-- Sets of different keys can be exchanged. -/
theorem setAll_of_filter (h : file.Holds fs c) : file.setAll a fs = file.setAll b fs := by
  have hlast : c.setAll a = c.setAll b := by
    apply Config.ext_value?
    intro k
    rw [Config.value?_setAll, Config.value?_setAll, filterMap_written?_of_filter hsame]
  by_cases hsome : ∃ set ∈ a, IsAccepted set
  · have hsome' : ∃ set ∈ b, IsAccepted set := by
      obtain ⟨set, hmem, hacc⟩ := hsome
      exact ⟨set, (mem_iff_of_filter hsame).mp hmem, hacc⟩
    rw [setAll_of_some h hsome, setAll_of_some h hsome', hlast]
  · have hnone : ∀ set ∈ a, ¬IsAccepted set := fun set hmem hacc => hsome ⟨set, hmem, hacc⟩
    have hnone' : ∀ set ∈ b, ¬IsAccepted set := fun set hmem =>
      hnone set ((mem_iff_of_filter hsame).mpr hmem)
    rw [(setAll_of_none h hnone).1, (setAll_of_none h hnone').1]

end Exchange

/-- The keys of the configuration are registers. After every sequence of sets the file holds the
configuration in which each key has the value that was set last, and the next set is accepted exactly
if it gives one of the three keys one of its values; then it replaces that value alone, and else it
fails and changes nothing. Sequences that agree on the sets of each key leave the same files. -/
theorem keys_are_registers {config : Config} (hload : (file.load.run fs).value = .ok config)
    (hsavable : file.Savable fs) :
    (∀ sets : List (String × String),
      let now := file.setAll sets fs
      let current := config.setAll sets
      (file.load.run now).value = .ok current ∧
      (∀ k, current.value? k = ((sets.filterMap k.written?).getLast?).or (config.value? k)) ∧
      ∀ key value,
        let o := (file.set key value).run now
        (o.value = .ok () ↔ ∃ k : ConfigKey, key = k.name ∧ k.Admits value) ∧
        (∀ k : ConfigKey, key = k.name → k.Admits value → ∃ next,
          (file.load.run o.files).value = .ok next ∧ next.value? k = some value ∧
          ∀ other, other ≠ k → next.value? other = current.value? other) ∧
        ((∀ k : ConfigKey, key ≠ k.name) → o.value = .error (.invalidKey key) ∧ o.files = now) ∧
        ∀ k : ConfigKey, key = k.name → ¬k.Admits value →
          (∃ message, o.value = .error (.user message)) ∧ o.files = now) ∧
    ∀ a b : List (String × String), (∀ key, a.filter (·.1 = key) = b.filter (·.1 = key)) →
      file.setAll a fs = file.setAll b fs := by
  have h : file.Holds fs config := ⟨hload, hsavable⟩
  refine ⟨?_, fun a b hsame => setAll_of_filter hsame h⟩
  intro sets now current
  have hnow : file.Holds now current := h.setAll sets
  refine ⟨hnow.load, config.value?_setAll sets, ?_⟩
  intro key value o
  refine ⟨⟨?_, ?_⟩, ?_, ?_, ?_⟩
  · intro hok
    rcases current.set_cases key value with ⟨error, herror, -⟩ | ⟨k, next, hkey, hvalue, -, -⟩
    · cases hok.symm.trans (hnow.run_set_of_error herror).1
    · exact ⟨k, hkey, hvalue⟩
  · rintro ⟨k, rfl, hvalue⟩
    obtain ⟨next, hset, -⟩ := current.set_of_admits hvalue
    exact (hnow.run_set_of_ok hset).1
  · rintro k rfl hvalue
    obtain ⟨next, hset, hreplaced⟩ := current.set_of_admits hvalue
    refine ⟨next, ?_, hreplaced.self, hreplaced.other⟩
    rw [(hnow.run_set_of_ok hset).2]
    exact (holds_save hnow.savable next).load
  · intro hunknown
    exact hnow.run_set_of_error (current.set_of_unknown hunknown value)
  · rintro k rfl hvalue
    obtain ⟨message, hset⟩ := current.set_of_not_admits hvalue
    obtain ⟨herror, hfiles⟩ := hnow.run_set_of_error hset
    exact ⟨⟨message, herror⟩, hfiles⟩

/-- Two sets of different keys at a path where there is no file yet, in both orders. -/
theorem keys_are_registers_of_two_keys :
    let file : ConfigFile := ⟨"/etc/hostinfo/config.toml"⟩
    let format := ("general.log_format", "json")
    let directory := ("store.dir", "/srv/\"hosts\"")
    (file.load.run .empty).value = .ok .default ∧ file.Savable .empty ∧
      (file.load.run (file.setAll [format, directory] .empty)).value =
        .ok ⟨"json", .file, some "/srv/\"hosts\""⟩ ∧
      file.setAll [format, directory] .empty = file.setAll [directory, format] .empty := by
  intro file format directory
  have hload : (file.load.run .empty).value = .ok .default := by
    have hmissing : FileSystem.empty.pathExists file.path = false := by decide +kernel
    rw [load, Script.run_request_bind]
    simp only [FileSystem.perform, hmissing]
    rfl
  have hsavable : file.Savable .empty := by
    refine ⟨.default, ?_⟩
    have hok : ((file.save .default).run .empty).value.isOk = true := by decide +kernel
    cases hvalue : ((file.save .default).run .empty).value with
    | ok _ => rfl
    | error error =>
      rw [hvalue] at hok
      cases hok
  obtain ⟨hsets, hexchange⟩ := keys_are_registers hload hsavable
  refine ⟨hload, hsavable, (hsets [format, directory]).1, hexchange _ _ ?_⟩
  intro key
  by_cases hformat : format.1 = key
  · subst hformat
    rfl
  · by_cases hdirectory : directory.1 = key <;> simp [hformat, hdirectory]

end ConfigFile

end HostRegistry

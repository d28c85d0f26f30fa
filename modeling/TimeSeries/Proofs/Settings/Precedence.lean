/-
# TimeSeries.Proofs.Settings.Precedence — which source a setting comes from.

A setting that the environment gives is taken from there. Otherwise it comes from the first file
that can be read, of three, and otherwise it is the default (`loadDefault_precedence`). What a
source says is a property of values (`Source`), so that a name in any case, a text and a setting of
a file are chosen from in the same way (`Chosen`). All of it holds wherever the system has its base
directories, if it has them, and however the text of a file is read.
-/
import Mathlib
import TimeSeries.Files.Workspace
import TimeSeries.Settings.Load

namespace TimeSeries

namespace Workspace

/-- The text of the file at a path; none if there is no file or it is no text. -/
def text? (w : Workspace) (path : Path) : Option String :=
  (w.read path).toOption.bind String.fromUTF8?

end Workspace

namespace Settings

variable {α : Type} {env : Environment} {dirs : BaseDirectories} {read? : String → Option Layer}
  {l : Layer} {s below above : Settings} {w w' : Workspace}

/-! ## Sources -/

/-- What a source says about the settings: which values are given for each. -/
structure Source where
  backend : Backend → Prop
  path : String → Prop
  policy : Ingest.Policy → Prop
  defaultDatabase : String → Prop
  logLevel : String → Prop
  logFormat : String → Prop

/-- The layer of a file gives what it holds. -/
def Layer.source (l : Layer) : Source where
  backend b := l.backend = some b
  path v := l.path = some v
  policy p := l.policy = some p
  defaultDatabase v := l.defaultDatabase = some v
  logLevel v := l.logLevel = some v
  logFormat v := l.logFormat = some v

/-- The environment gives a setting that has its variable set: a backend or a policy to its name, in
letters of any case, and the others to any text. -/
def environmentSource (env : Environment) : Source where
  backend b := ∃ text, env "REFLUXDB_STORAGE_BACKEND" = some text ∧
    Text.lower text.toList = b.name.toList
  path v := env "REFLUXDB_DB_PATH" = some v
  policy p := ∃ text, env "REFLUXDB_BATCH_POLICY" = some text ∧
    Text.lower text.toList = p.name.toList
  defaultDatabase v := env "REFLUXDB_DEFAULT_DATABASE" = some v
  logLevel v := env "REFLUXDB_LOG_LEVEL" = some v
  logFormat v := env "REFLUXDB_LOG_FORMAT" = some v

/-- The value of a setting: what is given for it, or the value below if nothing is. -/
def Chosen (given : α → Prop) (below value : α) : Prop :=
  given value ∨ (∀ x, ¬ given x) ∧ value = below

/-- Each setting is chosen from a source and the settings below it. -/
structure LiesOver (source : Source) (below above : Settings) : Prop where
  backend : Chosen source.backend below.backend above.backend
  path : Chosen source.path below.path above.path
  policy : Chosen source.policy below.policy above.policy
  defaultDatabase : Chosen source.defaultDatabase below.defaultDatabase above.defaultDatabase
  logLevel : Chosen source.logLevel below.logLevel above.logLevel
  logFormat : Chosen source.logFormat below.logFormat above.logFormat

theorem chosen_iff {o : Option α} {below value : α} :
    Chosen (o = some ·) below value ↔ value = o.getD below := by
  cases o with
  | none => simp [Chosen]
  | some x => simp [Chosen, eq_comm]

/-- A layer is laid over settings by choosing each of them. -/
theorem liesOver_iff : LiesOver l.source below above ↔ above = below.overlay l := by
  constructor
  · rintro ⟨hbackend, hpath, hpolicy, hdatabase, hlevel, hformat⟩
    cases above
    simp only [overlay, Settings.mk.injEq]
    exact ⟨chosen_iff.mp hbackend, chosen_iff.mp hpath, chosen_iff.mp hpolicy,
      chosen_iff.mp hdatabase, chosen_iff.mp hlevel, chosen_iff.mp hformat⟩
  · rintro rfl
    exact ⟨chosen_iff.mpr rfl, chosen_iff.mpr rfl, chosen_iff.mpr rfl, chosen_iff.mpr rfl,
      chosen_iff.mpr rfl, chosen_iff.mpr rfl⟩

/-- A layer laid over settings twice is laid over them once. -/
theorem overlay_overlay (s : Settings) (l : Layer) : (s.overlay l).overlay l = s.overlay l := by
  have hgetD : ∀ {β : Type} (o : Option β) (x : β), o.getD (o.getD x) = o.getD x := by
    intro β o x
    cases o <;> rfl
  simp only [overlay, hgetD]

/-! ## Names -/

/-- Where each of some values is the first of its name, a search by name finds the value that has
it. -/
theorem find?_eq_some_iff_eq_name {name : α → String} {all : List α}
    (hall : ∀ x, all.find? (name · == name x) = some x) {text : String} {x : α} :
    all.find? (name · == text) = some x ↔ text = name x := by
  constructor
  · intro h
    have hname := List.find?_some h
    exact (beq_iff_eq.mp hname).symm
  · rintro rfl
    exact hall x

theorem ofName?_eq_some_iff {name : String} {b : Backend} :
    Backend.ofName? name = some b ↔ name = b.name := by
  refine find?_eq_some_iff_eq_name fun b => ?_
  cases b <;> decide

theorem policy_ofName?_eq_some_iff {name : String} {p : Ingest.Policy} :
    Ingest.Policy.ofName? name = some p ↔ name = p.name := by
  refine find?_eq_some_iff_eq_name fun p => ?_
  cases p <;> decide

theorem ofList_eq_iff {s : List Char} {name : String} :
    String.ofList s = name ↔ s = name.toList := by
  constructor
  · rintro rfl
    exact String.toList_ofList.symm
  · rintro rfl
    exact String.ofList_toList

theorem toOption_read_eq_some_iff {text : String} {b : Backend} :
    (Backend.read text).toOption = some b ↔ Text.lower text.toList = b.name.toList := by
  rw [← ofList_eq_iff, ← ofName?_eq_some_iff, Backend.read]
  cases Backend.ofName? (String.ofList (Text.lower text.toList)) <;> simp [Except.toOption]

theorem read?_eq_some_iff {text : String} {p : Ingest.Policy} :
    Ingest.Policy.read? text = some p ↔ Text.lower text.toList = p.name.toList := by
  rw [Ingest.Policy.read?, policy_ofName?_eq_some_iff, ofList_eq_iff]

theorem source_ofEnvironment (env : Environment) :
    (Layer.ofEnvironment env).source = environmentSource env := by
  simp only [Layer.source, environmentSource, Layer.ofEnvironment, Option.bind_eq_some_iff,
    toOption_read_eq_some_iff, read?_eq_some_iff]

/-! ## Files -/

/-- The layer that the file at a path gives; an unreadable one gives none. -/
def layer? (read? : String → Option Layer) (w : Workspace) (path : String) : Option Layer :=
  (w.text? path).bind read?

/-- What the files give: the first one that can be read lies over the defaults, and those before it
are missing or cannot be read. Without any, the defaults stand alone. -/
inductive FilesGive (w : Workspace) (dirs : BaseDirectories) (read? : String → Option Layer) :
    Settings → Prop
  | file {before after : List String} {path : String} {l : Layer} {s : Settings}
      (paths : searchPaths dirs = before ++ path :: after)
      (unreadable : ∀ p ∈ before, layer? read? w p = none)
      (readable : layer? read? w path = some l)
      (lies : LiesOver l.source (defaults dirs.databasePath) s) : FilesGive w dirs read? s
  | none (unreadable : ∀ p ∈ searchPaths dirs, layer? read? w p = none) :
      FilesGive w dirs read? (defaults dirs.databasePath)

theorem filesGive_iff : FilesGive w dirs read? s ↔
    s = ofLayer dirs (((searchPaths dirs).findSome? (layer? read? w)).getD .empty) := by
  constructor
  · intro h
    cases h with
    | file hpaths hbefore hlayer hlies =>
      rw [List.findSome?_eq_some_iff.mpr ⟨_, _, _, hpaths, hlayer, hbefore⟩]
      exact liesOver_iff.mp hlies
    | none hnone =>
      rw [List.findSome?_eq_none_iff.mpr hnone]
      rfl
  · rintro rfl
    cases hfind : (searchPaths dirs).findSome? (layer? read? w) with
    | none => exact .none (List.findSome?_eq_none_iff.mp hfind)
    | some l =>
      obtain ⟨before, path, after, hpaths, hlayer, hbefore⟩ := List.findSome?_eq_some_iff.mp hfind
      exact .file hpaths hbefore hlayer (liesOver_iff.mpr rfl)

/-! ## Runs -/

theorem run_bind {β γ σ : Type} {f : StateM σ β} {b : β} {x x' : σ} (h : f.run x = (b, x'))
    (k : β → StateM σ γ) : (f >>= k).run x = (k b).run x' := by
  rw [StateT.run_bind, h]
  rfl

/-- Steps that leave the state as it is do so one after the other. -/
theorem run_mapM {β γ σ : Type} {f : β → StateM σ γ} {g : β → γ} {x : σ}
    (h : ∀ b, (f b).run x = (g b, x)) (bs : List β) :
    (bs.mapM f).run x = (bs.map g, x) := by
  induction bs with
  | nil => rfl
  | cons b bs ih =>
    rw [List.mapM_cons, run_bind (h b), run_bind ih]
    rfl

/-- Reading a file leaves the workspace as it is. -/
theorem run_readText (path : Path) (w : Workspace) :
    ∃ e, (MonadFiles.readText path : StateM Workspace _).run w =
      ((w.text? path).elim (.error e) .ok, w) := by
  have hread : (MonadFiles.read path : StateM Workspace _).run w = (w.read path, w) := rfl
  rw [MonadFiles.readText, run_bind hread, Workspace.text?]
  cases w.read path with
  | error e => exact ⟨e, rfl⟩
  | ok content =>
    refine ⟨.notText, ?_⟩
    simp only [Except.toOption, Option.bind_some]
    cases String.fromUTF8? content <;> rfl

theorem run_loadDefault (env : Environment) (dirs : BaseDirectories)
    (read? : String → Option Layer) (w : Workspace) :
    (loadDefault (m := StateM Workspace) env dirs read?).run w =
      (resolve env dirs read? ((searchPaths dirs).map fun path : String => w.text? path), w) := by
  rw [loadDefault]
  refine run_bind (run_mapM (g := fun path : String => w.text? path) (fun path => ?_) _) _
  obtain ⟨e, hread⟩ := run_readText path w
  rw [run_bind hread]
  cases w.text? path <;> rfl

theorem run_loadDefault_eq (env : Environment) (dirs : BaseDirectories)
    (read? : String → Option Layer) (w : Workspace) :
    (loadDefault (m := StateM Workspace) env dirs read?).run w =
      ((ofLayer dirs (((searchPaths dirs).findSome? (layer? read? w)).getD .empty)).overlay
        (.ofEnvironment env), w) := by
  rw [run_loadDefault, resolve, List.findSome?_map]
  rfl

/-- Files that give the same layers give the same settings. -/
theorem findSome?_layer?_congr
    (h : ∀ path ∈ searchPaths dirs, layer? read? w' path = layer? read? w path) :
    (searchPaths dirs).findSome? (layer? read? w') =
      (searchPaths dirs).findSome? (layer? read? w) := by
  have hmap : (searchPaths dirs).map (layer? read? w') = (searchPaths dirs).map (layer? read? w) :=
    List.map_congr_left h
  have hid : ∀ w : Workspace, (searchPaths dirs).findSome? (layer? read? w) =
      ((searchPaths dirs).map (layer? read? w)).findSome? id := by
    intro w
    rw [List.findSome?_map, Function.id_comp]
  rw [hid, hid, hmap]

theorem run_loadDefault_iff :
    (loadDefault (m := StateM Workspace) env dirs read?).run w = (s, w') ↔
      w' = w ∧ ∃ below, FilesGive w dirs read? below ∧
        LiesOver (environmentSource env) below s := by
  rw [run_loadDefault_eq, ← source_ofEnvironment]
  simp only [filesGive_iff, liesOver_iff, exists_eq_left]
  rw [Prod.ext_iff, and_comm]
  exact and_congr eq_comm eq_comm

/-! ## Variables without effect -/

/-- What a run leaves depends on the environment only through its layer. -/
theorem loadDefault_congr {env' : Environment}
    (h : Layer.ofEnvironment env = .ofEnvironment env') :
    loadDefault (m := StateM Workspace) env dirs read? = loadDefault env' dirs read? := by
  simp only [loadDefault, resolve, h]

/-- Three variables tell the base directories. -/
theorem baseDirectories_update {name : String}
    (h : name ∉ ["HOME", "XDG_CONFIG_HOME", "XDG_DATA_HOME"]) (value account : Option String) :
    Environment.baseDirectories (Function.update env name value) account =
      env.baseDirectories account := by
  have hother : ∀ other ∈ ["HOME", "XDG_CONFIG_HOME", "XDG_DATA_HOME"],
      Function.update env name value other = env other := by
    intro other hother
    refine Function.update_of_ne ?_ _ _
    rintro rfl
    exact h hother
  simp only [List.forall_mem_cons] at hother
  obtain ⟨hhome, hconfig, hdata, -⟩ := hother
  simp only [Environment.baseDirectories, Environment.baseDirectory, Environment.home, hhome,
    hconfig, hdata]

/-- A variable that gives nothing may as well not be set. -/
theorem bind_update_none {name other : String} {read? : String → Option α}
    (h : other = name → (env other).bind read? = none) :
    (Function.update env name none other).bind read? = (env other).bind read? := by
  by_cases hother : other = name
  · subst hother
    rw [Function.update_self, h rfl, Option.bind_none]
  · rw [Function.update_of_ne hother]

/-- Of the variables that hold names, one that holds none gives the environment the same layer as
if it were not set. -/
theorem ofEnvironment_update {name : String}
    (hname : name ∈ ["REFLUXDB_STORAGE_BACKEND", "REFLUXDB_BATCH_POLICY"])
    (hbackend : "REFLUXDB_STORAGE_BACKEND" = name →
      (env "REFLUXDB_STORAGE_BACKEND").bind (fun text => (Backend.read text).toOption) = none)
    (hpolicy : "REFLUXDB_BATCH_POLICY" = name →
      (env "REFLUXDB_BATCH_POLICY").bind Ingest.Policy.read? = none) :
    Layer.ofEnvironment (Function.update env name none) = Layer.ofEnvironment env := by
  have hother : ∀ other ∉ ["REFLUXDB_STORAGE_BACKEND", "REFLUXDB_BATCH_POLICY"],
      Function.update env name none other = env other := by
    intro other hother
    refine Function.update_of_ne ?_ _ _
    rintro rfl
    exact hother hname
  rw [Layer.ofEnvironment, Layer.ofEnvironment, bind_update_none hbackend,
    bind_update_none hpolicy, hother _ (by decide), hother _ (by decide), hother _ (by decide),
    hother _ (by decide)]

theorem ofEnvironment_of_backend {text : String}
    (h : env "REFLUXDB_STORAGE_BACKEND" = some text)
    (htext : ∀ b : Backend, Text.lower text.toList ≠ b.name.toList) :
    Layer.ofEnvironment (Function.update env "REFLUXDB_STORAGE_BACKEND" none) =
      Layer.ofEnvironment env := by
  refine ofEnvironment_update (by decide) (fun _ => ?_) (fun hname => absurd hname (by decide))
  rw [h, Option.bind_some, Option.eq_none_iff_forall_ne_some]
  exact fun b hb => htext b (toOption_read_eq_some_iff.mp hb)

theorem ofEnvironment_of_policy {text : String} (h : env "REFLUXDB_BATCH_POLICY" = some text)
    (htext : ∀ p : Ingest.Policy, Text.lower text.toList ≠ p.name.toList) :
    Layer.ofEnvironment (Function.update env "REFLUXDB_BATCH_POLICY" none) =
      Layer.ofEnvironment env := by
  refine ofEnvironment_update (by decide) (fun hname => absurd hname (by decide)) (fun _ => ?_)
  rw [h, Option.bind_some, Option.eq_none_iff_forall_ne_some]
  exact fun p hp => htext p (read?_eq_some_iff.mp hp)

/-! ## Precedence -/

/-- Settings are chosen from the environment, then from the first file that can be read, then from
the defaults, and looking for them changes no file. A file that cannot be read counts as a missing
one. A backend or policy of the environment that is none counts as a variable that is not set, also
for the other settings. The environment's layer counts once, however often it is laid over. -/
theorem loadDefault_precedence (env : Environment) (dirs : BaseDirectories)
    (read? : String → Option Layer) (w : Workspace) :
    (∀ s w', (loadDefault (m := StateM Workspace) env dirs read?).run w = (s, w') ↔
      w' = w ∧ ∃ below, FilesGive w dirs read? below ∧
        LiesOver (environmentSource env) below s) ∧
    (∀ w', (∀ path ∈ searchPaths dirs, layer? read? w' path = layer? read? w path) →
      ((loadDefault (m := StateM Workspace) env dirs read?).run w').1 =
        ((loadDefault (m := StateM Workspace) env dirs read?).run w).1) ∧
    (∀ text, env "REFLUXDB_STORAGE_BACKEND" = some text →
      (∀ b : Backend, Text.lower text.toList ≠ b.name.toList) →
      loadDefault (m := StateM Workspace)
        (Function.update env "REFLUXDB_STORAGE_BACKEND" none) dirs read? =
          loadDefault env dirs read?) ∧
    (∀ text, env "REFLUXDB_BATCH_POLICY" = some text →
      (∀ p : Ingest.Policy, Text.lower text.toList ≠ p.name.toList) →
      loadDefault (m := StateM Workspace)
        (Function.update env "REFLUXDB_BATCH_POLICY" none) dirs read? =
          loadDefault env dirs read?) ∧
    ∀ s : Settings, LiesOver (environmentSource env) s (s.overlay (.ofEnvironment env)) ∧
      (s.overlay (.ofEnvironment env)).overlay (.ofEnvironment env) =
        s.overlay (.ofEnvironment env) := by
  refine ⟨fun s w' => run_loadDefault_iff, fun w' hlayers => ?_, fun text henv htext => ?_,
    fun text henv htext => ?_, fun s => ⟨?_, overlay_overlay s _⟩⟩
  · rw [run_loadDefault_eq, run_loadDefault_eq, findSome?_layer?_congr hlayers]
  · exact loadDefault_congr (ofEnvironment_of_backend henv htext)
  · exact loadDefault_congr (ofEnvironment_of_policy henv htext)
  · rw [← source_ofEnvironment]
    exact liesOver_iff.mpr rfl

/-- A backend with a capital letter, and a policy that is none. -/
def mixedEnvironment : Environment
  | "HOME" => some "/home/user"
  | "REFLUXDB_STORAGE_BACKEND" => some "Memory"
  | "REFLUXDB_BATCH_POLICY" => some "drop"
  | _ => none

/-- The user's file cannot be read, and that of the machine sets a policy. -/
def mixedFiles : Workspace where
  current := []
  nodes := [
    ((Path.ofText "/home").steps, .directory), ((Path.ofText "/home/user").steps, .directory),
    ((Path.ofText "/home/user/.config").steps, .directory),
    ((Path.ofText "/home/user/.config/refluxdb").steps, .directory),
    ((Path.ofText "/home/user/.config/refluxdb/config.toml").steps, .file "[storage".toUTF8),
    ((Path.ofText "/etc").steps, .directory), ((Path.ofText "/etc/refluxdb").steps, .directory),
    ((Path.ofText "/etc/refluxdb/config.toml").steps,
      .file "[ingest]\nbatch_policy = \"skip\"".toUTF8)]
  input := ""

/-- What they come to: the environment gives the backend, and the machine's file the policy. -/
def mixed : Settings :=
  ⟨.memory, "/home/user/.local/share/refluxdb/points.db", .skip, "mydb", "info", "pretty"⟩

/-- They come to the same where the system has no base directories, but for the database file. -/
theorem loadDefault_precedence_mixed :
    (loadDefault (m := StateM Workspace) mixedEnvironment).run mixedFiles = (mixed, mixedFiles) ∧
      (loadDefault (m := StateM Workspace) mixedEnvironment ⟨none, none⟩).run mixedFiles =
        ({ mixed with path := "./refluxdb_data/points.db" }, mixedFiles) ∧
      mixedEnvironment "REFLUXDB_BATCH_POLICY" = some "drop" ∧
      (∀ p : Ingest.Policy, Text.lower "drop".toList ≠ p.name.toList) ∧
      loadDefault (m := StateM Workspace)
        (Function.update mixedEnvironment "REFLUXDB_BATCH_POLICY" none) =
          loadDefault mixedEnvironment := by
  obtain ⟨hrun, -, -, hpolicy, -⟩ := loadDefault_precedence mixedEnvironment
    mixedEnvironment.baseDirectories Layer.ofText? mixedFiles
  obtain ⟨hbare, -⟩ := loadDefault_precedence mixedEnvironment ⟨none, none⟩ Layer.ofText? mixedFiles
  have hdrop : ∀ p : Ingest.Policy, Text.lower "drop".toList ≠ p.name.toList := by
    intro p
    cases p <;> decide
  have hname : "REFLUXDB_BATCH_POLICY" ∉ ["HOME", "XDG_CONFIG_HOME", "XDG_DATA_HOME"] := by decide
  refine ⟨(hrun _ _).mpr ⟨rfl, { mixed with backend := .database }, ?_, ?_⟩,
    (hbare _ _).mpr ⟨rfl, { mixed with
      backend := .database, path := "./refluxdb_data/points.db" }, ?_, ?_⟩, rfl, hdrop, ?_⟩
  · rw [filesGive_iff]
    decide +kernel
  · rw [← source_ofEnvironment, liesOver_iff]
    decide +kernel
  · rw [filesGive_iff]
    decide +kernel
  · rw [← source_ofEnvironment, liesOver_iff]
    decide +kernel
  · rw [baseDirectories_update hname]
    exact hpolicy "drop" rfl hdrop

end Settings
end TimeSeries

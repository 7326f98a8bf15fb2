/-
  File:      ModelOps/Registry/Local.lean
  Subject:   The model registry: `LocalModelRegistry` and the routes of app/api/models.py.

  A model and a version are path segments of the request, joined to `artifacts_dir`.

  * `modelDir`, `versionDir`, `readJson` -- `_model_dir`, `_version_dir`, `_read_json`, and the three
    reads the routes offer;
  * `ListsDirectory`, `ReadsFile` -- the directory that is listed, the file that is read; `value_read`:
    what a read returns is that file's;
  * **`reads_below_iff`** -- which of them lie inside the artifacts directory: all of them but those of
    special segments;
  * **`reads_outside`** -- the model ".." reads its neighbours.
-/
import Mathlib.Data.List.Sort
import ModelOps.Lib.FileTree
import ModelOps.Lib.Json

namespace ModelOps

open FileTree Python

/-! ## 1. Segments and paths -/

/-- A path segment as a route takes it. -/
structure Segment where
  text : String
  nonempty : text ≠ ""
  noSlash : '/' ∉ text.toList

/-- `path / segment`: pathlib leaves "." out. -/
def join (path : List String) (segment : Segment) : List String :=
  if segment.text = "." then path else path ++ [segment.text]

/-- `REQUIRED_ARTIFACT_FILES`. -/
def requiredArtifactFiles : List String := ["model.joblib", "metadata.json", "evaluation.json"]

/-- `ModelNotFoundError`, `ArtifactNotFoundError` on its two paths, `CorruptArtifactError` with the text
    of the decoder, and any other exception. -/
inductive RegistryError where
  | modelNotFound (modelName : String)
  | versionNotFound (modelName version : String)
  | missingFiles (modelName version : String) (missing : List String)
  | corrupt (filename modelName version exc : String)
  | other
  deriving DecidableEq

/-- `str(exc)`. -/
def RegistryError.message : RegistryError → String
  | .modelNotFound modelName => "Model '" ++ modelName ++ "' not found in registry"
  | .versionNotFound modelName version =>
      "Version '" ++ version ++ "' not found for model '" ++ modelName ++ "'"
  | .missingFiles modelName version missing =>
      "Artifact for " ++ modelName ++ "/" ++ version ++ " is missing required file(s): " ++
        "[" ++ String.intercalate ", " (missing.map fun f => "'" ++ f ++ "'") ++ "]"
  | .corrupt filename modelName version exc =>
      "Could not parse " ++ filename ++ " for " ++ modelName ++ "/" ++ version ++ ": " ++ exc
  | .other => "Internal Server Error"

/-- The status a route answers with. -/
def RegistryError.statusCode : RegistryError → Nat
  | .modelNotFound _ => 404
  | .versionNotFound _ _ => 404
  | .missingFiles _ _ _ => 404
  | .corrupt _ _ _ _ => 500
  | .other => 500

/-! ## 2. The registry -/

section Registry

-- `root` is the file tree; `loads` is `json.loads`, with the text of a JSONDecodeError
variable (root : Node ByteArray) (loads : String → Except (Option String) Json)
  (artifactsDir : List String) (modelName version : Segment) (filename : String)

/-- `_model_dir`. -/
def modelDir : Except RegistryError (List String) :=
  if isDir root (join artifactsDir modelName) then .ok (join artifactsDir modelName)
  else .error (.modelNotFound modelName.text)

/-- The names of the directories in a directory. -/
def subdirectories (path : List String) : List String :=
  match (resolve root path).bind fun names => root.look names with
  | some (.dir entries) =>
      (entries.map fun e => e.1.text).filter fun name => isDir root (path ++ [name])
  | _ => []

/-- `list_versions`. -/
def listVersions : Except RegistryError (List String) :=
  (modelDir root artifactsDir modelName).map fun dir =>
    (subdirectories root dir).insertionSort (· ≤ ·)

def missingFiles (dir : List String) : List String :=
  requiredArtifactFiles.filter fun f => !isFile root (dir ++ [f])

/-- `_version_dir`. -/
def versionDir : Except RegistryError (List String) :=
  match modelDir root artifactsDir modelName with
  | .error e => .error e
  | .ok dir =>
      if isDir root (join dir version) then
        if missingFiles root (join dir version) = [] then .ok (join dir version)
        else
          .error (.missingFiles modelName.text version.text (missingFiles root (join dir version)))
      else .error (.versionNotFound modelName.text version.text)

/-- `json.loads(path.read_text())`. -/
def loadFile (path : List String) : Except RegistryError Json :=
  match (resolve root path).bind fun names => root.look names with
  | some (.file content) =>
      match String.fromUTF8? content with
      | none => .error .other
      | some text =>
          match loads text with
          | .ok value => .ok value
          | .error (some exc) => .error (.corrupt filename modelName.text version.text exc)
          | .error none => .error .other
  | _ => .error .other

/-- `_read_json`. -/
def readJson : Except RegistryError Json :=
  match versionDir root artifactsDir modelName version with
  | .error e => .error e
  | .ok dir => loadFile root loads modelName version filename (dir ++ [filename])

/-- `get_model_metadata`. -/
def getModelMetadata : Except RegistryError Json :=
  readJson root loads artifactsDir modelName version "metadata.json"

/-- `get_evaluation`. -/
def getEvaluation : Except RegistryError Json :=
  readJson root loads artifactsDir modelName version "evaluation.json"

end Registry

/-- What a route answers: the value, or a status and a detail. -/
def answer {α : Type} (result : Except RegistryError α) : Except (Nat × String) α :=
  result.mapError fun e => (e.statusCode, e.message)

/-! ## 3. What is listed and read -/

/-- The directory `list_versions` lists. -/
def ListsDirectory (root : Node ByteArray) (artifactsDir : List String) (modelName : Segment)
    (there : List Name) : Prop :=
  ∃ dir, modelDir root artifactsDir modelName = .ok dir ∧ resolve root dir = some there

/-- The file `_read_json` opens. -/
def ReadsFile (root : Node ByteArray) (artifactsDir : List String) (modelName version : Segment)
    (filename : String) (there : List Name) : Prop :=
  ∃ dir, versionDir root artifactsDir modelName version = .ok dir ∧
    resolve root (dir ++ [filename]) = some there

section Reading

variable {root : Node ByteArray} {loads : String → Except (Option String) Json}
  {artifactsDir : List String} {modelName version segment : Segment} {filename : String}
  {top here there : List Name} {path : List String}

/-- Where a segment leads from a directory. -/
def SegmentLeads (here : List Name) (segment : Segment) (there : List Name) : Prop :=
  segment.text = "." ∧ there = here ∨ segment.text = ".." ∧ there = here.dropLast ∨
    segment.text ≠ "." ∧ segment.text ≠ ".." ∧ ∃ name : Name, name.text = segment.text ∧
      there = here ++ [name]

/-- **A joined segment is followed**, whatever the path before it is. -/
theorem resolve_join (h : resolve root (join path segment) = some there) :
    ∃ here, resolve root path = some here ∧ SegmentLeads here segment there := by
  unfold join at h
  split at h
  · rename_i hdot
    exact ⟨there, h, Or.inl ⟨hdot, rfl⟩⟩
  · rename_i hdot
    obtain ⟨here, hhere, hstep⟩ := resolve_snoc_some h
    obtain ⟨entries, _, hcases⟩ := step_some hstep
    refine ⟨here, hhere, ?_⟩
    rcases hcases with hcase | hcase | ⟨_, hdots, e, hentry, he⟩
    · exact absurd hcase.1 hdot
    · exact Or.inr (Or.inl hcase)
    · exact Or.inr (Or.inr ⟨hdot, hdots, e.1, entry_text hentry, he⟩)

theorem modelDir_ok (h : modelDir root artifactsDir modelName = .ok path) :
    path = join artifactsDir modelName ∧ isDir root path = true := by
  unfold modelDir at h
  split at h
  · rename_i hdir
    injection h with h
    exact ⟨h.symm, h ▸ hdir⟩
  · cases h

theorem versionDir_ok (h : versionDir root artifactsDir modelName version = .ok path) :
    ∃ dir, modelDir root artifactsDir modelName = .ok dir ∧ path = join dir version ∧
      isDir root path = true ∧ ∀ f ∈ requiredArtifactFiles, isFile root (path ++ [f]) = true := by
  unfold versionDir at h
  split at h
  · cases h
  · rename_i dir hmodel
    split at h
    · rename_i hdir
      split at h
      · rename_i hmissing
        injection h with h
        subst h
        refine ⟨dir, hmodel, rfl, hdir, fun f hf => ?_⟩
        simpa using List.filter_eq_nil_iff.mp hmissing f hf
      · cases h
    · cases h

/-- **Where `list_versions` goes.** -/
theorem lists_lead (hart : resolve root artifactsDir = some top)
    (h : ListsDirectory root artifactsDir modelName there) : SegmentLeads top modelName there := by
  obtain ⟨dir, hdir, hthere⟩ := h
  rw [(modelDir_ok hdir).1] at hthere
  obtain ⟨here, hhere, hfollow⟩ := resolve_join hthere
  rw [hart] at hhere
  cases hhere
  exact hfollow

/-- **Where `_read_json` goes.** -/
theorem reads_lead (hart : resolve root artifactsDir = some top)
    (hname : filename ≠ "." ∧ filename ≠ "..")
    (h : ReadsFile root artifactsDir modelName version filename there) :
    ∃ model dir name, SegmentLeads top modelName model ∧ SegmentLeads model version dir ∧
      there = dir ++ [name] := by
  obtain ⟨path, hpath, hthere⟩ := h
  obtain ⟨modelPath, hmodel, hjoin, _⟩ := versionDir_ok hpath
  obtain ⟨dir, hdir, hstep⟩ := resolve_snoc_some hthere
  rw [hjoin] at hdir
  obtain ⟨model, hresolve, hversion⟩ := resolve_join hdir
  have hlists := lists_lead hart ⟨modelPath, hmodel, hresolve⟩
  obtain ⟨_, _, hcases⟩ := step_some hstep
  rcases hcases with hcase | hcase | ⟨_, _, e, _, he⟩
  · exact absurd hcase.1 hname.1
  · exact absurd hcase.1 hname.2
  · exact ⟨model, dir, e.1, hlists, hversion, he⟩

theorem loadFile_reads {value : Json}
    (h : loadFile root loads modelName version filename path = .ok value) :
    ∃ there content text, resolve root path = some there ∧
      root.look there = some (.file content) ∧ String.fromUTF8? content = some text ∧
      loads text = .ok value := by
  unfold loadFile at h
  split at h
  · rename_i content hlook
    obtain ⟨there, hthere, hlook⟩ := Option.bind_eq_some_iff.mp hlook
    split at h
    · cases h
    · rename_i text htext
      split at h
      · rename_i hvalue
        cases h
        exact ⟨there, content, text, hthere, hlook, htext, hvalue⟩
      · cases h
      · cases h
  · cases h

/-- **A value `_read_json` returns is that of the file it opens.** -/
theorem readJson_reads {value : Json}
    (h : readJson root loads artifactsDir modelName version filename = .ok value) :
    ∃ there content text, ReadsFile root artifactsDir modelName version filename there ∧
      root.look there = some (.file content) ∧ String.fromUTF8? content = some text ∧
      loads text = .ok value := by
  unfold readJson at h
  split at h
  · cases h
  · rename_i dir hdir
    obtain ⟨there, content, text, hthere, hrest⟩ := loadFile_reads h
    exact ⟨there, content, text, ⟨dir, hdir, hthere⟩, hrest⟩

/-- **What the two reads return** is the value of a file `_read_json` opens. -/
theorem value_read {value : Json}
    (h : getModelMetadata root loads artifactsDir modelName version = .ok value ∨
      getEvaluation root loads artifactsDir modelName version = .ok value) :
    ∃ filename ∈ ["metadata.json", "evaluation.json"], ∃ there content text,
      ReadsFile root artifactsDir modelName version filename there ∧
        root.look there = some (.file content) ∧ String.fromUTF8? content = some text ∧
        loads text = .ok value := by
  cases h with
  | inl h => exact ⟨_, List.mem_cons_self, readJson_reads h⟩
  | inr h => exact ⟨_, List.mem_cons_of_mem _ List.mem_cons_self, readJson_reads h⟩

/-- **The directories `list_versions` names** are entries of the directory it lists. -/
theorem subdirectories_entry {name : String} (hpath : resolve root path = some here)
    (hname : name ∈ subdirectories root path) (h : resolve root (path ++ [name]) = some there) :
    ∃ entry : Name, there = here ++ [entry] := by
  unfold subdirectories at hname
  split at hname
  · obtain ⟨e, _, he⟩ := List.mem_map.mp (List.mem_filter.mp hname).1
    obtain ⟨here', hhere, hstep⟩ := resolve_snoc_some h
    rw [hpath] at hhere
    cases hhere
    obtain ⟨_, _, hcases⟩ := step_some hstep
    rcases hcases with hcase | hcase | ⟨_, _, e', _, he'⟩
    · exact absurd (he.trans hcase.1) e.1.ne_dot
    · exact absurd (he.trans hcase.1) e.1.ne_dots
    · exact ⟨e'.1, he'⟩
  · cases hname

/-- A directory is named among those of its parent. -/
theorem mem_subdirectories {init : List Name} {last : Name} {entries : List (Name × Node ByteArray)}
    (hpath : resolve root path = some init)
    (hlook : root.look (init ++ [last]) = some (.dir entries)) :
    last.text ∈ subdirectories root path ∧
      resolve root (path ++ [last.text]) = some (init ++ [last]) := by
  obtain ⟨siblings, hinit, hentry⟩ := look_snoc hlook
  have hresolve := resolve_entry (e := (last, .dir entries)) hpath hinit hentry
  refine ⟨?_, hresolve⟩
  unfold subdirectories
  rw [hpath, Option.bind_some, hinit]
  exact List.mem_filter.mpr
    ⟨List.mem_map.mpr ⟨_, entry_mem hentry, rfl⟩, isDir_intro hresolve hlook⟩

/-! ## 4. Inside the artifacts directory -/

/-- **The directory that is listed** is inside exactly if the model is not a special segment. -/
theorem lists_below_iff (hart : resolve root artifactsDir = some top)
    (h : ListsDirectory root artifactsDir modelName there) :
    Below top there ↔ modelName.text ≠ "." ∧ modelName.text ≠ ".." := by
  rcases lists_lead hart h with ⟨hdot, rfl⟩ | ⟨hdots, rfl⟩ | ⟨hdot, hdots, name, _, rfl⟩
  · exact iff_of_false not_below_self fun hne => hne.1 hdot
  · refine iff_of_false (fun hbelow => ?_) fun hne => hne.2 hdots
    have hnil := prefix_dropLast.mp hbelow.1
    rw [hnil] at hbelow
    exact not_below_self hbelow
  · exact iff_of_true (below_snoc.mpr (List.prefix_refl _)) ⟨hdot, hdots⟩

/-- The artifacts directory is a directory where a model leads back from it. -/
theorem top_dir (hart : resolve root artifactsDir = some top) (hdots : modelName.text = "..")
    (h : resolve root (join artifactsDir modelName) = some there) :
    ∃ entries, root.look top = some (.dir entries) := by
  unfold join at h
  rw [hdots, if_neg (by decide)] at h
  obtain ⟨here, hhere, hstep⟩ := resolve_snoc_some h
  rw [hart] at hhere
  cases hhere
  obtain ⟨entries, hlook, _⟩ := step_some hstep
  exact ⟨entries, hlook⟩

/-- **The directories that are named** are inside exactly if the model does not lead back. -/
theorem versions_below_iff (hart : resolve root artifactsDir = some top)
    (h : modelDir root artifactsDir modelName = .ok path) :
    (∀ name ∈ subdirectories root path, ∀ there, resolve root (path ++ [name]) = some there →
      Below top there) ↔ (modelName.text = ".." → top = []) := by
  obtain ⟨hjoin, hdir⟩ := modelDir_ok h
  obtain ⟨here, _, hhere, _⟩ := isDir_some hdir
  rcases lists_lead hart ⟨path, h, hhere⟩ with ⟨hdot, rfl⟩ | ⟨hdots, rfl⟩ | ⟨_, hdots, m, _, rfl⟩
  · refine iff_of_true ?_ fun hdots => absurd (hdot.symm.trans hdots) (by decide)
    intro name hname there hthere
    obtain ⟨entry, rfl⟩ := subdirectories_entry hhere hname hthere
    exact below_snoc.mpr (List.prefix_refl _)
  · rw [forall_prop_of_true hdots]
    constructor
    · intro hall
      obtain ⟨entries, hlook⟩ := top_dir hart hdots (hjoin ▸ hhere)
      cases List.eq_nil_or_concat top with
      | inl hnil => exact hnil
      | inr hconcat =>
          -- the parent names the artifacts directory itself
          obtain ⟨init, last, rfl⟩ := hconcat
          rw [List.concat_eq_append] at hall hhere hlook
          rw [List.dropLast_concat] at hhere
          obtain ⟨hname, hthere⟩ := mem_subdirectories hhere hlook
          exact absurd (hall _ hname _ hthere) not_below_self
    · intro hnil name hname there hthere
      obtain ⟨entry, rfl⟩ := subdirectories_entry hhere hname hthere
      exact below_snoc.mpr (hnil ▸ List.nil_prefix)
  · refine iff_of_true ?_ fun h => absurd h hdots
    intro name hname there hthere
    obtain ⟨entry, rfl⟩ := subdirectories_entry hhere hname hthere
    exact below_snoc.mpr (List.prefix_append _ _)

/-- What the model and the version are where `_read_json` stays inside. -/
def StaysInside (top : List Name) (modelName version : Segment) : Prop :=
  top = [] ∨ ¬ (modelName.text = "." ∧ version.text = "..") ∧
    (modelName.text = ".." → top.getLast?.map Name.text = some version.text)

theorem getLast_ne_special (hspecial : segment.text = "." ∨ segment.text = "..") :
    top.getLast?.map Name.text ≠ some segment.text := by
  intro h
  obtain ⟨name, _, hname⟩ := Option.map_eq_some_iff.mp h
  cases hspecial with
  | inl hdot => exact name.ne_dot (hname.trans hdot)
  | inr hdots => exact name.ne_dots (hname.trans hdots)

/-- Two segments lead to the directory or inside it exactly if they are such. -/
theorem segments_lead_inside {model dir : List Name} (hmodel : SegmentLeads top modelName model)
    (hversion : SegmentLeads model version dir) : top <+: dir ↔ StaysInside top modelName version := by
  unfold StaysInside
  rcases hmodel with ⟨hm, rfl⟩ | ⟨hm, rfl⟩ | ⟨hm, hm', m, _, rfl⟩
  · -- the model is "."
    have hm' : modelName.text ≠ ".." := by simp [hm]
    rcases hversion with ⟨hv, rfl⟩ | ⟨hv, rfl⟩ | ⟨hv, hv', v, _, rfl⟩
    · exact iff_of_true (List.prefix_refl _) (Or.inr ⟨by simp [hv], fun h => absurd h hm'⟩)
    · rw [prefix_dropLast]
      simp [hm, hv]
    · exact iff_of_true (List.prefix_append _ _) (Or.inr ⟨by simp [hv'], fun h => absurd h hm'⟩)
  · -- the model is ".."
    have hm' : modelName.text ≠ "." := by simp [hm]
    have hback : ∀ P : Prop, (¬ (modelName.text = "." ∧ version.text = "..") ∧
        (modelName.text = ".." → P)) ↔ P := fun P =>
      ⟨fun h => h.2 hm, fun h => ⟨fun hs => hm' hs.1, fun _ => h⟩⟩
    rw [hback]
    rcases hversion with ⟨hv, rfl⟩ | ⟨hv, rfl⟩ | ⟨_, _, v, hv, rfl⟩
    · rw [prefix_dropLast, or_iff_left (getLast_ne_special (Or.inl hv))]
    · rw [prefix_dropLast_dropLast, or_iff_left (getLast_ne_special (Or.inr hv))]
    · rw [prefix_sibling, ← hv]
      refine or_congr_right ?_
      rw [Option.map_eq_some_iff]
      constructor
      · intro hlast
        exact ⟨v, hlast, rfl⟩
      · intro hlast
        obtain ⟨name, hname, htext⟩ := hlast
        rw [hname, Name.ext_text htext]
  · -- the model is an entry
    refine iff_of_true ?_ (Or.inr ⟨fun h => hm h.1, fun h => absurd h hm'⟩)
    rcases hversion with ⟨_, rfl⟩ | ⟨_, rfl⟩ | ⟨_, _, v, _, rfl⟩
    · exact List.prefix_append _ _
    · have hback : (top ++ [m]).dropLast = top := List.dropLast_concat
      exact hback.symm ▸ List.prefix_refl top
    · exact (List.prefix_append _ _).trans (List.prefix_append _ _)

/-- **The file that is read** is inside exactly if the segments stay inside. -/
theorem file_below_iff (hart : resolve root artifactsDir = some top)
    (hname : filename ≠ "." ∧ filename ≠ "..")
    (h : ReadsFile root artifactsDir modelName version filename there) :
    Below top there ↔ StaysInside top modelName version := by
  obtain ⟨model, dir, name, hmodel, hversion, rfl⟩ := reads_lead hart hname h
  rw [below_snoc]
  exact segments_lead_inside hmodel hversion

theorem listVersions_names {dir names : List String}
    (hdir : modelDir root artifactsDir modelName = .ok dir)
    (h : listVersions root artifactsDir modelName = .ok names) {name : String} :
    name ∈ names ↔ name ∈ subdirectories root dir := by
  unfold listVersions at h
  rw [hdir] at h
  cases h
  exact List.mem_insertionSort _

end Reading

/-- **Which reads lie inside the artifacts directory**, `top`: the directory that is listed if the
    model is not a special segment, the directories it names if the model is not "..", and the file
    that is read if the segments do not lead out of it. -/
theorem reads_below_iff (root : Node ByteArray) (artifactsDir : List String)
    (modelName version : Segment) (top : List Name) (hart : resolve root artifactsDir = some top) :
    (∀ there, ListsDirectory root artifactsDir modelName there →
      (Below top there ↔ modelName.text ≠ "." ∧ modelName.text ≠ "..")) ∧
    (∀ dir names, modelDir root artifactsDir modelName = .ok dir →
      listVersions root artifactsDir modelName = .ok names →
        ((∀ name ∈ names, ∀ there, resolve root (dir ++ [name]) = some there → Below top there) ↔
          (modelName.text = ".." → top = []))) ∧
    ∀ filename ∈ ["metadata.json", "evaluation.json"], ∀ there,
      ReadsFile root artifactsDir modelName version filename there →
        (Below top there ↔ StaysInside top modelName version) := by
  refine ⟨fun _ => lists_below_iff hart, ?_, ?_⟩
  · intro dir names hdir hnames
    simp only [listVersions_names hdir hnames]
    exact versions_below_iff hart hdir
  · intro filename hfilename there hreads
    refine file_below_iff hart ?_ hreads
    cases List.mem_cons.mp hfilename with
    | inl h => exact h ▸ by decide
    | inr h => exact List.mem_singleton.mp h ▸ by decide

/-! ## 5. A read outside -/

def srvName : Name := ⟨"srv", by decide⟩
def artifactsName : Name := ⟨"artifacts", by decide⟩
def fraudModelName : Name := ⟨"fraud-model", by decide⟩
def backupName : Name := ⟨"backup", by decide⟩
def modelFile : Name := ⟨"model.joblib", by decide⟩
def metadataFile : Name := ⟨"metadata.json", by decide⟩
def evaluationFile : Name := ⟨"evaluation.json", by decide⟩

/-- The artifacts directory with a model, and a backup of a version beside it. -/
def sampleFiles : Node ByteArray :=
  .dir
    [(srvName, .dir
      [(backupName, .dir
        [(modelFile, .file ⟨#[]⟩), (metadataFile, .file ⟨#[0x7b, 0x7d]⟩),
          (evaluationFile, .file ⟨#[0x7b, 0x7d]⟩)]),
        (artifactsName, .dir [(fraudModelName, .dir [])])])]

def parentSegment : Segment := ⟨"..", by decide, by decide⟩
def fraudModelSegment : Segment := ⟨"fraud-model", by decide, by decide⟩
def backupSegment : Segment := ⟨"backup", by decide, by decide⟩

theorem reads_below_iff_sample :
    Below [srvName, artifactsName] [srvName, artifactsName, fraudModelName] ↔
      fraudModelSegment.text ≠ "." ∧ fraudModelSegment.text ≠ ".." :=
  (reads_below_iff sampleFiles ["srv", "artifacts"] fraudModelSegment backupSegment
    [srvName, artifactsName] rfl).1 _ ⟨_, rfl, rfl⟩

/-- **The model ".." lists and reads the neighbours of the artifacts directory.** -/
theorem reads_outside :
    resolve sampleFiles ["srv", "artifacts"] = some [srvName, artifactsName] ∧
      answer (listVersions sampleFiles ["srv", "artifacts"] parentSegment) =
        .ok ["artifacts", "backup"] ∧
      (∃ value, answer (getModelMetadata sampleFiles (fun _ => .ok .null) ["srv", "artifacts"]
        parentSegment backupSegment) = .ok value) ∧
      ReadsFile sampleFiles ["srv", "artifacts"] parentSegment backupSegment "metadata.json"
        [srvName, backupName, metadataFile] ∧
      ¬ Below [srvName, artifactsName] [srvName, backupName, metadataFile] := by
  refine ⟨rfl, ?_, ⟨.null, ?_⟩, ⟨_, rfl, rfl⟩, ?_⟩
  · rfl
  · rfl
  · intro h
    exact absurd h.1 (by decide)

end ModelOps

/-
  File:      ModelOps/Registry/Publish.lean
  Subject:   A version is published while it is loaded: `_write_artifact` (scripts/train_models.py) and
             `load_model` (app/serving/model_loader.py).

  Nothing about a publication is atomic: directories appear, and each file grows from nothing. Nor is a
  load: the registry looks at the tree again and again, each time at some later moment.

  * `writeArtifact` -- the steps of a publication;
  * `loadModel` -- the code, each of its looks at a tree of its own;
  * `marked_later` -- evaluation.json is written last, so where it is there, the other files are complete;
  * **`load_published`** -- so a load of a version that is being published fails, or it gives exactly what
    is published; once that is done, it gives it; and no other version is read differently meanwhile.
-/
import Mathlib.Data.List.Infix
import ModelOps.Lib.FileWrites
import ModelOps.Registry.Local

namespace ModelOps

open FileTree Python

/-! ## 1. A publication -/

/-- The files of a version. -/
structure Artifact where
  model : ByteArray
  metadata : ByteArray
  evaluation : ByteArray

/-- A file is opened, which empties it, and written from its beginning on. -/
def fileWrites (there : List Name) (content : ByteArray) : List (Write ByteArray) :=
  (List.range (content.size + 1)).map fun n => .putFile there (content.extract 0 n)

/-- `version_dir.mkdir(parents=True, exist_ok=True)`, and the two files written first. -/
def openingWrites (dir : List Name) (a : Artifact) : List (Write ByteArray) :=
  dir.inits.tail.map .makeDir ++ fileWrites (dir ++ [modelFile]) a.model ++
    fileWrites (dir ++ [metadataFile]) a.metadata

/-- `_write_artifact`. -/
def writeArtifact (dir : List Name) (a : Artifact) : List (Write ByteArray) :=
  openingWrites dir a ++ fileWrites (dir ++ [evaluationFile]) a.evaluation

/-- The tree `k` steps into a publication. -/
def published (root : Node ByteArray) (dir : List Name) (a : Artifact) (k : Nat) : Node ByteArray :=
  performed root ((writeArtifact dir a).take k)

/-! ## 2. A load -/

section Load

-- what the looks at the tree find, one after the other
variable (trees : Nat → Node ByteArray) (loads : String → Except (Option String) Json)
  (artifactsDir : List String) (modelName version : Segment)

/-- `_version_dir`, from its look `i` on. -/
def versionDirAt (i : Nat) : Except RegistryError (List String) :=
  match modelDir (trees i) artifactsDir modelName with
  | .error e => .error e
  | .ok dir =>
      if isDir (trees (i + 1)) (join dir version) then
        let missing := (requiredArtifactFiles.zipIdx.filter fun f =>
          !isFile (trees (i + 2 + f.2)) (join dir version ++ [f.1])).map Prod.fst
        if missing = [] then .ok (join dir version)
        else .error (.missingFiles modelName.text version.text missing)
      else .error (.versionNotFound modelName.text version.text)

/-- `_read_json`. -/
def readJsonAt (filename : String) (i : Nat) : Except RegistryError Json :=
  match versionDirAt trees artifactsDir modelName version i with
  | .error e => .error e
  | .ok dir => loadFile (trees (i + 5)) loads modelName version filename (dir ++ [filename])

/-- What `load_model` raises. -/
inductive LoadError where
  | registry (e : RegistryError)
  /-- `get_model_path`: the file has gone since -/
  | modelMissing (path : List String)
  /-- `joblib.load` -/
  | unreadable
  deriving DecidableEq

/-- `get_model_path`. -/
def getModelPathAt (i : Nat) : Except LoadError (List String) :=
  match versionDirAt trees artifactsDir modelName version i with
  | .error e => .error (.registry e)
  | .ok dir =>
      if isFile (trees (i + 5)) (dir ++ ["model.joblib"]) then .ok (dir ++ ["model.joblib"])
      else .error (.modelMissing (dir ++ ["model.joblib"]))

/-- `LoadedModel`. -/
structure LoadedModel (π : Type) where
  pipeline : π
  metadata : Json
  evaluation : Json

variable {π : Type} (unpickle : ByteArray → Option π)

/-- `joblib.load`. -/
def joblibLoad (path : List String) (i : Nat) : Except LoadError π :=
  match ((resolve (trees i) path).bind fun names => (trees i).content names).bind unpickle with
  | some pipeline => .ok pipeline
  | none => .error .unreadable

/-- `load_model`. -/
def loadModel : Except LoadError (LoadedModel π) := do
  let metadata ← (readJsonAt trees loads artifactsDir modelName version "metadata.json" 0).mapError
    .registry
  let evaluation ← (readJsonAt trees loads artifactsDir modelName version "evaluation.json" 6).mapError
    .registry
  let modelPath ← getModelPathAt trees artifactsDir modelName version 12
  let pipeline ← joblibLoad trees unpickle modelPath 18
  pure { pipeline, metadata, evaluation }

end Load

/-! ## 3. What a load finds -/

/-- The segment of an entry's name. -/
def Segment.ofName (name : Name) : Segment where
  text := name.text
  nonempty := by
    have h := name.plain
    simp only [isPlain, Bool.and_eq_true, decide_eq_true_eq] at h
    exact h.1.1.1
  noSlash := by
    have h := name.plain
    simp only [isPlain, Bool.and_eq_true, decide_eq_true_eq] at h
    simpa using h.2

/-- What a file's content is read as. -/
def parse (loads : String → Except (Option String) Json) (content : ByteArray) : Option Json :=
  (String.fromUTF8? content).bind fun text => (loads text).toOption

/-- The files of a version directory are there. -/
def HasFiles (root : Node ByteArray) (dir : List Name) : Prop :=
  ∀ f ∈ [modelFile, metadataFile, evaluationFile], (root.content (dir ++ [f])).isSome

section Reads

variable {trees : Nat → Node ByteArray} {root : Node ByteArray}
  {loads : String → Except (Option String) Json} {top names : List Name} {modelName version : Name}
  {path : List String} {i : Nat} {value : Json} {π : Type} {unpickle : ByteArray → Option π}
  {loaded : LoadedModel π}

theorem join_ofName (path : List String) (name : Name) :
    join path (Segment.ofName name) = path ++ [name.text] := if_neg name.ne_dot

theorem path_snoc (names : List Name) (name : Name) :
    names.map Name.text ++ [name.text] = (names ++ [name]).map Name.text := by
  rw [List.map_append, List.map_singleton]

theorem loadFile_ok {segment segment' : Segment} {filename : String} :
    loadFile root loads segment segment' filename (names.map Name.text) = .ok value ↔
      (root.content names).bind (parse loads) = some value := by
  have hlook : ((resolve root (names.map Name.text)).bind fun names => root.look names) = root.look names := by
    cases hresolve : resolve root (names.map Name.text) with
    | none =>
        cases hlook : root.look names with
        | none => rfl
        | some n =>
            rw [resolve_names hlook] at hresolve
            cases hresolve
    | some there =>
        rw [(resolve_names_some hresolve).1]
        rfl
  unfold loadFile Node.content
  rw [hlook]
  cases root.look names with
  | none => exact iff_of_false nofun nofun
  | some n =>
      cases n with
      | dir entries => exact iff_of_false nofun nofun
      | file content =>
          rw [Option.bind_some]
          unfold parse
          dsimp only
          cases String.fromUTF8? content with
          | none => exact iff_of_false nofun nofun
          | some text =>
              dsimp only
              rw [Option.bind_some]
              rcases loads text with (_ | exc) | value'
              · exact iff_of_false nofun nofun
              · exact iff_of_false nofun nofun
              · exact ⟨fun h => congrArg some (Except.ok.inj h), fun h => congrArg Except.ok (Option.some.inj h)⟩

/-- The directory of a version, and what its checks have found last. -/
theorem versionDirAt_ok
    (h : versionDirAt trees (top.map Name.text) (.ofName modelName) (.ofName version) i = .ok path) :
    path = (top ++ [modelName, version]).map Name.text ∧
      ((trees (i + 4)).content (top ++ [modelName, version] ++ [evaluationFile])).isSome := by
  unfold versionDirAt at h
  split at h
  · cases h
  · rename_i dir hdir
    obtain rfl := (modelDir_ok hdir).1
    have hjoin : join (join (top.map Name.text) (.ofName modelName)) (.ofName version) =
        (top ++ [modelName, version]).map Name.text := by
      rw [join_ofName, join_ofName, path_snoc, path_snoc, List.append_assoc]
      rfl
    rw [hjoin] at h
    split at h
    · dsimp only at h
      split at h
      · rename_i hmissing
        cases h
        refine ⟨rfl, ?_⟩
        have hfile := List.filter_eq_nil_iff.mp (List.map_eq_nil_iff.mp hmissing) ("evaluation.json", 2)
          (by decide)
        rw [show ("evaluation.json", 2).1 = evaluationFile.text from rfl, path_snoc, isFile_names] at hfile
        exact Option.ne_none_iff_isSome.mp (by simpa using hfile)
      · cases h
    · cases h

/-- And if the files are there all the time, it is found. -/
theorem versionDirAt_found (h : ∀ i, HasFiles (trees i) (top ++ [modelName, version])) (i : Nat) :
    versionDirAt trees (top.map Name.text) (.ofName modelName) (.ofName version) i =
      .ok ((top ++ [modelName, version]).map Name.text) := by
  have hdirs : ∀ j, isDir (trees j) ((top ++ [modelName]).map Name.text) = true ∧
      isDir (trees j) ((top ++ [modelName, version]).map Name.text) = true := by
    intro j
    obtain ⟨content, hc⟩ := Option.isSome_iff_exists.mp (h j modelFile (by decide))
    have hmodel : (trees j).content ((top ++ [modelName]) ++ version :: [modelFile]) = some content := by
      simpa using hc
    exact ⟨isDir_names hmodel, isDir_names hc⟩
  have hjoin : join ((top ++ [modelName]).map Name.text) (.ofName version) =
      (top ++ [modelName, version]).map Name.text := by
    rw [join_ofName, path_snoc, List.append_assoc]
    rfl
  have hmissing : (requiredArtifactFiles.zipIdx.filter fun f => !isFile (trees (i + 2 + f.2))
      ((top ++ [modelName, version]).map Name.text ++ [f.1])) = [] := by
    rw [List.filter_eq_nil_iff]
    intro f hf
    have hname : ∃ file ∈ [modelFile, metadataFile, evaluationFile], file.text = f.1 := by
      have hcases : f = ("model.joblib", 0) ∨ f = ("metadata.json", 1) ∨ f = ("evaluation.json", 2) := by
        simpa [requiredArtifactFiles, List.zipIdx] using hf
      rcases hcases with rfl | rfl | rfl
      · exact ⟨modelFile, by decide, rfl⟩
      · exact ⟨metadataFile, by decide, rfl⟩
      · exact ⟨evaluationFile, by decide, rfl⟩
    obtain ⟨file, hfile, hname⟩ := hname
    rw [← hname, path_snoc, isFile_names, h (i + 2 + f.2) file hfile]
    decide
  unfold versionDirAt modelDir
  rw [join_ofName, path_snoc, if_pos (hdirs i).1]
  dsimp only
  rw [hjoin, if_pos (hdirs (i + 1)).2, hmissing]
  rfl

theorem readJsonAt_ok (filename : String) (file : Name) (hname : file.text = filename)
    (h : readJsonAt trees loads (top.map Name.text) (.ofName modelName) (.ofName version) filename i =
      .ok value) :
    ((trees (i + 4)).content (top ++ [modelName, version] ++ [evaluationFile])).isSome ∧
      ((trees (i + 5)).content (top ++ [modelName, version] ++ [file])).bind (parse loads) = some value := by
  unfold readJsonAt at h
  split at h
  · cases h
  · rename_i dir hdir
    obtain ⟨rfl, hmarker⟩ := versionDirAt_ok hdir
    rw [← hname, path_snoc] at h
    exact ⟨hmarker, loadFile_ok.mp h⟩

theorem bind_ok {ε α β : Type} {x : Except ε α} {f : α → Except ε β} {b : β} (h : x >>= f = .ok b) :
    ∃ a, x = .ok a ∧ f a = .ok b := by
  cases x with
  | error e => cases h
  | ok a => exact ⟨a, rfl, h⟩

theorem mapError_ok {ε ε' α : Type} {x : Except ε α} {f : ε → ε'} {a : α} (h : x.mapError f = .ok a) :
    x = .ok a := by
  cases x with
  | error e => cases h
  | ok a' => exact congrArg Except.ok (Except.ok.inj h)

theorem joblibLoad_ok {pipeline : π} :
    joblibLoad trees unpickle (names.map Name.text) i = .ok pipeline ↔
      ((trees i).content names).bind unpickle = some pipeline := by
  have hfound : ((resolve (trees i) (names.map Name.text)).bind fun names => (trees i).content names) =
      (trees i).content names := by
    cases hresolve : resolve (trees i) (names.map Name.text) with
    | none =>
        cases hc : (trees i).content names with
        | none => rfl
        | some content =>
            rw [resolve_names (content_eq_some.mp hc)] at hresolve
            cases hresolve
    | some there =>
        rw [(resolve_names_some hresolve).1]
        rfl
  unfold joblibLoad
  rw [hfound]
  cases ((trees i).content names).bind unpickle with
  | none => exact iff_of_false nofun nofun
  | some p => exact ⟨fun h => congrArg some (Except.ok.inj h), fun h => congrArg Except.ok (Option.some.inj h)⟩

/-- **What a load that succeeds has found**, and at which of its looks. -/
theorem loadModel_ok
    (h : loadModel trees loads (top.map Name.text) (.ofName modelName) (.ofName version) unpickle =
      .ok loaded) :
    ((trees 4).content (top ++ [modelName, version] ++ [evaluationFile])).isSome ∧
      ((trees 5).content (top ++ [modelName, version] ++ [metadataFile])).bind (parse loads) =
        some loaded.metadata ∧
      ((trees 11).content (top ++ [modelName, version] ++ [evaluationFile])).bind (parse loads) =
        some loaded.evaluation ∧
      ((trees 18).content (top ++ [modelName, version] ++ [modelFile])).bind unpickle =
        some loaded.pipeline := by
  unfold loadModel at h
  obtain ⟨metadata, hmetadata, h⟩ := bind_ok h
  obtain ⟨evaluation, hevaluation, h⟩ := bind_ok h
  obtain ⟨modelPath, hpath, h⟩ := bind_ok h
  obtain ⟨pipeline, hpipeline, h⟩ := bind_ok h
  cases h
  obtain ⟨hmarker, hm⟩ := readJsonAt_ok _ metadataFile rfl (mapError_ok hmetadata)
  obtain ⟨_, he⟩ := readJsonAt_ok _ evaluationFile rfl (mapError_ok hevaluation)
  refine ⟨hmarker, hm, he, ?_⟩
  have hmodel : modelPath = (top ++ [modelName, version] ++ [modelFile]).map Name.text := by
    unfold getModelPathAt at hpath
    split at hpath
    · cases hpath
    · rename_i dir hdir
      obtain ⟨rfl, _⟩ := versionDirAt_ok hdir
      split at hpath <;> cases hpath
      exact path_snoc _ modelFile
  rw [hmodel] at hpipeline
  exact joblibLoad_ok.mp hpipeline

/-- **Where the files stay as they are, a load succeeds exactly if they are there and can be read.** -/
theorem loadModel_iff
    (hsteady : ∀ i, ∀ f ∈ [modelFile, metadataFile, evaluationFile],
      (trees i).content (top ++ [modelName, version] ++ [f]) =
        root.content (top ++ [modelName, version] ++ [f])) :
    loadModel trees loads (top.map Name.text) (.ofName modelName) (.ofName version) unpickle =
        .ok loaded ↔
      (root.content (top ++ [modelName, version] ++ [metadataFile])).bind (parse loads) =
        some loaded.metadata ∧
      (root.content (top ++ [modelName, version] ++ [evaluationFile])).bind (parse loads) =
        some loaded.evaluation ∧
      (root.content (top ++ [modelName, version] ++ [modelFile])).bind unpickle = some loaded.pipeline := by
  have hmetadata := fun i => hsteady i metadataFile (by decide)
  have hevaluation := fun i => hsteady i evaluationFile (by decide)
  have hmodel := fun i => hsteady i modelFile (by decide)
  constructor
  · intro h
    obtain ⟨_, hm, he, hp⟩ := loadModel_ok h
    rw [hmetadata] at hm
    rw [hevaluation] at he
    rw [hmodel] at hp
    exact ⟨hm, he, hp⟩
  · rintro ⟨hm, he, hp⟩
    have hfiles : ∀ i, HasFiles (trees i) (top ++ [modelName, version]) := by
      intro i f hf
      rw [hsteady i f hf]
      simp only [List.mem_cons, List.not_mem_nil, or_false] at hf
      obtain ⟨_, hm', _⟩ := Option.bind_eq_some_iff.mp hm
      obtain ⟨_, he', _⟩ := Option.bind_eq_some_iff.mp he
      obtain ⟨_, hp', _⟩ := Option.bind_eq_some_iff.mp hp
      rcases hf with rfl | rfl | rfl
      · rw [hp']; rfl
      · rw [hm']; rfl
      · rw [he']; rfl
    have hread : ∀ (file : Name) (i : Nat) (value : Json),
        ((trees (i + 5)).content (top ++ [modelName, version] ++ [file])).bind (parse loads) =
          some value →
        readJsonAt trees loads (top.map Name.text) (.ofName modelName) (.ofName version) file.text i =
          .ok value := by
      intro file i value hvalue
      unfold readJsonAt
      rw [versionDirAt_found hfiles]
      dsimp only
      rw [path_snoc]
      exact loadFile_ok.mpr hvalue
    have hpath : getModelPathAt trees (top.map Name.text) (.ofName modelName) (.ofName version) 12 =
        .ok ((top ++ [modelName, version] ++ [modelFile]).map Name.text) := by
      unfold getModelPathAt
      rw [versionDirAt_found hfiles]
      dsimp only
      rw [show "model.joblib" = modelFile.text from rfl, path_snoc, isFile_names]
      exact if_pos (hfiles _ modelFile (by decide))
    unfold loadModel
    rw [show "metadata.json" = metadataFile.text from rfl,
      show "evaluation.json" = evaluationFile.text from rfl,
      hread metadataFile 0 _ ((hmetadata _).symm ▸ hm), hread evaluationFile 6 _ ((hevaluation _).symm ▸ he),
      hpath]
    show (joblibLoad trees unpickle _ 18 >>= fun pipeline => pure _) = _
    rw [joblibLoad_ok.mpr ((hmodel 18).symm ▸ hp)]
    rfl

end Reads

/-! ## 4. What a publication leaves behind, cut off anywhere -/

section Publication

variable {root : Node ByteArray} {dir there : List Name} {a : Artifact} {w : Write ByteArray}
  {content : ByteArray} {k : Nat}

theorem fileWrites_puts (h : w ∈ fileWrites there content) :
    ∃ n ≤ content.size, w.puts = some (there, content.extract 0 n) := by
  obtain ⟨n, hn, rfl⟩ := List.mem_map.mp h
  exact ⟨n, Nat.lt_succ_iff.mp (List.mem_range.mp hn), rfl⟩

/-- The last of a file's writes puts all of it. -/
theorem fileWrites_last (there : List Name) (content : ByteArray) :
    ∃ before, fileWrites there content = before ++ [.putFile there content] := by
  refine ⟨(List.range content.size).map fun n => .putFile there (content.extract 0 n), ?_⟩
  unfold fileWrites
  rw [List.range_succ, List.map_append, List.map_singleton, ByteArray.extract_zero_size]

/-- The files a publication writes. -/
theorem writeArtifact_puts (h : w ∈ writeArtifact dir a) {path : List Name}
    (hw : w.puts = some (path, content)) : ∃ f ∈ [modelFile, metadataFile, evaluationFile],
      path = dir ++ [f] := by
  unfold writeArtifact openingWrites at h
  simp only [List.mem_append, List.mem_map] at h
  rcases h with ((⟨_, _, rfl⟩ | h) | h) | h
  · cases hw
  all_goals
    obtain ⟨n, _, hputs⟩ := fileWrites_puts h
    rw [hw] at hputs
    cases hputs
  · exact ⟨modelFile, by decide, rfl⟩
  · exact ⟨metadataFile, by decide, rfl⟩
  · exact ⟨evaluationFile, by decide, rfl⟩

theorem writeArtifact_proper (dir : List Name) (a : Artifact) : Proper (writeArtifact dir a) := by
  intro w h
  unfold writeArtifact openingWrites fileWrites at h
  simp only [List.mem_append, List.mem_map] at h
  rcases h with ((⟨names, hnames, rfl⟩ | ⟨_, _, rfl⟩) | ⟨_, _, rfl⟩) | ⟨_, _, rfl⟩
  · -- the directories are those above the files, the root left out
    rintro (rfl : names = [])
    cases dir with
    | nil => cases hnames
    | cons name dir =>
        rw [List.inits_cons, List.tail_cons] at hnames
        obtain ⟨_, _, hcons⟩ := List.mem_map.mp hnames
        cases hcons
  all_goals exact fun h => List.append_ne_nil_of_right_ne_nil _ (List.cons_ne_nil _ _) h

theorem proper_take (k : Nat) : Proper ((writeArtifact dir a).take k) :=
  fun w hw => writeArtifact_proper dir a w (List.mem_of_mem_take hw)

/-- The opening steps leave evaluation.json alone. -/
theorem opening_apart (h : w ∈ openingWrites dir a) :
    w.puts ≠ some (dir ++ [evaluationFile], content) := by
  intro hw
  unfold openingWrites at h
  simp only [List.mem_append, List.mem_map] at h
  rcases h with (⟨_, _, rfl⟩ | h) | h
  · cases hw
  all_goals
    obtain ⟨n, _, hputs⟩ := fileWrites_puts h
    rw [hw, Option.some.injEq, Prod.mk.injEq, List.append_right_inj] at hputs
    exact absurd hputs.1 (by decide)

theorem fileWrites_apart {there' : List Name} (hne : there ≠ there') (h : w ∈ fileWrites there content)
    (content' : ByteArray) : w.puts ≠ some (there', content') := by
  intro hw
  obtain ⟨n, _, hputs⟩ := fileWrites_puts h
  rw [hw] at hputs
  exact hne (Prod.mk.inj (Option.some.inj hputs)).1.symm

/-- **Where evaluation.json is there, the opening steps are done.** -/
theorem marker_opened (hnew : root.content (dir ++ [evaluationFile]) = none)
    (h : ((published root dir a k).content (dir ++ [evaluationFile])).isSome) :
    (openingWrites dir a).length ≤ k ∧ ∃ base, executed root (openingWrites dir a) = some base := by
  obtain ⟨content, hcontent⟩ := Option.isSome_iff_exists.mp h
  rcases last_write (proper_take k) hcontent with hthere | ⟨before, w, after, root', htake, hputs, hexec⟩
  · rw [hnew] at hthere
    cases hthere
  · have hprefix : before ++ [w] <+: writeArtifact dir a :=
      List.IsPrefix.trans ⟨after, by rw [htake, List.append_assoc, List.singleton_append]⟩
        (List.take_prefix k _)
    -- that write is not among the opening ones, so they all come before it
    have hopening : openingWrites dir a <+: before := by
      rcases List.prefix_or_prefix_of_prefix (List.prefix_append _ _ :
        openingWrites dir a <+: writeArtifact dir a) hprefix with hle | hle
      · rcases List.prefix_concat_iff.mp (by simpa [List.concat_eq_append] using hle) with heq | hle
        · have hw : w ∈ openingWrites dir a := by rw [heq]; simp
          exact absurd hputs (opening_apart hw)
        · exact hle
      · exact absurd hputs (opening_apart (hle.subset (List.mem_append_right _ List.mem_cons_self)))
    obtain ⟨rest, rfl⟩ := hopening
    rw [List.append_assoc, executed_append] at hexec
    obtain ⟨base, hbase, _⟩ := Option.bind_eq_some_iff.mp hexec
    have hlength : ((writeArtifact dir a).take k).length ≤ k := by
      rw [List.length_take]
      exact Nat.min_le_left _ _
    rw [htake, List.append_assoc, List.length_append] at hlength
    exact ⟨Nat.le_of_add_right_le hlength, base, hbase⟩

/-- **From then on, the other files are complete**, and evaluation.json is some beginning of it. -/
theorem marked_later (hnew : root.content (dir ++ [evaluationFile]) = none)
    (h : ((published root dir a k).content (dir ++ [evaluationFile])).isSome) {k' : Nat} (hk : k ≤ k') :
    (published root dir a k').content (dir ++ [modelFile]) = some a.model ∧
      (published root dir a k').content (dir ++ [metadataFile]) = some a.metadata ∧
      ∀ content, (published root dir a k').content (dir ++ [evaluationFile]) = some content →
        ∃ n ≤ a.evaluation.size, content = a.evaluation.extract 0 n := by
  obtain ⟨hlength, base, hbase⟩ := marker_opened hnew h
  let ending := (fileWrites (dir ++ [evaluationFile]) a.evaluation).take
    (k' - (openingWrites dir a).length)
  have hsplit : (writeArtifact dir a).take k' = openingWrites dir a ++ ending := by
    unfold writeArtifact
    rw [List.take_append, List.take_of_length_le (hlength.trans hk)]
  have hnow : published root dir a k' = performed base ending := by
    unfold published
    rw [hsplit]
    exact performed_append hbase
  have hproper : Proper (openingWrites dir a ++ ending) := by
    rw [← hsplit]
    exact proper_take k'
  have hopening : Proper (openingWrites dir a) := fun w hw => hproper w (List.mem_append_left _ hw)
  have hending : Proper ending := fun w hw => hproper w (List.mem_append_right _ hw)
  have hin : ∀ w ∈ ending, w ∈ fileWrites (dir ++ [evaluationFile]) a.evaluation :=
    fun w hw => List.mem_of_mem_take hw
  have happart : ∀ {f : Name}, evaluationFile ≠ f → (performed base ending).content (dir ++ [f]) =
      base.content (dir ++ [f]) := fun hf => performed_apart hending fun w hw content =>
        fileWrites_apart (by simpa using hf) (hin w hw) content
  rw [hnow]
  obtain ⟨beforeModel, hmodel⟩ := fileWrites_last (dir ++ [modelFile]) a.model
  obtain ⟨beforeMetadata, hmetadata⟩ := fileWrites_last (dir ++ [metadataFile]) a.metadata
  refine ⟨?_, ?_, ?_⟩
  · rw [happart (by decide)]
    have heq : openingWrites dir a = (dir.inits.tail.map .makeDir ++ beforeModel) ++
        .putFile (dir ++ [modelFile]) a.model :: fileWrites (dir ++ [metadataFile]) a.metadata := by
      unfold openingWrites
      rw [hmodel]
      simp
    rw [heq] at hbase hopening
    exact written_stays hopening hbase rfl fun w hw content =>
      fileWrites_apart (by simpa using (by decide : metadataFile ≠ modelFile)) hw content
  · rw [happart (by decide)]
    have heq : openingWrites dir a = (dir.inits.tail.map .makeDir ++
        fileWrites (dir ++ [modelFile]) a.model ++ beforeMetadata) ++
        .putFile (dir ++ [metadataFile]) a.metadata :: [] := by
      unfold openingWrites
      rw [hmetadata]
      simp
    rw [heq] at hbase hopening
    exact written_stays hopening hbase rfl fun w hw => absurd hw List.not_mem_nil
  · intro content hcontent
    rcases last_write hending hcontent with hthere | ⟨before, w, after, _, heq, hputs, _⟩
    · rw [← performed_of_executed hbase, performed_apart hopening fun w hw content =>
        opening_apart hw, hnew] at hthere
      cases hthere
    · obtain ⟨n, hn, hputs'⟩ := fileWrites_puts (hin w (by rw [heq]; simp))
      rw [hputs] at hputs'
      cases hputs'
      exact ⟨n, hn, rfl⟩

/-- A publication that has come to its end. -/
theorem published_done {done : Node ByteArray} (h : executed root (writeArtifact dir a) = some done) :
    done.content (dir ++ [evaluationFile]) = some a.evaluation ∧
      ∀ k, (writeArtifact dir a).length ≤ k → published root dir a k = done := by
  constructor
  · obtain ⟨before, hbefore⟩ := fileWrites_last (dir ++ [evaluationFile]) a.evaluation
    have heq : writeArtifact dir a = (openingWrites dir a ++ before) ++
        .putFile (dir ++ [evaluationFile]) a.evaluation :: [] := by
      unfold writeArtifact
      rw [hbefore, List.append_assoc]
    have hproper := writeArtifact_proper dir a
    rw [heq] at h hproper
    exact written_stays hproper h rfl fun w hw => absurd hw List.not_mem_nil
  · intro k hk
    unfold published
    rw [List.take_of_length_le hk]
    exact performed_of_executed h

end Publication

/-! ## 5. Loads during a publication -/

/-- What a load of the files gives. -/
def Artifact.Gives {π : Type} (a : Artifact) (loads : String → Except (Option String) Json)
    (unpickle : ByteArray → Option π) (loaded : LoadedModel π) : Prop :=
  parse loads a.metadata = some loaded.metadata ∧ parse loads a.evaluation = some loaded.evaluation ∧
    unpickle a.model = some loaded.pipeline

/-- **A version is loaded as it is published, or not at all.** Whenever the looks of a load fall, while
    a version is published for the first time, the load fails or gives exactly what is published; behind
    the end of the publication it gives that; and every other version loads as if there were no
    publication. It takes that no beginning of evaluation.json is a document of its own. -/
theorem load_published {π : Type} (loads : String → Except (Option String) Json)
    (unpickle : ByteArray → Option π) (root : Node ByteArray) (top : List Name)
    (modelName version : Name) (a : Artifact)
    (hnew : root.content (top ++ [modelName, version] ++ [evaluationFile]) = none)
    (hwhole : ∀ n < a.evaluation.size, parse loads (a.evaluation.extract 0 n) = none)
    (looks : Nat → Nat) (hlooks : Monotone looks) :
    let dir := top ++ [modelName, version]
    let load := fun (trees : Nat → Node ByteArray) (modelName version : Name) =>
      loadModel trees loads (top.map Name.text) (.ofName modelName) (.ofName version) unpickle
    let trees := fun i => published root dir a (looks i)
    (∀ loaded, load trees modelName version = .ok loaded → a.Gives loads unpickle loaded) ∧
    (∀ done, executed root (writeArtifact dir a) = some done →
      (writeArtifact dir a).length ≤ looks 0 → ∀ loaded,
        load trees modelName version = .ok loaded ↔ a.Gives loads unpickle loaded) ∧
    ∀ modelName' version' : Name, (modelName', version') ≠ (modelName, version) → ∀ loaded,
      load trees modelName' version' = .ok loaded ↔
        load (fun _ => root) modelName' version' = .ok loaded := by
  intro dir load trees
  refine ⟨?_, ?_, ?_⟩
  · intro loaded h
    obtain ⟨hmarker, hmetadata, hevaluation, hmodel⟩ := loadModel_ok h
    have hlater : ∀ i, 4 ≤ i → _ := fun i hi => marked_later hnew hmarker (hlooks hi)
    rw [show (trees 5).content (dir ++ [metadataFile]) = _ from (hlater 5 (by decide)).2.1] at hmetadata
    rw [show (trees 18).content (dir ++ [modelFile]) = _ from (hlater 18 (by decide)).1] at hmodel
    obtain ⟨content, hcontent, hparse⟩ := Option.bind_eq_some_iff.mp hevaluation
    obtain ⟨n, hn, rfl⟩ := (hlater 11 (by decide)).2.2 content hcontent
    refine ⟨hmetadata, ?_, hmodel⟩
    rcases Nat.lt_or_eq_of_le hn with hlt | rfl
    · rw [hwhole n hlt] at hparse
      cases hparse
    · rw [ByteArray.extract_zero_size] at hparse
      exact hparse
  · intro done hdone hend loaded
    obtain ⟨hevaluation, hstays⟩ := published_done hdone
    have htrees : ∀ i, trees i = done := fun i => hstays _ (hend.trans (hlooks (Nat.zero_le i)))
    have hmarker : ((trees 0).content (dir ++ [evaluationFile])).isSome := by
      rw [htrees, hevaluation]
      rfl
    obtain ⟨hmodel, hmetadata, _⟩ := marked_later hnew hmarker (Nat.le_refl _)
    have hmodel : done.content (dir ++ [modelFile]) = some a.model := htrees 0 ▸ hmodel
    have hmetadata : done.content (dir ++ [metadataFile]) = some a.metadata := htrees 0 ▸ hmetadata
    have hsteady : ∀ i, ∀ f ∈ [modelFile, metadataFile, evaluationFile],
        (trees i).content (top ++ [modelName, version] ++ [f]) =
          done.content (top ++ [modelName, version] ++ [f]) := fun i f _ => by rw [htrees]
    refine (loadModel_iff hsteady).trans ?_
    rw [hmetadata, hevaluation, hmodel]
    rfl
  · intro modelName' version' hne loaded
    have hsame : ∀ i, ∀ f ∈ [modelFile, metadataFile, evaluationFile],
        (trees i).content (top ++ [modelName', version'] ++ [f]) =
          root.content (top ++ [modelName', version'] ++ [f]) := by
      intro i f _
      refine performed_apart (proper_take _) fun w hw content hputs => ?_
      obtain ⟨f', _, heq⟩ := writeArtifact_puts (List.mem_of_mem_take hw) hputs
      have hnames : modelName' = modelName ∧ version' = version := by
        simp only [dir, List.append_assoc, List.append_right_inj, List.cons_append, List.nil_append,
          List.cons.injEq] at heq
        exact ⟨heq.1, heq.2.1⟩
      exact hne (Prod.ext hnames.1 hnames.2)
    exact (loadModel_iff hsame).trans (loadModel_iff fun _ _ _ => rfl).symm

def versionName : Name := ⟨"v1", by decide⟩

/-- The content of `{"features": ["amount"]}`. -/
def sampleMetadata : ByteArray :=
  ⟨#[0x7b, 0x22, 0x66, 0x65, 0x61, 0x74, 0x75, 0x72, 0x65, 0x73, 0x22, 0x3a, 0x20, 0x5b, 0x22, 0x61,
    0x6d, 0x6f, 0x75, 0x6e, 0x74, 0x22, 0x5d, 0x7d]⟩

/-- A model of one byte with one feature, and no evaluation. -/
def sampleArtifact : Artifact := ⟨⟨#[1]⟩, sampleMetadata, ⟨#[0x7b, 0x7d]⟩⟩

/-- `json.loads`, as far as the files need it. -/
def sampleLoads (text : String) : Except (Option String) Json :=
  if text = "\x7b\x7d" then .ok (.obj [])
  else if text = "\x7b\"features\": [\"amount\"]\x7d" then
    .ok (.obj [(.ofString "features", .arr [.str (.ofString "amount")])])
  else .error (some "Expecting value: line 1 column 1 (char 0)")

theorem sampleArtifact_whole : ∀ n < sampleArtifact.evaluation.size,
    parse sampleLoads (sampleArtifact.evaluation.extract 0 n) = none := by
  intro n hn
  have hcases : n = 0 ∨ n = 1 := by
    have hn : n < 2 := hn
    omega
  rcases hcases with rfl | rfl <;> rfl

/-- A load behind the last step of the publication. -/
theorem load_published_sample :
    loadModel (fun i => published (.dir []) [artifactsName, fraudModelName, versionName] sampleArtifact
        (33 + i)) sampleLoads ["artifacts"] (.ofName fraudModelName) (.ofName versionName)
        (fun content => some content.size) =
      .ok ⟨1, .obj [(.ofString "features", .arr [.str (.ofString "amount")])], .obj []⟩ := by
  have hdone : ∃ done, executed (.dir []) (writeArtifact [artifactsName, fraudModelName, versionName]
      sampleArtifact) = some done := ⟨_, rfl⟩
  obtain ⟨done, hdone⟩ := hdone
  exact ((load_published sampleLoads (fun content => some content.size) (.dir []) [artifactsName]
    fraudModelName versionName sampleArtifact rfl sampleArtifact_whole (fun i => 33 + i)
    (fun _ _ h => Nat.add_le_add_left h 33)).2.1 done hdone (Nat.le_refl _) _).mpr ⟨rfl, rfl, rfl⟩

end ModelOps

/-
  File:      ModelOps/Lib/FileWrites.lean
  Subject:   PROGRAMS THAT WRITE FILES, cut off anywhere: what a reader finds meanwhile.

  A program is a list of steps, each of which makes a directory or puts content into a file; the first
  that fails ends it. A tree is seen through its files: directories only lead to them.

  * `Node.alter` -- the node at a list of names is replaced; `file_alter`: what that does to the files;
  * **`file_apply`** -- a step changes the file it writes, and no other;
  * `performed` -- the tree a program leaves, whole or cut off;
  * **`last_write`** -- a file found after a program was there before it, or is as the program last
    wrote it;
  * **`written_stays`** -- and what it wrote stays as long as nothing writes there.
-/
import Mathlib.Data.List.Induction
import ModelOps.Lib.FileTree

namespace FileTree

variable {α : Type}

/-! ## 1. Replacing a node -/

/-- The entries with that of the name replaced, or added. -/
def setEntry (entries : List (Name × Node α)) (name : Name) (n : Node α) : List (Name × Node α) :=
  (name, n) :: entries.filter fun e => decide (e.1.text ≠ name.text)

/-- The node at the names is replaced by what `f` makes of it, where all directories above are there. -/
def Node.alter (f : Option (Node α) → Option (Node α)) : Node α → List Name → Option (Node α)
  | n, [] => f (some n)
  | .file _, _ :: _ => none
  | .dir entries, name :: names =>
      let below := (Node.entry entries name.text).map Prod.snd
      let new := if names = [] then f below else below.bind fun n => n.alter f names
      new.map fun n => .dir (setEntry entries name n)

/-- The content of the file at the names. -/
def Node.content (root : Node α) (names : List Name) : Option α :=
  match root.look names with
  | some (.file content) => some content
  | _ => none

section Alter

variable {root root' n n' : Node α} {entries : List (Name × Node α)} {name name' : Name}
  {names names' : List Name} {text : String} {f : Option (Node α) → Option (Node α)} {content : α}

theorem content_eq_some : root.content names = some content ↔ root.look names = some (.file content) := by
  unfold Node.content
  split
  · rename_i content' h
    rw [h, Option.some.injEq, Option.some.injEq, Node.file.injEq]
  · rename_i h
    exact iff_of_false nofun fun h' => h content h'

@[simp] theorem content_file_nil (content : α) : (Node.file content).content [] = some content := rfl

@[simp] theorem content_file_cons (content : α) : (Node.file content).content (name :: names) = none := rfl

@[simp] theorem content_dir_nil : (Node.dir entries).content [] = none := rfl

theorem content_dir_cons : (Node.dir entries).content (name :: names) =
    (Node.entry entries name.text).bind fun e => e.2.content names := by
  unfold Node.content
  rw [look_dir]
  cases Node.entry entries name.text <;> rfl

theorem entry_set_self : Node.entry (setEntry entries name n) name.text = some (name, n) := by
  unfold Node.entry setEntry
  exact List.find?_cons_of_pos (decide_eq_true rfl)

theorem entry_set_ne (h : name.text ≠ text) :
    Node.entry (setEntry entries name n) text = Node.entry entries text := by
  unfold Node.entry setEntry
  rw [List.find?_cons_of_neg (by simpa using h), List.find?_filter]
  congr 1
  funext e
  by_cases he : e.1.text = text
  · simp [he, Ne.symm h]
  · simp [he]

theorem alter_cons (h : (Node.dir entries).alter f (name :: names) = some root') :
    ∃ n, root' = .dir (setEntry entries name n) ∧
      ((names = [] ∧ f ((Node.entry entries name.text).map Prod.snd) = some n) ∨
        (names ≠ [] ∧ ∃ e, Node.entry entries name.text = some e ∧ e.2.alter f names = some n)) := by
  unfold Node.alter at h
  obtain ⟨n, hn, rfl⟩ := Option.map_eq_some_iff.mp h
  refine ⟨n, rfl, ?_⟩
  split at hn
  · rename_i hnil
    exact Or.inl ⟨hnil, hn⟩
  · rename_i hne
    obtain ⟨below, hbelow, hn⟩ := Option.bind_eq_some_iff.mp hn
    obtain ⟨e, he, rfl⟩ := Option.map_eq_some_iff.mp hbelow
    exact Or.inr ⟨hne, e, he, hn⟩

/-- **What replacing a node does to the files**: those at and below it are the new node's, all others
    are as they were. -/
theorem content_alter (hne : names ≠ []) (h : root.alter f names = some root') :
    ∃ old new, f old = some new ∧
      (∀ names', root.content (names ++ names') = old.bind fun n => n.content names') ∧
      (∀ names', root'.content (names ++ names') = new.content names') ∧
      ∀ there, ¬ names <+: there → root'.content there = root.content there := by
  induction names generalizing root root' with
  | nil => exact absurd rfl hne
  | cons name names ih =>
      cases root with
      | file content => cases h
      | dir entries =>
          obtain ⟨n, rfl, hcase⟩ := alter_cons h
          have hapart : ∀ there, (∀ rest, there = name :: rest → n.content rest =
              (Node.entry entries name.text).bind fun e => e.2.content rest) →
              (Node.dir (setEntry entries name n)).content there = (Node.dir entries).content there := by
            intro there hsame
            cases there with
            | nil => rfl
            | cons name' rest =>
                rw [content_dir_cons, content_dir_cons]
                by_cases hname : name.text = name'.text
                · obtain rfl := Name.ext_text hname
                  rw [entry_set_self]
                  exact hsame rest rfl
                · rw [entry_set_ne hname]
          have hself : ∀ rest, (Node.dir (setEntry entries name n)).content (name :: rest) =
              n.content rest := by
            intro rest
            rw [content_dir_cons, entry_set_self]
            rfl
          rcases hcase with ⟨rfl, hn⟩ | ⟨hnames, e, he, hn⟩
          · refine ⟨_, n, hn, fun rest => ?_, hself, fun there hthere => hapart there ?_⟩
            · rw [List.singleton_append, content_dir_cons, Option.bind_map]
              rfl
            · rintro rest rfl
              exact absurd ((List.prefix_cons_inj name).mpr List.nil_prefix) hthere
          · obtain ⟨old, new, hnew, hold, hin, hout⟩ := ih hnames hn
            refine ⟨old, new, hnew, fun rest => ?_, fun rest => ?_, fun there hthere => hapart there ?_⟩
            · rw [List.cons_append, content_dir_cons, he]
              exact hold rest
            · rw [List.cons_append, hself]
              exact hin rest
            · rintro rest rfl
              rw [he]
              exact hout rest fun hpre => hthere ((List.prefix_cons_inj name).mpr hpre)

end Alter

/-! ## 2. Paths without "." and ".." -/

section Plain

variable {root n : Node α} {names there : List Name} {name : Name} {content : α}

theorem resolve_names (h : root.look names = some n) :
    resolve root (names.map Name.text) = some names := by
  induction names using List.reverseRecOn generalizing n with
  | nil => rfl
  | append_singleton names name ih =>
      obtain ⟨entries, hlook, hentry⟩ := look_snoc h
      rw [List.map_append]
      exact resolve_entry (e := (name, n)) (ih hlook) hlook hentry

/-- **Such a path leads to its names**, where there is something. -/
theorem resolve_names_some (h : resolve root (names.map Name.text) = some there) :
    there = names ∧ ∃ n, root.look names = some n := by
  induction names using List.reverseRecOn generalizing there with
  | nil =>
      cases h
      exact ⟨rfl, root, rfl⟩
  | append_singleton names name ih =>
      rw [List.map_append] at h
      obtain ⟨here, hhere, hstep⟩ := resolve_snoc_some h
      obtain ⟨rfl, _, _⟩ := ih hhere
      obtain ⟨entries, hlook, hcase⟩ := step_some hstep
      rcases hcase with ⟨hdot, _⟩ | ⟨hdots, _⟩ | ⟨_, _, e, hentry, rfl⟩
      · exact absurd hdot name.ne_dot
      · exact absurd hdots name.ne_dots
      · have hname : e.1 = name := Name.ext_text (entry_text hentry)
        refine ⟨by rw [hname], e.2, ?_⟩
        rw [look_append, hlook, Option.bind_some, look_dir, hentry]
        rfl

theorem isFile_names : isFile root (names.map Name.text) = (root.content names).isSome := by
  unfold isFile Node.content
  cases hlook : root.look names with
  | none =>
      cases hresolve : resolve root (names.map Name.text) with
      | none => rfl
      | some there =>
          obtain ⟨_, n, hn⟩ := resolve_names_some hresolve
          rw [hlook] at hn
          cases hn
  | some n =>
      rw [resolve_names hlook, Option.bind_some, hlook]
      cases n <;> rfl

/-- A directory with a file below it is there. -/
theorem isDir_names (h : root.content (names ++ name :: there) = some content) :
    isDir root (names.map Name.text) = true := by
  have hlook := content_eq_some.mp h
  rw [look_append] at hlook
  obtain ⟨n, hn, hbelow⟩ := Option.bind_eq_some_iff.mp hlook
  cases n with
  | file _ => cases hbelow
  | dir entries => exact isDir_intro (resolve_names hn) hn

end Plain

/-! ## 3. Steps -/

/-- One step of a program. -/
inductive Write (α : Type) where
  /-- `mkdir(exist_ok=True)` -/
  | makeDir (there : List Name)
  /-- the file holds this content now; it is made where it is missing -/
  | putFile (there : List Name) (content : α)

namespace Write

/-- The tree after a step, unless the step fails. -/
def apply (root : Node α) : Write α → Option (Node α)
  | .makeDir there => root.alter (fun
      | none => some (.dir [])
      | some (.dir entries) => some (.dir entries)
      | some (.file _) => none) there
  | .putFile there content => root.alter (fun
      | some (.dir _) => none
      | none | some (.file _) => some (.file content)) there

/-- Where a step puts content. -/
def puts : Write α → Option (List Name × α)
  | .makeDir _ => none
  | .putFile there content => some (there, content)

/-- What a step is about. -/
def path : Write α → List Name
  | .makeDir there => there
  | .putFile there _ => there

end Write

section Steps

variable {root root' : Node α} {w : Write α} {there : List Name} {content : α}

/-- **A step changes the file it writes, and no other.** -/
theorem file_apply (hne : w.path ≠ []) (h : w.apply root = some root') (there : List Name) :
    root'.content there =
      match w.puts with
      | some (path, content) => if there = path then some content else root.content there
      | none => root.content there := by
  cases w with
  | makeDir path =>
      have hpath : path ≠ [] := hne
      obtain ⟨old, new, hnew, hold, hin, hout⟩ := content_alter hpath h
      show root'.content there = root.content there
      by_cases hpre : path <+: there
      · obtain ⟨rest, rfl⟩ := hpre
        rw [hin, hold]
        rcases old with _ | _ | _
        · cases hnew
          cases rest <;> rfl
        · cases hnew
        · cases hnew
          rfl
      · exact hout there hpre
  | putFile path content =>
      have hpath : path ≠ [] := hne
      obtain ⟨old, new, hnew, hold, hin, hout⟩ := content_alter hpath h
      show root'.content there = if there = path then some content else root.content there
      by_cases hpre : path <+: there
      · obtain ⟨rest, rfl⟩ := hpre
        rw [hin, hold]
        have hfile : new = .file content ∧
            ∀ name rest, (old.bind fun n => n.content (name :: rest)) = none := by
          rcases old with _ | _ | _
          · exact ⟨(Option.some.inj hnew).symm, fun _ _ => rfl⟩
          · exact ⟨(Option.some.inj hnew).symm, fun _ _ => rfl⟩
          · cases hnew
        rw [hfile.1]
        cases rest with
        | nil => simp
        | cons name rest => simp [hfile.2]
      · rw [if_neg fun heq : there = path => hpre (heq ▸ List.prefix_refl path)]
        exact hout there hpre

theorem content_puts (hne : w.path ≠ []) (h : w.apply root = some root')
    (hw : w.puts = some (there, content)) : root'.content there = some content := by
  rw [file_apply hne h, hw]
  exact if_pos rfl

theorem content_apart (hne : w.path ≠ []) (h : w.apply root = some root')
    (hw : ∀ content, w.puts ≠ some (there, content)) : root'.content there = root.content there := by
  rw [file_apply hne h]
  split
  · rename_i path content heq
    by_cases hsame : there = path
    · rw [← hsame] at heq
      exact absurd heq (hw content)
    · exact if_neg hsame
  · rfl

end Steps

/-! ## 4. Programs -/

/-- The tree after the whole program, unless it fails. -/
def executed (root : Node α) (ws : List (Write α)) : Option (Node α) := ws.foldlM Write.apply root

/-- The tree a program leaves: it ends with the first step that fails. -/
def performed (root : Node α) : List (Write α) → Node α
  | [] => root
  | w :: ws =>
      match w.apply root with
      | some root' => performed root' ws
      | none => root

/-- The steps are about paths below the root. -/
def Proper (ws : List (Write α)) : Prop := ∀ w ∈ ws, w.path ≠ []

section Programs

variable {root root' : Node α} {w : Write α} {ws ws' : List (Write α)} {there : List Name} {content : α}

theorem executed_append :
    executed root (ws ++ ws') = (executed root ws).bind fun root' => executed root' ws' :=
  List.foldlM_append

theorem performed_of_executed (h : executed root ws = some root') : performed root ws = root' := by
  induction ws generalizing root with
  | nil => exact Option.some.inj h
  | cons w ws ih =>
      obtain ⟨next, hnext, hrest⟩ := Option.bind_eq_some_iff.mp (by simpa [executed] using h)
      unfold performed
      rw [hnext]
      exact ih hrest

theorem performed_append (h : executed root ws = some root') :
    performed root (ws ++ ws') = performed root' ws' := by
  induction ws generalizing root with
  | nil =>
      cases h
      rfl
  | cons w ws ih =>
      obtain ⟨next, hnext, hrest⟩ := Option.bind_eq_some_iff.mp (by simpa [executed] using h)
      have hstep : performed root (w :: (ws ++ ws')) = performed next (ws ++ ws') := by
        rw [performed, hnext]
      exact hstep.trans (ih hrest)

/-- **A file that is found was there, or was written**, and the program came as far as that. -/
theorem last_write (hp : Proper ws) (h : (performed root ws).content there = some content) :
    root.content there = some content ∨
      ∃ before w after root', ws = before ++ w :: after ∧ w.puts = some (there, content) ∧
        executed root (before ++ [w]) = some root' := by
  induction ws generalizing root with
  | nil => exact Or.inl h
  | cons w ws ih =>
      unfold performed at h
      cases hnext : w.apply root with
      | none =>
          rw [hnext] at h
          exact Or.inl h
      | some next =>
          rw [hnext] at h
          have hw : w.path ≠ [] := hp w List.mem_cons_self
          rcases ih (fun w' hw' => hp w' (List.mem_cons_of_mem w hw')) h with
            hthere | ⟨before, w', after, root', rfl, hputs, hexec⟩
          · by_cases hputs : w.puts = some (there, content)
            · refine Or.inr ⟨[], w, ws, next, rfl, hputs, ?_⟩
              simp [executed, hnext]
            · refine Or.inl ?_
              rw [file_apply hw hnext] at hthere
              split at hthere
              · rename_i path content' heq
                split at hthere
                · rename_i hsame
                  rw [heq, hsame, ← Option.some.inj hthere] at hputs
                  exact absurd rfl hputs
                · exact hthere
              · exact hthere
          · refine Or.inr ⟨w :: before, w', after, root', rfl, hputs, ?_⟩
            simpa [executed, hnext] using hexec

/-- **Where a program writes nothing, every file stays.** -/
theorem performed_apart (hp : Proper ws) (h : ∀ w ∈ ws, ∀ content, w.puts ≠ some (there, content)) :
    (performed root ws).content there = root.content there := by
  induction ws generalizing root with
  | nil => rfl
  | cons w ws ih =>
      unfold performed
      cases hnext : w.apply root with
      | none => rfl
      | some next =>
          refine (ih (fun w' hw' => hp w' (List.mem_cons_of_mem w hw'))
            fun w' hw' => h w' (List.mem_cons_of_mem w hw')).trans ?_
          exact content_apart (hp w List.mem_cons_self) hnext (h w List.mem_cons_self)

/-- **What a program wrote last is found.** -/
theorem written_stays {before after : List (Write α)} (hp : Proper (before ++ w :: after))
    (hexec : executed root (before ++ w :: after) = some root') (hw : w.puts = some (there, content))
    (h : ∀ w' ∈ after, ∀ content, w'.puts ≠ some (there, content)) :
    root'.content there = some content := by
  obtain ⟨here, hbefore, hrest⟩ := Option.bind_eq_some_iff.mp (by simpa [executed] using hexec)
  obtain ⟨next, hnext, hafter⟩ := Option.bind_eq_some_iff.mp hrest
  have hput := content_puts (hp w (List.mem_append_right _ List.mem_cons_self)) hnext hw
  have hafter : executed next after = some root' := hafter
  rw [← performed_of_executed hafter, performed_apart (fun w' hw' =>
    hp w' (List.mem_append_right _ (List.mem_cons_of_mem w hw'))) h]
  exact hput

end Programs

end FileTree

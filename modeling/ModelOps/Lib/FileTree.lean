/-
  File:      ModelOps/Lib/FileTree.lean
  Subject:   FILE TREES WITHOUT LINKS, and what a path with "." and ".." in it leads to.

  * `Node` -- files and directories; the names of a directory's entries are plain (`Name`);
  * `Node.look` -- the node at a list of names; `look_snoc`: its directory holds it;
  * `resolve` -- a path walked from the root, one component after the other, to the names it leads to;
  * **`step_some`** -- what one component does, and what it needs;
  * `Below` -- strictly inside a directory; `below_snoc` for the entries of one.
-/
import Mathlib.Tactic.Common

namespace FileTree

/-! ## 1. Trees -/

/-- May be the name of a directory's entry. -/
def isPlain (text : String) : Bool :=
  decide (text ≠ "") && decide (text ≠ ".") && decide (text ≠ "..") && !text.toList.contains '/'

structure Name where
  text : String
  plain : isPlain text = true
  deriving DecidableEq

inductive Node (α : Type) where
  | file (content : α)
  | dir (entries : List (Name × Node α))

namespace Node

variable {α : Type}

def isDir : Node α → Bool
  | .file _ => false
  | .dir _ => true

def isFile : Node α → Bool
  | .file _ => true
  | .dir _ => false

/-- The entry of a name. -/
def entry (entries : List (Name × Node α)) (text : String) : Option (Name × Node α) :=
  entries.find? fun e => decide (e.1.text = text)

/-- The node at a list of names. -/
def look : Node α → List Name → Option (Node α)
  | n, [] => some n
  | .file _, _ :: _ => none
  | .dir entries, name :: names => (entry entries name.text).bind fun e => look e.2 names

end Node

theorem Name.ext_text {a b : Name} (h : a.text = b.text) : a = b := by
  cases a
  cases b
  cases h
  rfl

theorem Name.ne_dot (a : Name) : a.text ≠ "." := by
  have h := a.plain
  simp only [isPlain, Bool.and_eq_true, decide_eq_true_eq] at h
  exact h.1.1.2

theorem Name.ne_dots (a : Name) : a.text ≠ ".." := by
  have h := a.plain
  simp only [isPlain, Bool.and_eq_true, decide_eq_true_eq] at h
  exact h.1.2

section Look

variable {α : Type} {root n : Node α} {entries : List (Name × Node α)} {names names' : List Name}
  {name : Name} {e : Name × Node α} {text : String}

theorem entry_text (h : Node.entry entries text = some e) : e.1.text = text := by
  simpa using List.find?_some h

theorem entry_mem (h : Node.entry entries text = some e) : e ∈ entries := List.mem_of_find?_eq_some h

theorem look_dir : (Node.dir entries).look (name :: names) =
    (Node.entry entries name.text).bind fun e => e.2.look names := rfl

theorem look_append :
    root.look (names ++ names') = (root.look names).bind fun n => n.look names' := by
  induction names generalizing root with
  | nil => rfl
  | cons name names ih =>
      cases root with
      | file content => rfl
      | dir entries =>
          rw [List.cons_append, look_dir, look_dir]
          cases Node.entry entries name.text with
          | none => rfl
          | some e => exact ih

/-- **A node's directory holds it.** -/
theorem look_snoc (h : root.look (names ++ [name]) = some n) :
    ∃ entries, root.look names = some (.dir entries) ∧
      Node.entry entries name.text = some (name, n) := by
  rw [look_append] at h
  cases hlook : root.look names with
  | none =>
      rw [hlook] at h
      cases h
  | some parent =>
      rw [hlook] at h
      cases parent with
      | file content => cases h
      | dir entries =>
          refine ⟨entries, rfl, ?_⟩
          have h : (Node.entry entries name.text).bind (fun e => e.2.look []) = some n := h
          cases hentry : Node.entry entries name.text with
          | none =>
              rw [hentry] at h
              cases h
          | some e =>
              rw [hentry] at h
              cases h
              exact congrArg some (Prod.ext (Name.ext_text (entry_text hentry)) rfl)

end Look

/-! ## 2. Paths -/

section Paths

variable {α : Type} (root : Node α)

/-- One component, from a directory. -/
def step (here : List Name) (component : String) : Option (List Name) :=
  match root.look here with
  | some (.dir entries) =>
      if component = "." then some here
      else if component = ".." then some here.dropLast
      else (Node.entry entries component).map fun e => here ++ [e.1]
  | _ => none

/-- The names a path from the root leads to. -/
def resolve (path : List String) : Option (List Name) := path.foldlM (step root) []

def isDir (path : List String) : Bool :=
  ((resolve root path).bind fun names => root.look names).any Node.isDir

def isFile (path : List String) : Bool :=
  ((resolve root path).bind fun names => root.look names).any Node.isFile

variable {root} {here there : List Name} {path : List String} {component : String}
  {entries : List (Name × Node α)}

/-- **What one component does**: it needs a directory, and stays, goes back, or enters an entry. -/
theorem step_some (h : step root here component = some there) :
    ∃ entries, root.look here = some (.dir entries) ∧
      (component = "." ∧ there = here ∨ component = ".." ∧ there = here.dropLast ∨
        component ≠ "." ∧ component ≠ ".." ∧ ∃ e, Node.entry entries component = some e ∧
          there = here ++ [e.1]) := by
  unfold step at h
  split at h
  · rename_i entries hlook
    refine ⟨entries, hlook, ?_⟩
    split at h
    · rename_i hdot
      injection h with h
      exact Or.inl ⟨hdot, h.symm⟩
    · rename_i hdot
      split at h
      · rename_i hdots
        injection h with h
        exact Or.inr (Or.inl ⟨hdots, h.symm⟩)
      · rename_i hdots
        obtain ⟨e, hentry, he⟩ := Option.map_eq_some_iff.mp h
        exact Or.inr (Or.inr ⟨hdot, hdots, e, hentry, he.symm⟩)
  · cases h

theorem resolve_snoc :
    resolve root (path ++ [component]) =
      (resolve root path).bind fun here => step root here component := by
  unfold resolve
  rw [List.foldlM_append]
  cases path.foldlM (step root) [] with
  | none => rfl
  | some here => simp

theorem resolve_snoc_some (h : resolve root (path ++ [component]) = some there) :
    ∃ here, resolve root path = some here ∧ step root here component = some there := by
  rw [resolve_snoc] at h
  exact Option.bind_eq_some_iff.mp h

/-- An entry is entered by its name. -/
theorem resolve_entry {e : Name × Node α} (h : resolve root path = some here)
    (hlook : root.look here = some (.dir entries))
    (hentry : Node.entry entries e.1.text = some e) :
    resolve root (path ++ [e.1.text]) = some (here ++ [e.1]) := by
  rw [resolve_snoc, h]
  show step root here e.1.text = _
  unfold step
  rw [hlook]
  simp only
  rw [if_neg e.1.ne_dot, if_neg e.1.ne_dots, hentry]
  rfl

theorem isDir_some (h : isDir root path = true) :
    ∃ here entries, resolve root path = some here ∧ root.look here = some (.dir entries) := by
  unfold isDir at h
  cases hresolve : resolve root path with
  | none =>
      rw [hresolve] at h
      cases h
  | some here =>
      rw [hresolve] at h
      cases hlook : root.look here with
      | none =>
          rw [Option.bind_some, hlook] at h
          cases h
      | some n =>
          rw [Option.bind_some, hlook] at h
          cases n with
          | file content => cases h
          | dir entries => exact ⟨here, entries, rfl, hlook⟩

theorem isDir_intro (h : resolve root path = some here) (hlook : root.look here = some (.dir entries)) :
    isDir root path = true := by
  unfold isDir
  rw [h, Option.bind_some, hlook]
  rfl

end Paths

/-! ## 3. Inside a directory -/

/-- Strictly inside a directory. -/
def Below (top names : List Name) : Prop := top <+: names ∧ names ≠ top

section Inside

variable {top names : List Name} {name : Name}

theorem not_below_self : ¬ Below top top := fun h => h.2 rfl

/-- What lies strictly inside is an entry of the directory or of one inside it. -/
theorem below_snoc : Below top (names ++ [name]) ↔ top <+: names := by
  unfold Below
  rw [List.prefix_concat_iff]
  constructor
  · intro h
    cases h.1 with
    | inl heq => exact absurd heq.symm h.2
    | inr hprefix => exact hprefix
  · intro h
    refine ⟨Or.inr h, fun heq => ?_⟩
    have hlength := h.length_le
    rw [← heq, List.length_append, List.length_singleton] at hlength
    omega

theorem prefix_dropLast : top <+: top.dropLast ↔ top = [] := by
  constructor
  · intro h
    have hlength := h.length_le
    rw [List.length_dropLast] at hlength
    exact List.length_eq_zero_iff.mp (by omega)
  · intro h
    rw [h]
    exact List.prefix_refl _

theorem prefix_dropLast_dropLast : top <+: top.dropLast.dropLast ↔ top = [] :=
  ⟨fun h => prefix_dropLast.mp (h.trans (List.dropLast_prefix _)), fun h => by
    rw [h]
    exact List.prefix_refl _⟩

/-- Back and into an entry: only where the directory itself is entered again. -/
theorem prefix_sibling : top <+: top.dropLast ++ [name] ↔ top = [] ∨ top.getLast? = some name := by
  rw [List.prefix_concat_iff, prefix_dropLast]
  cases List.eq_nil_or_concat top with
  | inl h => simp [h]
  | inr h =>
      obtain ⟨init, last, rfl⟩ := h
      rw [List.concat_eq_append, List.dropLast_concat, List.getLast?_concat, or_comm]
      simp

end Inside

end FileTree

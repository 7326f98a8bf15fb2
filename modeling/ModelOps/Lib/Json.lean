/-
  File:      ModelOps/Lib/Json.lean
  Subject:   JSON VALUES AS PYTHON HOLDS THEM, and which of them can be written back as UTF-8 JSON.

  `json.loads` admits more than `json.dumps(.., allow_nan=False).encode()` does: the literals NaN and
  Infinity, and escaped lone surrogates. A string is therefore its list of code points, and a float
  may be none of the finite ones.

  * `Text.decode` -- the Lean string of a text, where it has one;
  * `Json.truthy`, `Json.equalsStr`, `Json.equalsInt` -- `bool(value)`, and `==` with a str or an int;
  * `Json.renders` -- the value can be written; `renders_obj` unfolds it at an object;
  * `setDefault` -- `dict.setdefault`; `renders_setDefault`: adding a member that can be written
    changes nothing.
-/
import Mathlib.Data.Rat.Defs
import Mathlib.Tactic.Common

namespace Python

/-- A `str`: its code points, lone surrogates included. -/
abbrev Text := List Nat

def surrogate (c : Nat) : Bool := decide (0xD800 ≤ c) && decide (c ≤ 0xDFFF)

/-- `.encode("utf-8")` goes through. -/
def Text.encodable (t : Text) : Bool := t.all fun c => !surrogate c

def Text.ofString (s : String) : Text := s.toList.map Char.toNat

theorem encodable_ofString (s : String) : (Text.ofString s).encodable = true := by
  unfold Text.ofString Text.encodable
  rw [List.all_map, List.all_eq_true]
  intro c _
  have hv := c.valid
  have hn : c.toNat < 0xD800 ∨ 0xDFFF < c.toNat ∧ c.toNat < 0x110000 := hv
  simp only [Function.comp_apply, surrogate, Bool.not_eq_true', Bool.and_eq_false_iff,
    decide_eq_false_iff_not]
  omega

/-- The string of a text without surrogates. -/
def Text.decode (t : Text) : Option String :=
  if t.all fun c => decide c.isValidChar then some (String.ofList (t.map Char.ofNat)) else none

theorem decode_ofString (s : String) : (Text.ofString s).decode = some s := by
  have hvalid : ((s.toList.map Char.toNat).all fun c => decide c.isValidChar) = true := by
    rw [List.all_map, List.all_eq_true]
    intro c _
    exact decide_eq_true c.valid
  have hchars : (s.toList.map Char.toNat).map Char.ofNat = s.toList := by
    rw [List.map_map]
    exact List.map_id'' Char.ofNat_toNat s.toList
  unfold Text.decode Text.ofString
  rw [if_pos hvalid, hchars, String.ofList_toList]

inductive PyFloat where
  | finite (value : ℚ)
  | infinity (negative : Bool)
  | nan

/-- `allow_nan=False` lets it through. -/
def PyFloat.isFinite : PyFloat → Bool
  | .finite _ => true
  | .infinity _ | .nan => false

inductive Json where
  | null
  | bool (b : Bool)
  | int (n : Int)
  | float (x : PyFloat)
  | str (t : Text)
  | arr (items : List Json)
  | obj (members : List (Text × Json))

/-- `bool(value)`. -/
def Json.truthy : Json → Bool
  | .null => false
  | .bool b => b
  | .int n => decide (n ≠ 0)
  | .float (.finite q) => decide (q ≠ 0)
  | .float _ => true
  | .str t => !t.isEmpty
  | .arr items => !items.isEmpty
  | .obj members => !members.isEmpty

/-- `value == s`. -/
def Json.equalsStr (s : String) : Json → Bool
  | .str t => decide (t = Text.ofString s)
  | _ => false

/-- `value == n`; a bool is an int, and a float is compared exactly. -/
def Json.equalsInt (n : Int) : Json → Bool
  | .bool b => decide ((if b then 1 else 0) = n)
  | .int m => decide (m = n)
  | .float (.finite q) => decide (q = n)
  | _ => false

theorem ofString_injective {s s' : String} (h : Text.ofString s = Text.ofString s') : s = s' := by
  have hs := decode_ofString s
  rw [h, decode_ofString s'] at hs
  exact (Option.some.inj hs).symm

theorem truthy_ofString (s : String) : (Json.str (.ofString s)).truthy = decide (s ≠ "") := by
  have hempty : (Text.ofString s).isEmpty = decide (s = "") := by
    rw [Bool.eq_iff_iff, List.isEmpty_iff, decide_eq_true_eq]
    constructor
    · intro h
      exact ofString_injective h
    · rintro rfl
      rfl
  show (!(Text.ofString s).isEmpty) = _
  rw [hempty]
  simp

theorem equalsStr_ofString (s s' : String) :
    (Json.str (.ofString s)).equalsStr s' = decide (s = s') := by
  show decide (Text.ofString s = Text.ofString s') = _
  rw [decide_eq_decide]
  exact ⟨ofString_injective, congrArg _⟩

mutual

/-- `json.dumps(.., ensure_ascii=False, allow_nan=False).encode("utf-8")` goes through. -/
def Json.renders : Json → Bool
  | .null | .bool _ | .int _ => true
  | .float x => x.isFinite
  | .str t => t.encodable
  | .arr items => rendersItems items
  | .obj members => rendersMembers members

def rendersItems : List Json → Bool
  | [] => true
  | item :: items => item.renders && rendersItems items

def rendersMembers : List (Text × Json) → Bool
  | [] => true
  | (key, value) :: members => key.encodable && value.renders && rendersMembers members

end

theorem renders_obj : ∀ members : List (Text × Json),
    (Json.obj members).renders = members.all fun m => m.1.encodable && m.2.renders
  | [] => by simp [Json.renders, rendersMembers]
  | (key, value) :: members => by
      have ih := renders_obj members
      simp only [Json.renders] at ih ⊢
      rw [rendersMembers, ih, List.all_cons]

/-- `members.setdefault(key, value)`. -/
def setDefault (members : List (Text × Json)) (key : Text) (value : Json) : List (Text × Json) :=
  if (members.lookup key).isSome then members else members ++ [(key, value)]

theorem renders_setDefault {members : List (Text × Json)} {key : Text} {value : Json}
    (hk : key.encodable = true) (hv : value.renders = true) :
    (Json.obj (setDefault members key value)).renders = (Json.obj members).renders := by
  unfold setDefault
  split
  · rfl
  · rw [renders_obj, renders_obj, List.all_append]
    simp [hk, hv]

end Python

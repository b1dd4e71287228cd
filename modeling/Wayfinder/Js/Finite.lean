import Wayfinder.Js.Json

/-! What JSON keeps of a value.

`JSON.parse` reads a literal beyond the doubles as an infinity, and `JSON.stringify` prints an
infinity as `null`. So a value that goes through JSON comes back as it is, but for its infinities
(`reparsed`), and a value without any as it is (`reparsed_of_finite`). Two values are `SameText`
when the same comes back of them, up to the order of keys. -/
namespace Wayfinder.Js

/-! ### Finite numbers -/

mutual

/-- No number within a value is an infinity. -/
def Json.Finite : Json → Prop
  | .arr items => finiteItems items
  | .obj fs => finiteFields fs
  | .null => True
  | .bool _ => True
  | .num q => q.isFinite = true
  | .str _ => True

def finiteItems : List Json → Prop
  | [] => True
  | j :: rest => j.Finite ∧ finiteItems rest

def finiteFields : List (Str × Json) → Prop
  | [] => True
  | (_, v) :: rest => v.Finite ∧ finiteFields rest

end

theorem finite_arr {items : List Json} : (Json.arr items).Finite ↔ ∀ j ∈ items, j.Finite := by
  rw [Json.Finite]
  induction items with
  | nil => simp [finiteItems]
  | cons j rest ih => rw [finiteItems, ih, List.forall_mem_cons]

theorem finite_obj {fs : Fields} : (Json.obj fs).Finite ↔ ∀ p ∈ fs, p.2.Finite := by
  rw [Json.Finite]
  induction fs with
  | nil => simp [finiteFields]
  | cons p rest ih =>
    obtain ⟨k, v⟩ := p
    rw [finiteFields, ih, List.forall_mem_cons]

/-! ### Through JSON and back -/

mutual

/-- `JSON.parse(JSON.stringify(v))` -/
def Json.reparsed : Json → Json
  | .arr items => .arr (reparsedItems items)
  | .obj fs => .obj (reparsedFields fs)
  | .null => .null
  | .bool b => .bool b
  | .num q => if q.isFinite then .num q else .null
  | .str s => .str s

def reparsedItems : List Json → List Json
  | [] => []
  | j :: rest => j.reparsed :: reparsedItems rest

def reparsedFields : List (Str × Json) → List (Str × Json)
  | [] => []
  | (k, v) :: rest => (k, v.reparsed) :: reparsedFields rest

end

theorem reparsedFields_eq (fs : Fields) :
    reparsedFields fs = fs.map fun p => (p.1, p.2.reparsed) := by
  induction fs with
  | nil => rfl
  | cons p rest ih =>
    obtain ⟨k, v⟩ := p
    rw [reparsedFields, ih, List.map_cons]

@[simp] theorem reparsed_arr (items : List Json) :
    (Json.arr items).reparsed = .arr (items.map Json.reparsed) := by
  rw [Json.reparsed]
  congr 1
  induction items with
  | nil => rfl
  | cons j rest ih => rw [reparsedItems, ih, List.map_cons]

@[simp] theorem reparsed_obj (fs : Fields) :
    (Json.obj fs).reparsed = .obj (fs.map fun p => (p.1, p.2.reparsed)) := by
  rw [Json.reparsed, reparsedFields_eq]

theorem reparsed_str (s : Str) : (Json.str s).reparsed = .str s := rfl

/-- Texts come through. -/
theorem reparsed_strs (texts : List Str) :
    (texts.map Json.str).map Json.reparsed = texts.map Json.str := by
  rw [List.map_map]
  rfl

/-- What comes back is finite. -/
theorem finite_reparsed (j : Json) : j.reparsed.Finite := by
  induction j using Json.induct with
  | null => trivial
  | bool b => trivial
  | num q =>
    rw [Json.reparsed]
    split
    · next h => exact h
    · trivial
  | str s => trivial
  | arr items ih =>
    rw [reparsed_arr, finite_arr]
    exact List.forall_mem_map.mpr ih
  | obj fs ih =>
    rw [reparsed_obj, finite_obj]
    exact List.forall_mem_map.mpr ih

/-- A finite value comes back as it is. -/
theorem reparsed_of_finite {j : Json} (h : j.Finite) : j.reparsed = j := by
  induction j using Json.induct with
  | null => rfl
  | bool b => rfl
  | num q => exact if_pos h
  | str s => rfl
  | arr items ih =>
    rw [finite_arr] at h
    rw [reparsed_arr, List.map_congr_left fun j hj => ih j hj (h j hj), List.map_id']
  | obj fs ih =>
    rw [finite_obj] at h
    have hfields : fs.map (fun p => (p.1, p.2.reparsed)) = fs.map id :=
      List.map_congr_left fun p hp => Prod.ext rfl (ih p hp (h p hp))
    rw [reparsed_obj, hfields, List.map_id]

theorem reparsed_reparsed (j : Json) : j.reparsed.reparsed = j.reparsed :=
  reparsed_of_finite (finite_reparsed j)

theorem sortKeys_reparsed (j : Json) : j.reparsed.sortKeys = j.sortKeys.reparsed := by
  induction j using Json.induct with
  | null => rfl
  | bool b => rfl
  | num q =>
    rw [Json.reparsed]
    split
    · next h => exact (if_pos h).symm
    · next h => exact (if_neg h).symm
  | str s => rfl
  | arr items ih =>
    rw [reparsed_arr, sortKeys_arr, sortKeys_arr, reparsed_arr, List.map_map, List.map_map]
    exact congrArg _ (List.map_congr_left ih)
  | obj fs ih =>
    rw [reparsed_obj, sortKeys_obj, sortKeys_obj, reparsed_obj, sortByKey_map, List.map_map,
      List.map_map]
    exact congrArg _ (List.map_congr_left fun p hp => Prod.ext rfl (ih p (mem_sortByKey.mp hp)))

/-! ### Values that JSON keeps alike -/

/-- The same comes back of both, up to the order of object keys. -/
def SameText (a b : Json) : Prop := KeyEquiv a.reparsed b.reparsed

theorem SameText.refl (a : Json) : SameText a a := rfl

theorem SameText.symm {a b : Json} (h : SameText a b) : SameText b a := Eq.symm h

theorem SameText.trans {a b c : Json} (h : SameText a b) (h' : SameText b c) : SameText a c :=
  Eq.trans h h'

/-- Of finite values nothing is lost. -/
theorem sameText_iff {a b : Json} (ha : a.Finite) (hb : b.Finite) :
    SameText a b ↔ KeyEquiv a b := by
  rw [SameText, reparsed_of_finite ha, reparsed_of_finite hb]

theorem sameText_reparsed (j : Json) : SameText j j.reparsed := by
  rw [SameText, reparsed_reparsed]
  exact KeyEquiv.refl _

end Wayfinder.Js

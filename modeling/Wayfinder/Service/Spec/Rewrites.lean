import Wayfinder.Service.Spec

/-! What the rewrites of the merged document leave as it was.

Stripping keeps every field but a type-less `nullable: true`, and every reference; so does the
repair of the status. -/
namespace Wayfinder.Service.Spec

open Js

/-! ### Stripping -/

theorem stripItems_eq (items : List Json) : stripItems items = items.map stripTypelessNullable := by
  induction items with
  | nil => rfl
  | cons j rest ih => rw [stripItems, ih, List.map_cons]

theorem stripFields_eq (fs : Fields) :
    stripFields fs = fs.map fun p => (p.1, stripTypelessNullable p.2) := by
  induction fs with
  | nil => rfl
  | cons p rest ih =>
    obtain ⟨k, v⟩ := p
    rw [stripFields, ih, List.map_cons]

theorem getField_stripFields (fs : Fields) (k : Str) :
    getField (stripFields fs) k = (getField fs k).map stripTypelessNullable := by
  rw [stripFields_eq, getField_map]

@[simp] theorem strip_eq_str {j : Json} {s : Str} :
    stripTypelessNullable j = .str s ↔ j = .str s := by
  cases j <;> simp [stripTypelessNullable]

@[simp] theorem strip_eq_bool {j : Json} {b : Bool} :
    stripTypelessNullable j = .bool b ↔ j = .bool b := by
  cases j <;> simp [stripTypelessNullable]

/-- A field of an object goes when it is a type-less flag. -/
def Dropped (fs : Fields) (k : Str) : Prop :=
  k = lit "nullable" ∧ getField fs (lit "nullable") = some (.bool true) ∧
    getField fs (lit "type") = none

/-- What is dropped is one flag. -/
theorem dropTypelessNullable_cases (fs : Fields) :
    dropTypelessNullable fs = fs ∧ ¬ Dropped fs (lit "nullable") ∨
      dropTypelessNullable fs = deleteField fs (lit "nullable") ∧ Dropped fs (lit "nullable") := by
  unfold dropTypelessNullable
  split
  · next hflag htype => exact .inr ⟨rfl, rfl, hflag, htype⟩
  · next hother => exact .inl ⟨rfl, fun hdropped => hother hdropped.2.1 hdropped.2.2⟩

theorem dropped_stripFields {fs : Fields} {k : Str} :
    Dropped (stripFields fs) k ↔ Dropped fs k := by
  simp [Dropped, getField_stripFields]

/-- A field that is not dropped is there, stripped. -/
theorem getField_strip {fs : Fields} {k : Str} (h : ¬ Dropped fs k) :
    getField (dropTypelessNullable (stripFields fs)) k =
      (getField fs k).map stripTypelessNullable := by
  rw [← getField_stripFields]
  obtain ⟨he, _⟩ | ⟨he, hdropped⟩ := dropTypelessNullable_cases (stripFields fs)
  · rw [he]
  · rw [he, getField_deleteField_ne]
    rintro rfl
    exact h (dropped_stripFields.mp hdropped)

/-- A flag that is dropped holds no reference. -/
theorem mem_refs_dropTypelessNullable {fs : Fields} {ref : Str} :
    ref ∈ (Json.obj (dropTypelessNullable fs)).refs ↔ ref ∈ (Json.obj fs).refs := by
  obtain ⟨he, _⟩ | ⟨he, hdropped⟩ := dropTypelessNullable_cases fs
  · rw [he]
  · obtain ⟨before, behind, hfs, hbefore⟩ := getField_split hdropped.2.1
    have hown :
        getField (deleteField fs (lit "nullable")) (lit "$ref") = getField fs (lit "$ref") :=
      getField_deleteField_ne fs (by decide)
    rw [he, mem_refs_obj, mem_refs_obj, hown, hfs, deleteField_behind hbefore]
    simp only [List.mem_append, List.mem_cons, or_and_right, exists_or, exists_eq_left, Json.refs,
      List.not_mem_nil, false_or]

theorem mem_refs_strip (j : Json) (ref : Str) :
    ref ∈ (stripTypelessNullable j).refs ↔ ref ∈ j.refs := by
  induction j using Json.induct with
  | arr items ih =>
    rw [stripTypelessNullable, mem_refs_arr, mem_refs_arr, stripItems_eq]
    simp only [List.mem_map, exists_exists_and_eq_and]
    exact exists_congr fun j => and_congr_right fun hj => ih j hj
  | obj fs ih =>
    rw [stripTypelessNullable, mem_refs_dropTypelessNullable, mem_refs_obj, mem_refs_obj,
      getField_stripFields, stripFields_eq]
    simp only [Option.map_eq_some_iff, strip_eq_str, exists_eq_right, List.mem_map,
      exists_exists_and_eq_and]
    exact or_congr_right (exists_congr fun p => and_congr_right fun hp => ih p hp)
  | _ => rfl

/-! ### The status -/

theorem mem_refs_acceptStatus (j : Json) (ref : Str) :
    ref ∈ (acceptStatus j).refs ↔ ref ∈ j.refs := by
  unfold acceptStatus
  split
  · next fs =>
    split
    · next items hitems =>
      split
      · rfl
      · obtain ⟨before, behind, rfl, hbefore⟩ := getField_split hitems
        have hmore : ref ∈ refsItems (items ++ [.str (lit "accepted")]) ↔
            ref ∈ refsItems items := by
          simp [mem_refsItems, Json.refs]
        rw [mem_refs_obj, mem_refs_obj, getField_setField, if_neg (by decide),
          setField_behind hbefore]
        simp only [List.mem_append, List.mem_cons, or_and_right, exists_or, exists_eq_left,
          Json.refs, hmore]
    · rfl
  · rfl

end Wayfinder.Service.Spec

import Wayfinder.Js.Json

/-! References between the parts of a document.

A reference is the text under a `$ref`; one that starts with `#/` is a pointer, and its
tokens lead from the root through fields and elements to a part. How a token is unescaped is
left open. A document is closed when every reference of a kind leads somewhere. Of an edit
the lemmas say what it does to the parts and to the references. -/
namespace Wayfinder.Js

/-- The part of a value that a token names: a field, or an element by its index. -/
def Json.child : Json → Str → Option Json
  | .obj fs, token => getField fs token
  | .arr items, token => (items.zipIdx.find? fun p => natText p.2 = token).map Prod.fst
  | _, _ => none

/-- The part to which tokens lead. -/
def Json.resolve : Json → List Str → Option Json
  | j, [] => some j
  | j, token :: rest => (j.child token).bind fun part => part.resolve rest

/-- The reference that an object is. -/
def ownRef (fs : Fields) : List Str :=
  match getField fs (lit "$ref") with
  | some (.str ref) => [ref]
  | _ => []

mutual

/-- The references in a value. -/
def Json.refs : Json → List Str
  | .arr items => refsItems items
  | .obj fs => ownRef fs ++ refsFields fs
  | .null => []
  | .bool _ => []
  | .num _ => []
  | .str _ => []

def refsItems : List Json → List Str
  | [] => []
  | j :: rest => j.refs ++ refsItems rest

def refsFields : List (Str × Json) → List Str
  | [] => []
  | (_, v) :: rest => v.refs ++ refsFields rest

end

/-- The tokens of a reference `#/a/b`. -/
def pointerTokens (unescape : Str → Str) (ref : Str) : List Str :=
  ((slice ref 2).splitOn 47).map unescape

/-- Every reference with a given start leads to a part of the document. -/
def Closed (unescape : Str → Str) (start : Str) (root : Json) : Prop :=
  ∀ ref ∈ root.refs, startsWith ref start = true →
    (root.resolve (pointerTokens unescape ref)).isSome

/-- `delete o[k]` -/
def deleteField : Fields → Str → Fields
  | [], _ => []
  | (k', v) :: rest, k => if k' = k then rest else (k', v) :: deleteField rest k

/-- An edit of the part to which tokens lead, if they lead to one. -/
def Json.updateAt (f : Json → Json) : List Str → Json → Json
  | [], j => f j
  | token :: rest, .obj fs =>
    match getField fs token with
    | some part => .obj (setField fs token (part.updateAt f rest))
    | none => .obj fs
  | _ :: _, j => j

/-! ### Fields -/

/-- A field stands behind fields with other keys. -/
theorem getField_split {fs : Fields} {k : Str} {v : Json} (h : getField fs k = some v) :
    ∃ before behind, fs = before ++ (k, v) :: behind ∧ k ∉ before.map Prod.fst := by
  induction fs with
  | nil => cases h
  | cons p rest ih =>
    obtain ⟨k', w⟩ := p
    rw [getField_cons] at h
    split at h
    · next he =>
      cases h
      exact ⟨[], rest, by rw [he]; rfl, List.not_mem_nil⟩
    · next hne =>
      obtain ⟨before, behind, rfl, hbefore⟩ := ih h
      refine ⟨(k', w) :: before, behind, rfl, ?_⟩
      rw [List.map_cons, List.mem_cons, not_or]
      exact ⟨fun he => hne he.symm, hbefore⟩

/-- No key stands twice. -/
theorem nodup_setField {fs : Fields} (hnodup : (fs.map Prod.fst).Nodup) (k : Str) (v : Json) :
    ((setField fs k v).map Prod.fst).Nodup := by
  induction fs with
  | nil => exact List.nodup_singleton k
  | cons p rest ih =>
    obtain ⟨k', w⟩ := p
    rw [List.map_cons, List.nodup_cons] at hnodup
    rw [setField]
    split
    · next he => exact List.nodup_cons.mpr ⟨he ▸ hnodup.1, hnodup.2⟩
    · next hne =>
      refine List.nodup_cons.mpr ⟨?_, ih hnodup.2⟩
      rw [← getField_eq_none, getField_setField, if_neg (Ne.symm hne), getField_eq_none]
      exact hnodup.1

theorem nodup_assignFields {fs : Fields} (hnodup : (fs.map Prod.fst).Nodup) (gs : Fields) :
    ((assignFields fs gs).map Prod.fst).Nodup :=
  List.foldlRecOn (motive := fun fs : Fields => (fs.map Prod.fst).Nodup) gs _ hnodup
    fun _ hfs p _ => nodup_setField hfs p.1 p.2

theorem mem_setField {fs : Fields} {k : Str} {v : Json} {p : Str × Json} (h : p ∈ setField fs k v) :
    p = (k, v) ∨ p ∈ fs := by
  induction fs with
  | nil => exact .inl (List.mem_singleton.mp h)
  | cons q rest ih =>
    obtain ⟨k', w⟩ := q
    rw [setField] at h
    split at h
    · exact (List.mem_cons.mp h).imp_right (List.mem_cons_of_mem _)
    · rcases List.mem_cons.mp h with he | hmem
      · exact .inr (he ▸ List.mem_cons_self ..)
      · exact (ih hmem).imp_right (List.mem_cons_of_mem _)

/-- The fields of an object written down by its keys. -/
theorem getField_keyed (keys : List Str) (value : Str → Json) (k : Str) :
    getField (keys.map fun key => (key, value key)) k = if k ∈ keys then some (value k)
      else none := by
  induction keys with
  | nil => rfl
  | cons key rest ih =>
    rw [List.map_cons, getField_cons, ih]
    by_cases hk : key = k
    · simp [hk]
    · simp [hk, Ne.symm hk]

theorem setField_behind {before behind : Fields} {k : Str} {v : Json} (h : k ∉ before.map Prod.fst)
    (w : Json) :
    setField (before ++ (k, v) :: behind) k w = before ++ (k, w) :: behind := by
  induction before with
  | nil => exact if_pos rfl
  | cons p rest ih =>
    rw [List.map_cons, List.mem_cons, not_or] at h
    rw [List.cons_append, setField, if_neg (Ne.symm h.1), ih h.2]
    rfl

theorem deleteField_behind {before behind : Fields} {k : Str} {v : Json}
    (h : k ∉ before.map Prod.fst) :
    deleteField (before ++ (k, v) :: behind) k = before ++ behind := by
  induction before with
  | nil => exact if_pos rfl
  | cons p rest ih =>
    rw [List.map_cons, List.mem_cons, not_or] at h
    rw [List.cons_append, deleteField, if_neg (Ne.symm h.1), ih h.2]
    rfl

theorem getField_deleteField_ne (fs : Fields) {k k' : Str} (h : k ≠ k') :
    getField (deleteField fs k) k' = getField fs k' := by
  induction fs with
  | nil => rfl
  | cons p rest ih =>
    obtain ⟨k₀, w⟩ := p
    rw [deleteField, getField_cons]
    split
    · next hk => rw [if_neg (hk ▸ h)]
    · rw [getField_cons, ih]

theorem mem_refsItems {items : List Json} {ref : Str} :
    ref ∈ refsItems items ↔ ∃ j ∈ items, ref ∈ j.refs := by
  induction items with
  | nil => simp [refsItems]
  | cons j rest ih => simp [refsItems, ih]

theorem mem_refsFields {fs : Fields} {ref : Str} :
    ref ∈ refsFields fs ↔ ∃ p ∈ fs, ref ∈ p.2.refs := by
  induction fs with
  | nil => simp [refsFields]
  | cons p rest ih =>
    obtain ⟨k, v⟩ := p
    simp [refsFields, ih]

theorem mem_ownRef {fs : Fields} {ref : Str} :
    ref ∈ ownRef fs ↔ getField fs (lit "$ref") = some (.str ref) := by
  unfold ownRef
  split
  · next r hr => simp [hr, eq_comm]
  · next hother =>
    refine ⟨fun h => absurd h List.not_mem_nil, fun h => ?_⟩
    exact absurd h (hother ref)

theorem mem_refs_obj {fs : Fields} {ref : Str} :
    ref ∈ (Json.obj fs).refs ↔ getField fs (lit "$ref") = some (.str ref) ∨ ∃ p ∈ fs,
      ref ∈ p.2.refs := by
  rw [Json.refs, List.mem_append, mem_ownRef, mem_refsFields]

theorem mem_refs_arr {items : List Json} {ref : Str} :
    ref ∈ (Json.arr items).refs ↔ ∃ j ∈ items, ref ∈ j.refs := by
  rw [Json.refs, mem_refsItems]

theorem refs_field {fs : Fields} {k : Str} {v : Json} (h : (k, v) ∈ fs) :
    v.refs ⊆ (Json.obj fs).refs :=
  fun _ href => mem_refs_obj.mpr (.inr ⟨(k, v), h, href⟩)

/-- A part has no references but those of the whole. -/
theorem refs_child {j part : Json} {token : Str} (h : j.child token = some part) :
    part.refs ⊆ j.refs := by
  cases j with
  | obj fs => exact refs_field (mem_of_getField h)
  | arr items =>
    obtain ⟨⟨item, i⟩, hfind, rfl⟩ := Option.map_eq_some_iff.mp h
    have hitem : item ∈ items := List.fst_mem_of_mem_zipIdx (List.mem_of_find?_eq_some hfind)
    exact fun _ href => mem_refs_arr.mpr ⟨item, hitem, href⟩
  | _ => cases h

theorem refs_resolve {j part : Json} {tokens : List Str} (h : j.resolve tokens = some part) :
    part.refs ⊆ j.refs := by
  induction tokens generalizing j with
  | nil =>
    cases h
    exact List.Subset.refl _
  | cons token rest ih =>
    obtain ⟨next, hnext, hpart⟩ := Option.bind_eq_some_iff.mp h
    exact List.Subset.trans (ih hpart) (refs_child hnext)

/-- The first token of a pointer, and the tokens of the rest. -/
theorem pointerTokens_cons (unescape : Str → Str) {token : Str} (h : 47 ∉ token) (rest : Str) :
    pointerTokens unescape (lit "#/" ++ (token ++ 47 :: rest)) =
      unescape token :: (rest.splitOn 47).map unescape := by
  have hslice : slice (lit "#/" ++ (token ++ 47 :: rest)) 2 = token ++ 47 :: rest :=
    slice_append (lit "#/") _
  rw [pointerTokens, hslice, List.splitOn_append_cons_self_of_not_mem h, List.map_cons]

/-! ### Edits -/

variable {f : Json → Json}

theorem child_updateAt (fs : Fields) (token : Str) (rest : List Str) (other : Str) :
    ((Json.obj fs).updateAt f (token :: rest)).child other = if token = other then
      (getField fs other).map (Json.updateAt f rest) else getField fs other := by
  rw [Json.updateAt]
  split
  · next part hpart =>
    rw [Json.child, getField_setField]
    split
    · next he => rw [← he, hpart, Option.map_some]
    · rfl
  · next hnone =>
    rw [Json.child]
    split
    · next he => rw [← he, hnone, Option.map_none]
    · rfl

/-- An edit that keeps the references of what it is given, not under a `$ref`, keeps those of the
whole. -/
theorem mem_refs_updateAt (hf : ∀ j ref, ref ∈ (f j).refs ↔ ref ∈ j.refs) {tokens : List Str}
    (htokens : lit "$ref" ∉ tokens) (j : Json) (ref : Str) :
    ref ∈ (j.updateAt f tokens).refs ↔ ref ∈ j.refs := by
  induction tokens generalizing j with
  | nil => exact hf j ref
  | cons token rest ih =>
    rw [List.mem_cons, not_or] at htokens
    cases j with
    | obj fs =>
      rw [Json.updateAt]
      split
      · next part hpart =>
        obtain ⟨before, behind, rfl, hbefore⟩ := getField_split hpart
        have hown :
            getField (setField (before ++ (token, part) :: behind) token (part.updateAt f rest))
              (lit "$ref") = getField (before ++ (token, part) :: behind) (lit "$ref") := by
          rw [getField_setField, if_neg (Ne.symm htokens.1)]
        rw [mem_refs_obj, mem_refs_obj, hown, setField_behind hbefore]
        simp only [List.mem_append, List.mem_cons, or_and_right, exists_or, exists_eq_left,
          ih htokens.2]
      · rfl
    | _ => rfl

end Wayfinder.Js

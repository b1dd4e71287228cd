import Wayfinder.Service.Spec

/-! The paths and the components that are merged.

A component of the merge is the one of the first document that has it, unless its name is one
that `in` finds on any object (`getField_mergedSection`). A path is of whichever document
has it, where no two do (`getField_mergedPaths`). -/
namespace Wayfinder.Service.Spec

open Js

/-! ### Documents -/

def pathItem (doc : Json) (path : Str) : Option Json := doc.resolve [lit "paths", path]

def component (doc : Json) (section_ name : Str) : Option Json :=
  doc.resolve [lit "components", section_, name]

/-- The definition of the first document that has one. -/
def firstComponent (docs : List Doc) (section_ name : Str) : Option Json :=
  docs.findSome? fun doc => component (.obj doc) section_ name

/-- What the OpenAPI specification asks of the parts that are merged: objects, whose keys are
paths or extensions and whose values are definitions. -/
structure OpenApi (doc : Doc) : Prop where
  paths : ∀ v, getField doc (lit "paths") = some v → ∃ fs, v = .obj fs ∧ (fs.map Prod.fst).Nodup ∧
    ∀ k ∈ fs.map Prod.fst, startsWith k (lit "/") = true ∨ startsWith k (lit "x-") = true
  components : ∀ v, getField doc (lit "components") = some v → ∃ fs, v = .obj fs
  definitions : ∀ s ∈ componentSections, ∀ v,
    (Json.obj doc).resolve [lit "components", s] = some v →
    ∃ fs, v = .obj fs ∧ ∀ p ∈ fs, (∃ gs, p.2 = .obj gs) ∨ ∃ b, p.2 = .bool b

/-- Documents without a path in common. -/
def DisjointPaths (a b : Doc) : Prop :=
  ∀ path, pathItem (.obj a) path = none ∨ pathItem (.obj b) path = none

variable {doc : Doc} {docs : List Doc}

/-- The paths of a document, as they are assigned. -/
theorem OpenApi.paths_eq (h : OpenApi doc) :
    ((entries (getField doc (lit "paths"))).map Prod.fst).Nodup ∧
      (∀ k ∈ (entries (getField doc (lit "paths"))).map Prod.fst,
        startsWith k (lit "/") = true ∨ startsWith k (lit "x-") = true) ∧
      ∀ path, getField (entries (getField doc (lit "paths"))) path = pathItem (.obj doc) path := by
  cases hpaths : getField doc (lit "paths") with
  | none =>
    refine ⟨List.nodup_nil, fun k hk => absurd hk List.not_mem_nil, fun path => ?_⟩
    rw [pathItem, Json.resolve, Json.child, hpaths]
    rfl
  | some v =>
    obtain ⟨fs, rfl, hnodup, hkeys⟩ := h.paths v hpaths
    refine ⟨hnodup, hkeys, fun path => ?_⟩
    rw [pathItem, Json.resolve, Json.child, hpaths, Option.bind_some, Json.resolve, Json.child]
    show getField fs path = (getField fs path).bind some
    rw [Option.bind_fun_some]

/-- The definitions of a section, as they are entered. -/
theorem OpenApi.section_eq (h : OpenApi doc) {s : Str} (hs : s ∈ componentSections) :
    (∀ p ∈ sectionEntries doc s, (∃ gs, p.2 = .obj gs) ∨ ∃ b, p.2 = .bool b) ∧
      ∀ name, getField (sectionEntries doc s) name = component (.obj doc) s name := by
  rw [sectionEntries]
  cases hcomponents : getField doc (lit "components") with
  | none =>
    refine ⟨fun p hp => absurd hp List.not_mem_nil, fun name => ?_⟩
    rw [component, Json.resolve, Json.child, hcomponents]
    rfl
  | some v =>
    obtain ⟨cs, rfl⟩ := h.components v hcomponents
    have hresolve : (Json.obj doc).resolve [lit "components", s] = getField cs s := by
      rw [Json.resolve, Json.child, hcomponents, Option.bind_some, Json.resolve, Json.child]
      exact Option.bind_fun_some _
    cases hsection : getField cs s with
    | none =>
      refine ⟨fun p hp => ?_, fun name => ?_⟩
      · rw [readProp?, Json.prop, hsection] at hp
        exact absurd hp List.not_mem_nil
      · rw [readProp?, Json.prop, hsection, component, Json.resolve, Json.child, hcomponents,
          Option.bind_some, Json.resolve, Json.child, hsection]
        rfl
    | some v =>
      obtain ⟨fs, rfl, hfs⟩ := h.definitions s hs v (hresolve.trans hsection)
      refine ⟨fun p hp => ?_, fun name => ?_⟩
      · rw [readProp?, Json.prop, hsection] at hp
        exact hfs p hp
      · rw [readProp?, Json.prop, hsection, component,
          Json.resolve, Json.child, hcomponents, Option.bind_some,
          Json.resolve, Json.child, hsection, Option.bind_some, Json.resolve, Json.child]
        show getField fs name = (getField fs name).bind some
        rw [Option.bind_fun_some]

/-! ### Sections -/

theorem getField_addMissing (fs more : Fields) (name : Str) :
    getField (addMissing fs more) name =
      (getField fs name).or (if name ∈ inherited then none else getField more name) := by
  induction more generalizing fs with
  | nil => simp [addMissing]
  | cons p rest ih =>
    obtain ⟨k, v⟩ := p
    have hstep : addMissing fs ((k, v) :: rest) = addMissing (if isIn fs k then
      fs else setField fs k v) rest := rfl
    rw [hstep, ih, getField_cons]
    by_cases hin : isIn fs k = true
    · rw [if_pos hin]
      by_cases hk : k = name
      · -- the key is there or is on every object
        subst hk
        rw [isIn, Bool.or_eq_true, List.contains_iff_mem] at hin
        obtain hsome | hinherited := hin
        · obtain ⟨w, hw⟩ := Option.isSome_iff_exists.mp hsome
          rw [hw, Option.some_or, Option.some_or]
        · rw [if_pos hinherited, if_pos hinherited]
      · rw [if_neg hk]
    · rw [if_neg hin, getField_setField]
      rw [isIn, Bool.or_eq_true, List.contains_iff_mem, not_or, Bool.not_eq_true,
        Option.isSome_eq_false_iff, Option.isNone_iff_eq_none] at hin
      by_cases hk : k = name
      · subst hk
        rw [if_pos rfl, if_pos rfl, if_neg hin.2, if_neg hin.2, hin.1, Option.some_or,
          Option.none_or]
      · rw [if_neg hk, if_neg hk]

theorem nodup_addMissing {fs : Fields} (hnodup : (fs.map Prod.fst).Nodup) (more : Fields) :
    ((addMissing fs more).map Prod.fst).Nodup := by
  refine List.foldlRecOn (motive := fun fs : Fields => (fs.map Prod.fst).Nodup) more _ hnodup
    fun fs hfs p _ => ?_
  split
  · exact hfs
  · exact nodup_setField hfs p.1 p.2

/-- A section has what its documents define first, but for the names that any object has. -/
theorem getField_mergedSection (hshape : ∀ doc ∈ docs, OpenApi doc) {s : Str}
    (hs : s ∈ componentSections) (name : Str) :
    getField (mergedSection docs s) name = if name ∈ inherited then none
      else firstComponent docs s name := by
  have hrun : ∀ (docs : List Doc) (fs : Fields), (∀ doc ∈ docs, OpenApi doc) →
      getField (docs.foldl (fun fs doc => addMissing fs (sectionEntries doc s)) fs) name =
        (getField fs name).or (if name ∈ inherited then none else firstComponent docs s name) := by
    intro docs
    induction docs with
    | nil => intro fs _; simp [firstComponent]
    | cons doc rest ih =>
      intro fs hshape
      rw [List.foldl_cons, ih _ fun d hd => hshape d (List.mem_cons_of_mem doc hd),
        getField_addMissing, ((hshape doc (List.mem_cons_self ..)).section_eq hs).2, firstComponent,
        firstComponent, List.findSome?_cons, Option.or_assoc]
      split
      · rfl
      · cases component (.obj doc) s name <;> rfl
  rw [mergedSection, hrun docs [] hshape, getField_nil, Option.none_or]

theorem nodup_mergedSection (docs : List Doc) (s : Str) :
    ((mergedSection docs s).map Prod.fst).Nodup :=
  List.foldlRecOn (motive := fun fs : Fields => (fs.map Prod.fst).Nodup) docs _ List.nodup_nil
    fun _ hfs _ _ => nodup_addMissing hfs _

/-- A definition is an object or a boolean. -/
theorem mergedSection_definition (hshape : ∀ doc ∈ docs, OpenApi doc) {s : Str}
    (hs : s ∈ componentSections) {name : Str} {d : Json}
    (h : getField (mergedSection docs s) name = some d) :
    (∃ gs, d = .obj gs) ∨ ∃ b, d = .bool b := by
  rw [getField_mergedSection hshape hs] at h
  split at h
  · cases h
  · obtain ⟨doc, hdoc, hd⟩ := List.exists_of_findSome?_eq_some h
    have hsection := (hshape doc hdoc).section_eq hs
    rw [← hsection.2] at hd
    exact hsection.1 _ (mem_of_getField hd)

/-! ### Paths -/

/-- The items of documents without a path in common are all there, and no others. -/
theorem getField_mergedPaths (hshape : ∀ doc ∈ docs, OpenApi doc)
    (hdisjoint : docs.Pairwise DisjointPaths) {path : Str} {item : Json} :
    getField (mergedPaths docs) path = some item ↔ ∃ doc ∈ docs,
      pathItem (.obj doc) path = some item := by
  have hrun : ∀ (docs : List Doc) (fs : Fields),
      (∀ doc ∈ docs, OpenApi doc) → docs.Pairwise DisjointPaths →
      (∀ doc ∈ docs, getField fs path = none ∨ pathItem (.obj doc) path = none) →
      (getField (docs.foldl (fun fs doc =>
        assignFields fs (entries (getField doc (lit "paths")))) fs) path = some item ↔
        getField fs path = some item ∨ ∃ doc ∈ docs, pathItem (.obj doc) path = some item) := by
    intro docs
    induction docs with
    | nil => intro fs _ _ _; simp
    | cons doc rest ih =>
      intro fs hshape hdisjoint hfs
      rw [List.pairwise_cons] at hdisjoint
      have hpaths := (hshape doc (List.mem_cons_self ..)).paths_eq
      have hassigned := getField_assignFields_or fs hpaths.1 path
      rw [hpaths.2.2] at hassigned
      have hapart : ∀ d ∈ rest,
          getField (assignFields fs (entries (getField doc (lit "paths")))) path = none ∨
          pathItem (.obj d) path = none := by
        intro d hd
        rw [hassigned]
        rcases hdisjoint.1 d hd path with hnone | hnone
        · rw [hnone, Option.none_or]
          exact hfs d (List.mem_cons_of_mem doc hd)
        · exact .inr hnone
      rw [List.foldl_cons,
        ih _ (fun d hd => hshape d (List.mem_cons_of_mem doc hd)) hdisjoint.2 hapart, hassigned]
      rcases hfs doc (List.mem_cons_self ..) with hnone | hnone <;> simp [hnone]
  rw [mergedPaths, hrun docs [] hshape hdisjoint fun _ _ => .inl rfl, getField_nil]
  simp

theorem nodup_mergedPaths (docs : List Doc) : ((mergedPaths docs).map Prod.fst).Nodup :=
  List.foldlRecOn (motive := fun fs : Fields => (fs.map Prod.fst).Nodup) docs _ List.nodup_nil
    fun _ hfs _ _ => nodup_assignFields hfs _

/-- No path is the name of a field that a document has of its own. -/
theorem mergedPaths_key (hshape : ∀ doc ∈ docs, OpenApi doc)
    (hdisjoint : docs.Pairwise DisjointPaths) {path : Str}
    (hslash : startsWith path (lit "/") = false) (hextension : startsWith path (lit "x-") = false) :
    getField (mergedPaths docs) path = none := by
  rw [Option.eq_none_iff_forall_ne_some]
  intro item hitem
  obtain ⟨doc, hdoc, hd⟩ := (getField_mergedPaths hshape hdisjoint).mp hitem
  have hpaths := (hshape doc hdoc).paths_eq
  rw [← hpaths.2.2] at hd
  rcases hpaths.2.1 path (List.mem_map.mpr ⟨_, mem_of_getField hd, rfl⟩) with h | h
  · exact absurd h (by simp [hslash])
  · exact absurd h (by simp [hextension])

end Wayfinder.Service.Spec

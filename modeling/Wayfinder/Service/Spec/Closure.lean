import Wayfinder.Service.Spec.Merge

/-! What the merge of documents keeps, and when.

A merge of closed documents without a path in common should have every path, the first
definition of every component, and no reference that dangles (`Merges`). `loadMergedSpec` gives
such a document when every component is in one of the four sections and has a name that `in`
finds on no plain object, no definition is dropped for a flag, no document has a path of its own
where the proof is bound, and what a reference finds below a component is in its first
definition (`Mergeable`); otherwise it does not (`loadMergedSpec_iff`). -/
namespace Wayfinder.Service.Spec

open Js

variable {unescape : Str → Str} {docs : List Doc}

/-- A token without an escape stands for itself. -/
def Plain (unescape : Str → Str) : Prop :=
  ∀ token, 126 ∉ token → 37 ∉ token → unescape token = token

/-- The tokens behind a section lead into the first definition of a component. -/
def Reaches (docs : List Doc) (section_ : Str) : List Str → Prop
  | [] => section_ ∈ componentSections
  | name :: below =>
    ∃ d, firstComponent docs section_ name = some d ∧
      ((repaired section_ name d).resolve below).isSome = true

/-- What a merged document owes to its documents. -/
structure Merges (unescape : Str → Str) (docs : List Doc) (merged : Json) : Prop where
  paths : ∀ doc ∈ docs, ∀ path item, pathItem (.obj doc) path = some item →
    pathItem merged path = some (stripTypelessNullable item)
  components : ∀ s name d, firstComponent docs s name = some d →
    component merged s name = some (repaired s name d)
  closed : Closed unescape (lit "#/components/") merged

/-- Documents that can be merged. -/
structure Mergeable (unescape : Str → Str) (docs : List Doc) : Prop where
  sections : ∀ s name d, firstComponent docs s name = some d → s ∈ componentSections
  names : ∀ s name d, firstComponent docs s name = some d → name ∉ inherited
  /-- A component `nullable: true` is taken for a flag. -/
  flag : ∀ s, firstComponent docs s (lit "nullable") = some (.bool true) →
    (firstComponent docs s (lit "type")).isSome = true
  proof : bindsProof docs = true → ∀ doc ∈ docs, ∀ item, pathItem (.obj doc) proofPath = some item →
    stripTypelessNullable item = proofItem
  /-- A reference to no component, but to a part of one or to a section, finds that part. -/
  below : ∀ j, Kept docs j → ∀ ref ∈ j.refs, startsWith ref (lit "#/components/") = true → ∀ s rest,
    pointerTokens unescape ref = lit "components" :: s :: rest → rest.length ≠ 1 →
    Reaches docs s rest

/-! ### Pointers -/

/-- A reference into the components names a section. -/
theorem pointerTokens_components (hplain : Plain unescape) {ref : Str}
    (h : startsWith ref (lit "#/components/") = true) :
    ∃ s rest, pointerTokens unescape ref = lit "components" :: s :: rest := by
  obtain ⟨tail, rfl⟩ := List.isPrefixOf_iff_prefix.mp h
  have hstart : lit "#/components/" = lit "#/" ++ (lit "components" ++ [47]) := by decide +kernel
  have hslash : 47 ∉ lit "components" := by decide
  have htoken : unescape (lit "components") = lit "components" := hplain _ (by decide) (by decide)
  rw [hstart, List.append_assoc, List.append_assoc, List.singleton_append,
    pointerTokens_cons unescape hslash, htoken]
  cases hparts : (tail.splitOn 47).map unescape with
  | nil => exact absurd (List.map_eq_nil_iff.mp hparts) (List.splitOn_ne_nil 47 tail)
  | cons s rest => exact ⟨s, rest, rfl⟩

theorem pointerTokens_schema (hplain : Plain unescape) {name : Str} (htilde : 126 ∉ name)
    (hpercent : 37 ∉ name) (hslash : 47 ∉ name) :
    pointerTokens unescape (lit "#/components/schemas/" ++ name) =
      [lit "components", lit "schemas", name] := by
  have hstart : lit "#/components/schemas/" =
      lit "#/" ++ (lit "components" ++ 47 :: (lit "schemas" ++ [47])) := by
    decide +kernel
  have hschemas : 47 ∉ lit "schemas" := by decide
  have hsplit : (lit "schemas" ++ 47 :: name).splitOn 47 = [lit "schemas", name] := by
    rw [List.splitOn_append_cons_self_of_not_mem hschemas, List.splitOn_eq_singleton hslash]
  have hpointer : lit "#/components/schemas/" ++ name =
      lit "#/" ++ (lit "components" ++ 47 :: (lit "schemas" ++ 47 :: name)) := by
    rw [hstart]
    simp only [List.append_assoc, List.cons_append, List.nil_append]
  rw [hpointer, pointerTokens_cons unescape (by decide), hsplit, List.map_cons, List.map_singleton,
    hplain (lit "components") (by decide) (by decide),
    hplain (lit "schemas") (by decide) (by decide), hplain name htilde hpercent]

/-- A reference of the proof names a schema. -/
theorem refs_proofItem (hplain : Plain unescape) {ref : Str} (href : ref ∈ proofItem.refs) :
    ∃ name ∈ [lit "ApiRequest_GetProofRequest", lit "ApiResponse_ProofDetails"],
      pointerTokens unescape ref = [lit "components", lit "schemas", name] := by
  have hrefs : proofItem.refs = [lit "#/components/schemas/" ++ lit "ApiRequest_GetProofRequest",
      lit "#/components/schemas/" ++ lit "ApiResponse_ProofDetails"] := by decide +kernel
  rw [hrefs, List.mem_cons, List.mem_singleton] at href
  rcases href with rfl | rfl
  · exact ⟨_, List.mem_cons_self ..,
      pointerTokens_schema hplain (by decide) (by decide) (by decide)⟩
  · exact ⟨_, List.mem_cons_of_mem _ (List.mem_cons_self ..),
      pointerTokens_schema hplain (by decide) (by decide) (by decide)⟩

/-! ### Components -/

/-- No definition is dropped for a flag. -/
theorem Mergeable.kept (h : Mergeable unescape docs) (hshape : ∀ doc ∈ docs, OpenApi doc) {s : Str}
    (hs : s ∈ componentSections) (name : Str) : ¬ Dropped (mergedSection docs s) name := by
  rintro ⟨_, hflag, htype⟩
  rw [getField_mergedSection hshape hs, if_neg (by decide)] at hflag htype
  have hsome := h.flag s hflag
  rw [htype] at hsome
  cases hsome

/-- Where documents can be merged, what the first definitions have is found. -/
theorem Mergeable.resolve_of_reaches (h : Mergeable unescape docs)
    (hshape : ∀ doc ∈ docs, OpenApi doc) (base : Doc) (paths : Fields) {s : Str} {rest : List Str}
    (hreaches : Reaches docs s rest) :
    ((assemble base docs paths).resolve (lit "components" :: s :: rest)).isSome = true := by
  cases rest with
  | nil =>
    have hs : s ∈ componentSections := hreaches
    rw [resolve_assemble, if_pos hs]
    rfl
  | cons name below =>
    obtain ⟨d, hfirst, hbelow⟩ := hreaches
    have hs := h.sections s name d hfirst
    rw [resolve_assemble, if_pos hs,
      resolve_component hshape hs (h.names s name d hfirst) (h.kept hshape hs name),
      hfirst, Option.bind_some]
    exact hbelow

/-- What is kept has no references but those of the documents. -/
theorem Kept.refs {j : Json} (h : Kept docs j) {ref : Str} (href : ref ∈ j.refs) :
    ∃ doc ∈ docs, ref ∈ (Json.obj doc).refs := by
  cases h with
  | heading hbase _ hv =>
    exact ⟨_, List.mem_of_mem_head? hbase, refs_field (mem_of_getField hv) href⟩
  | path hdoc hitem => exact ⟨_, hdoc, refs_resolve hitem href⟩
  | component hfirst =>
    obtain ⟨doc, hdoc, hd⟩ := List.exists_of_findSome?_eq_some hfirst
    exact ⟨doc, hdoc, refs_resolve hd href⟩

/-- A reference to a component of closed documents is to one that is defined. -/
theorem Kept.defined (hclosed : ∀ doc ∈ docs, Closed unescape (lit "#/components/") (.obj doc))
    {j : Json} (h : Kept docs j) {ref : Str} (href : ref ∈ j.refs)
    (hstart : startsWith ref (lit "#/components/") = true) {s name : Str}
    (htokens : pointerTokens unescape ref = [lit "components", s, name]) :
    Reaches docs s [name] := by
  obtain ⟨doc, hdoc, hin⟩ := h.refs href
  have hresolves := hclosed doc hdoc ref hin hstart
  rw [htokens] at hresolves
  have hfirst : (firstComponent docs s name).isSome = true :=
    List.findSome?_isSome_iff.mpr ⟨doc, hdoc, hresolves⟩
  obtain ⟨d, hd⟩ := Option.isSome_iff_exists.mp hfirst
  exact ⟨d, hd, rfl⟩

/-- The references of the proof are to schemas that are defined. -/
theorem reaches_proofItem (hbinds : bindsProof docs = true) {name : Str}
    (hname : name ∈ [lit "ApiRequest_GetProofRequest", lit "ApiResponse_ProofDetails"]) :
    Reaches docs (lit "schemas") [name] := by
  have hdefined : ∀ name, truthy (firstComponent docs (lit "schemas") name) = true →
      Reaches docs (lit "schemas") [name] := by
    intro name htruthy
    cases hfirst : firstComponent docs (lit "schemas") name with
    | none => rw [hfirst] at htruthy; cases htruthy
    | some d => exact ⟨d, hfirst, rfl⟩
  rw [bindsProof, Bool.and_eq_true] at hbinds
  rw [List.mem_cons, List.mem_singleton] at hname
  rcases hname with rfl | rfl
  · exact hdefined _ hbinds.1
  · exact hdefined _ hbinds.2

/-! ### The merge -/

section Merge

variable {base : Doc} (hbase : docs.head? = some base) (hshape : ∀ doc ∈ docs, OpenApi doc)
  (hdisjoint : docs.Pairwise DisjointPaths)
  (hclosed : ∀ doc ∈ docs, Closed unescape (lit "#/components/") (.obj doc))

include hbase hshape hdisjoint hclosed in
theorem Mergeable.closed (hplain : Plain unescape) (h : Mergeable unescape docs) :
    Closed unescape (lit "#/components/") (assemble base docs (boundPaths docs)) := by
  intro ref href hstart
  obtain ⟨j, hj, hin⟩ | ⟨hbinds, hin⟩ := refs_assemble hbase hshape hdisjoint href
  · obtain ⟨s, rest, htokens⟩ := pointerTokens_components hplain hstart
    rw [htokens]
    refine h.resolve_of_reaches hshape base _ ?_
    by_cases hrest : rest.length = 1
    · obtain ⟨name, rfl⟩ := List.length_eq_one_iff.mp hrest
      exact hj.defined hclosed hin hstart htokens
    · exact h.below j hj ref hin hstart s rest htokens hrest
  · obtain ⟨name, hname, htokens⟩ := refs_proofItem hplain hin
    rw [htokens]
    exact h.resolve_of_reaches hshape base _ (reaches_proofItem hbinds hname)

/-- What is kept is in the merged document with its references. -/
theorem Merges.refs (hbase : docs.head? = some base) {paths : Fields}
    (h : Merges unescape docs (assemble base docs paths)) {j : Json} (hj : Kept docs j) :
    j.refs ⊆ (assemble base docs paths).refs := by
  intro ref href
  cases hj with
  | heading hhead hk hv =>
    obtain rfl : base = _ := Option.some.inj (hbase.symm.trans hhead)
    have hchild := getField_assemble_heading base docs paths hk
    rw [hv, Option.map_some] at hchild
    exact refs_child hchild ((mem_refs_strip _ ref).mpr href)
  | path hdoc hitem =>
    exact refs_resolve (h.paths _ hdoc _ _ hitem) ((mem_refs_strip _ ref).mpr href)
  | component hfirst =>
    exact refs_resolve (h.components _ _ _ hfirst) ((mem_refs_repaired _ _ _ ref).mpr href)

end Merge

end Wayfinder.Service.Spec

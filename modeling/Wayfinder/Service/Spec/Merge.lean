import Wayfinder.Service.Spec.Parts
import Wayfinder.Service.Spec.Rewrites

/-! What the merged document is, part by part.

Behind its rewrites it has the heading of the first document, the items of all paths and the
definitions of the four sections, each rewritten on its own (`loadMergedSpec_eq`). A definition
goes when it is taken for a type-less flag, and the path of the proof is set over one that a
document has. -/
namespace Wayfinder.Service.Spec

open Js

variable {docs : List Doc}

/-! ### The parts -/

/-- What the first document says of itself. -/
def heading (base : Doc) : Fields :=
  ((getField base (lit "openapi")).toList.map fun v => (lit "openapi", v)) ++
    (getField base (lit "info")).toList.map fun v => (lit "info", v)

/-- A definition, rewritten. -/
def repaired (section_ name : Str) (d : Json) : Json :=
  if section_ = lit "schemas" ∧ name = lit "ResponseContext" then
    (stripTypelessNullable d).updateAt acceptStatus [lit "properties", lit "status"]
  else stripTypelessNullable d

/-- A section, rewritten. -/
def repairedSection (docs : List Doc) (section_ : Str) : Json :=
  if section_ = lit "schemas" then
    (stripTypelessNullable (.obj (mergedSection docs section_))).updateAt acceptStatus
      [lit "ResponseContext", lit "properties", lit "status"]
  else stripTypelessNullable (.obj (mergedSection docs section_))

/-- Whether the proof is bound to a path. -/
def bindsProof (docs : List Doc) : Bool :=
  truthy (firstComponent docs (lit "schemas") (lit "ApiRequest_GetProofRequest")) &&
    truthy (firstComponent docs (lit "schemas") (lit "ApiResponse_ProofDetails"))

/-- The paths, rewritten. -/
def boundPaths (docs : List Doc) : Fields :=
  if bindsProof docs then setField (stripFields (mergedPaths docs)) proofPath proofItem
  else stripFields (mergedPaths docs)

/-- A document of these parts. -/
def assemble (base : Doc) (docs : List Doc) (paths : Fields) : Json :=
  .obj (stripFields (heading base) ++ [(lit "paths", .obj paths),
    (lit "components", .obj (componentSections.map fun s => (s, repairedSection docs s)))])

/-! ### Sections -/

/-- Of a section, the one definition with the status is repaired. -/
theorem child_repairedSection_eq (docs : List Doc) (s name : Str) :
    (repairedSection docs s).child name =
      if s = lit "schemas" ∧ name = lit "ResponseContext" then
        ((stripTypelessNullable (.obj (mergedSection docs s))).child name).map
          (Json.updateAt acceptStatus [lit "properties", lit "status"])
      else (stripTypelessNullable (.obj (mergedSection docs s))).child name := by
  rw [repairedSection]
  by_cases hs : s = lit "schemas"
  · rw [if_pos hs, stripTypelessNullable, child_updateAt, Json.child]
    by_cases hname : lit "ResponseContext" = name
    · rw [if_pos hname, if_pos ⟨hs, hname.symm⟩]
    · rw [if_neg hname, if_neg fun h => hname h.2.symm]
  · rw [if_neg hs, if_neg fun h => hs h.1]

/-- A definition that is not dropped is there, rewritten. -/
theorem child_repairedSection {s name : Str} (h : ¬ Dropped (mergedSection docs s) name) :
    (repairedSection docs s).child name =
      (getField (mergedSection docs s) name).map (repaired s name) := by
  have hstrip : (stripTypelessNullable (.obj (mergedSection docs s))).child name =
      (getField (mergedSection docs s) name).map stripTypelessNullable := getField_strip h
  rw [child_repairedSection_eq, hstrip]
  split
  · next hstatus =>
    rw [Option.map_map]
    refine congrArg (Option.map · _) (funext fun d => ?_)
    rw [repaired, if_pos hstatus]
    rfl
  · next hother =>
    refine congrArg (Option.map · _) (funext fun d => ?_)
    rw [repaired, if_neg hother]

theorem mem_refs_repaired (s name : Str) (d : Json) (ref : Str) :
    ref ∈ (repaired s name d).refs ↔ ref ∈ d.refs := by
  rw [repaired]
  split
  · rw [mem_refs_updateAt mem_refs_acceptStatus (by decide), mem_refs_strip]
  · rw [mem_refs_strip]

theorem mem_refs_repairedSection (docs : List Doc) (s : Str) (ref : Str) :
    ref ∈ (repairedSection docs s).refs ↔ ref ∈ (Json.obj (mergedSection docs s)).refs := by
  rw [repairedSection]
  split
  · rw [mem_refs_updateAt mem_refs_acceptStatus (by decide), mem_refs_strip]
  · rw [mem_refs_strip]

/-! ### The document -/

theorem getField_assemble_heading (base : Doc) (docs : List Doc) (paths : Fields) {k : Str}
    (hk : k = lit "openapi" ∨ k = lit "info") :
    (assemble base docs paths).child k = (getField base k).map stripTypelessNullable := by
  rw [assemble, heading]
  rcases hk with
    rfl | rfl <;> cases getField base (lit "openapi") <;> cases getField base (lit "info") <;> rfl

/-- Behind the heading stand the paths and the components. -/
theorem child_assemble (base : Doc) (docs : List Doc) (paths : Fields) {k : Str}
    (hopenapi : lit "openapi" ≠ k) (hinfo : lit "info" ≠ k) :
    (assemble base docs paths).child k = getField [(lit "paths", .obj paths), (lit "components",
      .obj (componentSections.map fun s => (s, repairedSection docs s)))] k := by
  rw [assemble, heading, Json.child]
  cases getField base (lit "openapi") <;> cases getField base
    (lit "info") <;> simp only [Option.toList, List.map_nil, List.map_cons, List.nil_append,
      List.cons_append, stripFields, getField_cons, if_neg hopenapi, if_neg hinfo]

theorem child_assemble_components (base : Doc) (docs : List Doc) (paths : Fields) :
    (assemble base docs paths).child (lit "components") =
      some (.obj (componentSections.map fun s => (s, repairedSection docs s))) :=
  (child_assemble base docs paths (by decide) (by decide)).trans rfl

/-- A part of the components. -/
theorem resolve_assemble (base : Doc) (docs : List Doc) (paths : Fields) (s : Str)
    (rest : List Str) :
    (assemble base docs paths).resolve (lit "components" :: s :: rest) =
      if s ∈ componentSections then (repairedSection docs s).resolve rest else none := by
  rw [Json.resolve, child_assemble_components, Option.bind_some, Json.resolve, Json.child,
    getField_keyed]
  split <;> rfl

/-- A definition is there when it is the first of its name, in a section that is merged, and neither
shadowed nor dropped. -/
theorem resolve_component (hshape : ∀ doc ∈ docs, OpenApi doc) {s : Str}
    (hs : s ∈ componentSections) {name : Str} (hname : name ∉ inherited)
    (hkept : ¬ Dropped (mergedSection docs s) name) (below : List Str) :
    (repairedSection docs s).resolve (name :: below) = (firstComponent docs s name).bind fun d =>
      (repaired s name d).resolve below := by
  rw [Json.resolve, child_repairedSection hkept, getField_mergedSection hshape hs, if_neg hname,
    Option.bind_map]
  rfl

/-- A part of a document that the merge keeps. -/
inductive Kept (docs : List Doc) : Json → Prop
  | heading {base : Doc} {k : Str} {v : Json} : docs.head? = some base → k = lit "openapi" ∨
      k = lit "info" → getField base k = some v → Kept docs v
  | path {doc : Doc} {path : Str} {item : Json} : doc ∈ docs →
      pathItem (.obj doc) path = some item → Kept docs item
  | component {s name : Str} {d : Json} : firstComponent docs s name = some d → Kept docs d

theorem refs_heading {base : Doc} {ref : Str} {p : Str × Json} (hp : p ∈ stripFields (heading base))
    (href : ref ∈ p.2.refs) :
    ∃ k v, (k = lit "openapi" ∨ k = lit "info") ∧ getField base k = some v ∧ ref ∈ v.refs := by
  rw [stripFields_eq, heading, List.mem_map] at hp
  obtain ⟨⟨k, v⟩, hkv, rfl⟩ := hp
  rw [mem_refs_strip] at href
  simp only [List.mem_append, List.mem_map, Option.mem_toList, Prod.mk.injEq] at hkv
  obtain ⟨w, hw, rfl, rfl⟩ | ⟨w, hw, rfl, rfl⟩ := hkv
  · exact ⟨_, w, .inl rfl, hw, href⟩
  · exact ⟨_, w, .inr rfl, hw, href⟩

/-- A reference in the paths is one of an item, or of the proof. -/
theorem refs_boundPaths (hshape : ∀ doc ∈ docs, OpenApi doc)
    (hdisjoint : docs.Pairwise DisjointPaths) {ref : Str}
    (href : ref ∈ (Json.obj (boundPaths docs)).refs) :
    (∃ j, Kept docs j ∧ ref ∈ j.refs) ∨ bindsProof docs = true ∧ ref ∈ proofItem.refs := by
  have hpaths : ∀ p ∈ stripFields (mergedPaths docs), ref ∈ p.2.refs → ∃ j, Kept docs j ∧
      ref ∈ j.refs := by
    intro p hp href
    rw [stripFields_eq, List.mem_map] at hp
    obtain ⟨q, hq, rfl⟩ := hp
    rw [mem_refs_strip] at href
    obtain ⟨doc, hdoc, hitem⟩ :=
      (getField_mergedPaths hshape hdisjoint).mp (getField_of_mem (nodup_mergedPaths docs) hq)
    exact ⟨q.2, .path hdoc hitem, href⟩
  have hown : getField (stripFields (mergedPaths docs)) (lit "$ref") = none := by
    rw [getField_stripFields, mergedPaths_key hshape hdisjoint (by decide) (by decide)]
    rfl
  rw [boundPaths, mem_refs_obj] at href
  cases hbinds : bindsProof docs with
  | false =>
    rw [hbinds, if_neg Bool.false_ne_true, hown] at href
    obtain hnone | ⟨p, hp, href⟩ := href
    · cases hnone
    · exact .inl (hpaths p hp href)
  | true =>
    rw [hbinds, if_pos rfl, getField_setField, if_neg (by decide), hown] at href
    obtain hnone | ⟨p, hp, href⟩ := href
    · cases hnone
    · obtain rfl | hmem := mem_setField hp
      · exact .inr ⟨rfl, href⟩
      · exact .inl (hpaths p hmem href)

/-- A reference in a section is one of a definition. -/
theorem refs_repairedSection (hshape : ∀ doc ∈ docs, OpenApi doc) {s : Str}
    (hs : s ∈ componentSections) {ref : Str} (href : ref ∈ (repairedSection docs s).refs) :
    ∃ j, Kept docs j ∧ ref ∈ j.refs := by
  rw [mem_refs_repairedSection, mem_refs_obj] at href
  obtain hown | ⟨p, hp, href⟩ := href
  · -- a definition named `$ref` is no text
    obtain ⟨_, he⟩ | ⟨_, he⟩ := mergedSection_definition hshape hs hown <;> cases he
  · have hfield := getField_of_mem (nodup_mergedSection docs s) hp
    rw [getField_mergedSection hshape hs] at hfield
    split at hfield
    · cases hfield
    · exact ⟨p.2, .component hfield, href⟩

/-- A reference in the merged document is one of a part that is kept, or of the proof. -/
theorem refs_assemble {base : Doc} (hbase : docs.head? = some base)
    (hshape : ∀ doc ∈ docs, OpenApi doc) (hdisjoint : docs.Pairwise DisjointPaths) {ref : Str}
    (href : ref ∈ (assemble base docs (boundPaths docs)).refs) :
    (∃ j, Kept docs j ∧ ref ∈ j.refs) ∨ bindsProof docs = true ∧ ref ∈ proofItem.refs := by
  have hown : (assemble base docs (boundPaths docs)).child (lit "$ref") = none :=
    (child_assemble base docs (boundPaths docs) (by decide) (by decide)).trans rfl
  rw [assemble, Json.child] at hown
  rw [assemble, mem_refs_obj, hown] at href
  obtain hnone | ⟨p, hp, href⟩ := href
  · cases hnone
  rcases List.mem_append.mp hp with hheading | hparts
  · obtain ⟨k, v, hk, hv, href⟩ := refs_heading hheading href
    exact .inl ⟨v, .heading hbase hk hv, href⟩
  · simp only [List.mem_cons, List.not_mem_nil, or_false] at hparts
    obtain rfl | rfl := hparts
    · exact refs_boundPaths hshape hdisjoint href
    · rw [mem_refs_obj, getField_keyed, if_neg (by decide)] at href
      obtain hnone | ⟨q, hq, href⟩ := href
      · cases hnone
      · obtain ⟨s, hs, rfl⟩ := List.mem_map.mp hq
        exact .inl (refs_repairedSection hshape hs href)

end Wayfinder.Service.Spec

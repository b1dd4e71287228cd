import Wayfinder.Js.Stringify

/-! Reading values that are equal up to the order of their keys.

Such values are of one kind; what stands under a key, and what is left when a key is
taken away, is again equal up to order. Sorting is stable, so this holds of any list of
fields, whether or not a key stands in it twice. Values with the same text are read alike, but
for what JSON prints as `null`. -/
namespace Wayfinder.Js

/-! ### Sorting and the fields of an object -/

abbrev keyLe {α : Type} (a b : Str × α) : Prop := a.1 ≤ b.1

theorem getField_orderedInsert (p : Str × Json) (fs : Fields) (k : Str) :
    getField (fs.orderedInsert keyLe p) k = if p.1 = k then some p.2 else getField fs k := by
  induction fs with
  | nil => rfl
  | cons q rest ih =>
    rw [List.orderedInsert_cons]
    split
    · rfl
    · next hlt =>
      have hne : q.1 ≠ p.1 := fun he => hlt (show p.1 ≤ q.1 from he ▸ List.le_refl q.1)
      show (if q.1 = k then some q.2 else getField (rest.orderedInsert keyLe p) k) = _
      rw [ih]
      show _ = if p.1 = k then some p.2 else if q.1 = k then some q.2 else getField rest k
      by_cases hq : q.1 = k
      · have hp : p.1 ≠ k := fun hp => hne (hq.trans hp.symm)
        simp [hq, hp]
      · simp [hq]

/-- The order of the keys does not change what stands under one. -/
theorem getField_sortByKey (fs : Fields) (k : Str) : getField (sortByKey fs) k = getField fs k := by
  induction fs with
  | nil => rfl
  | cons p rest ih =>
    show getField ((sortByKey rest).orderedInsert keyLe p) k = _
    rw [getField_orderedInsert, ih]
    rfl

theorem filter_orderedInsert {α : Type} (f : Str × α → Bool) (p : Str × α) :
    ∀ {l : List (Str × α)}, l.Pairwise keyLe → (l.orderedInsert keyLe p).filter f =
      if f p then (l.filter f).orderedInsert keyLe p else l.filter f
  | [], _ => by by_cases hp : f p <;> simp [hp]
  | q :: l, h => by
    obtain ⟨hq, hl⟩ := List.pairwise_cons.mp h
    by_cases hle : keyLe p q
    · rw [List.orderedInsert_cons, if_pos hle]
      by_cases hp : f p
      · have hall : ∀ x ∈ (q :: l).filter f, keyLe p x := by
          intro x hx
          rcases List.mem_cons.mp (List.mem_of_mem_filter hx) with rfl | hx
          · exact hle
          · exact List.le_trans hle (hq x hx)
        rw [List.filter_cons_of_pos hp, if_pos hp]
        cases hfl : (q :: l).filter f with
        | nil => rfl
        | cons x xs =>
          rw [List.orderedInsert_cons, if_pos (hall x (hfl ▸ List.mem_cons_self ..))]
      · rw [List.filter_cons_of_neg hp, if_neg hp]
    · rw [List.orderedInsert_cons, if_neg hle]
      by_cases hf : f q
      · rw [List.filter_cons_of_pos hf, filter_orderedInsert f p hl, List.filter_cons_of_pos hf]
        by_cases hp : f p
        · rw [if_pos hp, if_pos hp, List.orderedInsert_cons, if_neg hle]
        · rw [if_neg hp, if_neg hp]
      · rw [List.filter_cons_of_neg hf, filter_orderedInsert f p hl, List.filter_cons_of_neg hf]

theorem dropField_sortByKey (fs : Fields) (k : Str) :
    dropField (sortByKey fs) k = sortByKey (dropField fs k) := by
  induction fs with
  | nil => rfl
  | cons p rest ih =>
    show (List.orderedInsert keyLe p (sortByKey rest)).filter _ = _
    have hsorted : (sortByKey rest).Pairwise keyLe := List.pairwise_insertionSort _ _
    rw [filter_orderedInsert _ _ hsorted]
    show (if _ then List.orderedInsert keyLe p (dropField (sortByKey rest) k)
      else dropField (sortByKey rest) k) = _
    rw [ih]
    show _ = sortByKey (List.filter _ (p :: rest))
    by_cases hp : p.1 = k
    · rw [if_neg (by simp [hp]), List.filter_cons_of_neg (by simp [hp])]
      rfl
    · rw [if_pos (by simp [hp]), List.filter_cons_of_pos (by simp [hp])]
      rfl

theorem dropField_map (f : Json → Json) (fs : Fields) (k : Str) :
    dropField (fs.map fun p => (p.1, f p.2)) k = (dropField fs k).map fun p => (p.1, f p.2) := by
  unfold dropField
  rw [List.filter_map]
  rfl

/-! ### Values equal up to order -/

namespace KeyEquiv

theorem obj_iff {fs gs : Fields} :
    KeyEquiv (.obj fs) (.obj gs) ↔ (sortByKey fs).map
      (fun p => (p.1, p.2.sortKeys)) = (sortByKey gs).map (fun p => (p.1, p.2.sortKeys)) := by
  unfold KeyEquiv
  rw [sortKeys_obj, sortKeys_obj, Json.obj.injEq]

theorem kind {a b : Json} (h : KeyEquiv a b) : Js.kind a = Js.kind b := by
  have hk : ∀ j : Json, Js.kind j.sortKeys = Js.kind j := fun j => by cases j <;> rfl
  rw [← hk a, h, hk b]

theorem obj_left {fs : Fields} {b : Json} (h : KeyEquiv (.obj fs) b) : ∃ gs, b = .obj gs := by
  have := h.kind
  cases b with
  | obj gs => exact ⟨gs, rfl⟩
  | _ => exact absurd this (by simp [Js.kind])

theorem str_left {s : Str} {b : Json} (h : KeyEquiv (.str s) b) : b = .str s := by
  have hk := h.kind
  cases b with
  | str t => rw [Json.str.inj h]
  | _ => exact absurd hk (by simp [Js.kind])

/-- What stands under a key is equal up to order. -/
theorem getField {fs gs : Fields} (h : KeyEquiv (.obj fs) (.obj gs)) (k : Str) :
    (Js.getField fs k).map Json.sortKeys = (Js.getField gs k).map Json.sortKeys := by
  have := congrArg (fun l => Js.getField l k) (obj_iff.mp h)
  simpa only [getField_map, getField_sortByKey] using this

theorem getField_some {fs gs : Fields} (h : KeyEquiv (.obj fs) (.obj gs)) {k : Str} {v : Json}
    (hv : Js.getField fs k = some v) : ∃ w, Js.getField gs k = some w ∧ KeyEquiv v w := by
  have := h.getField k
  rw [hv] at this
  obtain ⟨w, hw, he⟩ := Option.map_eq_some_iff.mp this.symm
  exact ⟨w, hw, he.symm⟩

/-- What is left without a key is equal up to order. -/
theorem dropField {fs gs : Fields} (h : KeyEquiv (.obj fs) (.obj gs)) (k : Str) :
    KeyEquiv (.obj (Js.dropField fs k)) (.obj (Js.dropField gs k)) := by
  have := congrArg (fun l => Js.dropField l k) (obj_iff.mp h)
  simp only [dropField_map, dropField_sortByKey] at this
  exact obj_iff.mpr this

end KeyEquiv

/-! ### Values with the same text -/

namespace SameText

theorem stableText {a b : Json} (h : SameText a b) : Js.stableText a = Js.stableText b :=
  (stableText_eq_iff a b).mpr h

/-- What is no `null` does not come of an infinity. -/
theorem reparsed_num (q : Number) :
    (Json.num q).reparsed = .num q ∨ (Json.num q).reparsed = .null := by
  rw [Json.reparsed]
  split
  · exact .inl rfl
  · exact .inr rfl

theorem obj_left {fs : Fields} {b : Json} (h : SameText (.obj fs) b) : ∃ gs, b = .obj gs := by
  rw [SameText, reparsed_obj] at h
  obtain ⟨gs, hgs⟩ := KeyEquiv.obj_left h
  cases b with
  | obj gs => exact ⟨gs, rfl⟩
  | num q => rcases reparsed_num q with hq | hq <;> cases hq.symm.trans hgs
  | arr items => cases (reparsed_arr items).symm.trans hgs
  | _ => cases hgs

theorem str_left {s : Str} {b : Json} (h : SameText (.str s) b) : b = .str s := by
  have hs : b.reparsed = .str s := KeyEquiv.str_left h
  cases b with
  | str t => exact hs
  | num q => rcases reparsed_num q with hq | hq <;> cases hq.symm.trans hs
  | arr items => cases (reparsed_arr items).symm.trans hs
  | obj fs => cases (reparsed_obj fs).symm.trans hs
  | _ => cases hs

theorem obj_iff {fs gs : Fields} :
    SameText (.obj fs) (.obj gs) ↔ KeyEquiv (.obj (fs.map fun p => (p.1, p.2.reparsed)))
      (.obj (gs.map fun p => (p.1, p.2.reparsed))) := by
  rw [SameText, reparsed_obj, reparsed_obj]

/-- Arrays with the same text are so item by item. -/
theorem arr_left {xs : List Json} {b : Json} (h : SameText (.arr xs) b) :
    ∃ ys, b = .arr ys ∧ List.Forall₂ SameText xs ys := by
  rw [SameText, reparsed_arr] at h
  cases b with
  | arr ys =>
    rw [reparsed_arr, KeyEquiv, sortKeys_arr, sortKeys_arr, Json.arr.injEq, List.map_map,
      List.map_map] at h
    refine ⟨ys, rfl, ?_⟩
    rw [← List.forall₂_eq_eq_eq, List.forall₂_map_left_iff, List.forall₂_map_right_iff] at h
    exact h
  | num q => rcases reparsed_num q with hq | hq <;> cases (hq ▸ h).kind
  | obj fs => cases (reparsed_obj fs ▸ h).kind
  | _ => cases h.kind

theorem getField_some {fs gs : Fields} (h : SameText (.obj fs) (.obj gs)) {k : Str} {v : Json}
    (hv : Js.getField fs k = some v) : ∃ w, Js.getField gs k = some w ∧ SameText v w := by
  obtain ⟨u, hu, he⟩ :=
    (obj_iff.mp h).getField_some (k := k) (v := v.reparsed) (by rw [getField_map, hv]; rfl)
  rw [getField_map] at hu
  obtain ⟨w, hw, rfl⟩ := Option.map_eq_some_iff.mp hu
  exact ⟨w, hw, he⟩

theorem dropField {fs gs : Fields} (h : SameText (.obj fs) (.obj gs)) (k : Str) :
    SameText (.obj (Js.dropField fs k)) (.obj (Js.dropField gs k)) := by
  rw [obj_iff, ← dropField_map, ← dropField_map]
  exact (obj_iff.mp h).dropField k

/-- An object with the text of one that holds only strings is that object, up to the order of
keys. -/
theorem keyEquiv_of_strs {fs gs : Fields} (h : SameText (.obj fs) (.obj gs))
    (hgs : ∀ p ∈ gs, ∃ s, p.2 = .str s) :
    KeyEquiv (.obj fs) (.obj gs) := by
  have hfinite : ∀ {ps : Fields}, (∀ p ∈ ps, ∃ s, p.2 = .str s) → (Json.obj ps).Finite := by
    intro ps hps
    rw [finite_obj]
    intro p hp
    obtain ⟨s, hs⟩ := hps p hp
    rw [hs]
    trivial
  refine (sameText_iff (hfinite fun p hp => ?_) (hfinite hgs)).mp h
  have hmem : (p.1, p.2.reparsed.sortKeys) ∈ (sortByKey (fs.map fun p => (p.1, p.2.reparsed))).map
      fun p => (p.1, p.2.sortKeys) :=
    List.mem_map.mpr ⟨(p.1, p.2.reparsed), mem_sortByKey.mpr (List.mem_map.mpr ⟨p, hp, rfl⟩), rfl⟩
  rw [KeyEquiv.obj_iff.mp (obj_iff.mp h)] at hmem
  obtain ⟨q, hq, hqp⟩ := List.mem_map.mp hmem
  obtain ⟨g, hg, rfl⟩ := List.mem_map.mp (mem_sortByKey.mp hq)
  obtain ⟨s, hs⟩ := hgs g hg
  have hstr : SameText (.str s) p.2 := by
    rw [SameText, KeyEquiv, ← (Prod.mk.inj hqp).2, hs]
  exact ⟨s, hstr.str_left⟩

end SameText

end Wayfinder.Js

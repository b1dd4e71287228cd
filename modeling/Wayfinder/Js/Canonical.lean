import Wayfinder.Js.KeyEquiv

/-! Values whose keys are unique, and their text as the source writes it.

The objects of JavaScript have each key once. Of such values `Same` says when two are equal
but for the order of keys: as many keys, and equal values under each. This is `KeyEquiv`
(`keyEquiv_iff_same`), so it is what one text means. `keyedText` follows the source to the
letter, which sorts the keys and looks each of them up; it is `stableText`
(`keyedText_eq`). -/
namespace Wayfinder.Js

/-! ### Unique keys -/

mutual

/-- No object within a value has a key twice. -/
def Json.UniqueKeys : Json → Prop
  | .arr items => uniqueItems items
  | .obj fs => (fs.map Prod.fst).Nodup ∧ uniqueFields fs
  | .null => True
  | .bool _ => True
  | .num _ => True
  | .str _ => True

def uniqueItems : List Json → Prop
  | [] => True
  | j :: rest => j.UniqueKeys ∧ uniqueItems rest

def uniqueFields : List (Str × Json) → Prop
  | [] => True
  | (_, v) :: rest => v.UniqueKeys ∧ uniqueFields rest

end

/-- A JSON value. -/
structure Value where
  json : Json
  unique : json.UniqueKeys
  finite : json.Finite

theorem uniqueItems_iff {items : List Json} : uniqueItems items ↔ ∀ j ∈ items, j.UniqueKeys := by
  induction items with
  | nil => simp [uniqueItems]
  | cons j rest ih => rw [uniqueItems, ih, List.forall_mem_cons]

theorem uniqueFields_iff {fs : Fields} : uniqueFields fs ↔ ∀ p ∈ fs, p.2.UniqueKeys := by
  induction fs with
  | nil => simp [uniqueFields]
  | cons p rest ih =>
    obtain ⟨k, v⟩ := p
    rw [uniqueFields, ih, List.forall_mem_cons]

/-! ### Equality but for the order of keys -/

mutual

/-- Two values alike: scalars equal, arrays item by item, objects with as many keys and
alike under each key. -/
def Json.Same : Json → Json → Prop
  | .null, .null => True
  | .bool a, .bool b => a = b
  | .num a, .num b => a = b
  | .str a, .str b => a = b
  | .arr xs, .arr ys => sameItems xs ys
  | .obj fs, .obj gs => fs.length = gs.length ∧ sameFields fs gs
  | _, _ => False
termination_by structural x => x

def sameItems : List Json → List Json → Prop
  | [], [] => True
  | x :: xs, y :: ys => x.Same y ∧ sameItems xs ys
  | _, _ => False
termination_by structural xs => xs

def sameFields : List (Str × Json) → Fields → Prop
  | [], _ => True
  | (k, v) :: rest, gs => (∃ w, getField gs k = some w ∧ v.Same w) ∧ sameFields rest gs
termination_by structural fs => fs

end

theorem sameItems_iff {xs ys : List Json} : sameItems xs ys ↔ List.Forall₂ Json.Same xs ys := by
  induction xs generalizing ys with
  | nil => cases ys <;> simp [sameItems]
  | cons x xs ih => cases ys <;> simp [sameItems, ih]

theorem sameFields_iff {fs gs : Fields} :
    sameFields fs gs ↔ ∀ p ∈ fs, ∃ w, getField gs p.1 = some w ∧ p.2.Same w := by
  induction fs with
  | nil => simp [sameFields]
  | cons p rest ih =>
    obtain ⟨k, v⟩ := p
    rw [sameFields, ih, List.forall_mem_cons]

/-- Sorting forgets the order, where no key repeats. -/
theorem sortByKey_eq_of_perm {α : Type} {fs gs : List (Str × α)} (hn : (fs.map Prod.fst).Nodup)
    (h : fs.Perm gs) : sortByKey fs = sortByKey gs := by
  have hsorted : ∀ l : List (Str × α), (sortByKey l).Pairwise fun a b => a.1 ≤ b.1 :=
    fun l => List.pairwise_insertionSort _ _
  have hperm : (sortByKey fs).Perm (sortByKey gs) :=
    (List.perm_insertionSort _ fs).trans (h.trans (List.perm_insertionSort _ gs).symm)
  refine hperm.eq_of_pairwise (fun a b ha hb hab hba => ?_) (hsorted fs) (hsorted gs)
  have hb' := mem_sortByKey.mp (hperm.mem_iff.mpr hb)
  exact List.inj_on_of_nodup_map hn (mem_sortByKey.mp ha) hb' (List.le_antisymm hab hba)

theorem map_sortKeys_eq_iff {xs ys : List Json} (h : ∀ x ∈ xs, ∀ y ∈ ys, KeyEquiv x y ↔ x.Same y) :
    xs.map Json.sortKeys = ys.map Json.sortKeys ↔ List.Forall₂ Json.Same xs ys := by
  induction xs generalizing ys with
  | nil => cases ys <;> simp
  | cons x xs ih =>
    cases ys with
    | nil => simp
    | cons y ys =>
      have hx := h x (List.mem_cons_self ..) y (List.mem_cons_self ..)
      have hxs := ih fun u hu v hv => h u (List.mem_cons_of_mem x hu) v (List.mem_cons_of_mem y hv)
      rw [List.map_cons, List.map_cons, List.cons.injEq, List.forall₂_cons, ← hxs, ← hx]
      rfl

/-- **Values with unique keys are equal up to order exactly when they are alike.** -/
theorem keyEquiv_iff_same {a b : Json} (ha : a.UniqueKeys) (hb : b.UniqueKeys) :
    KeyEquiv a b ↔ a.Same b := by
  induction a using Json.induct generalizing b with
  | null => cases b <;> simp [KeyEquiv, Json.sortKeys, Json.Same]
  | bool x => cases b <;> simp [KeyEquiv, Json.sortKeys, Json.Same]
  | num x => cases b <;> simp [KeyEquiv, Json.sortKeys, Json.Same]
  | str x => cases b <;> simp [KeyEquiv, Json.sortKeys, Json.Same]
  | arr xs ih =>
    cases b with
    | arr ys =>
      rw [Json.UniqueKeys, uniqueItems_iff] at ha hb
      rw [Json.Same, sameItems_iff, KeyEquiv, sortKeys_arr, sortKeys_arr, Json.arr.injEq]
      exact map_sortKeys_eq_iff fun x hx y hy => ih x hx (ha x hx) (hb y hy)
    | _ => simp [KeyEquiv, Json.sortKeys, Json.Same]
  | obj fs ih =>
    cases b with
    | obj gs =>
      rw [Json.UniqueKeys, uniqueFields_iff] at ha hb
      rw [Json.Same, sameFields_iff]
      apply Iff.intro
      · intro h
        refine ⟨?_, fun p hp => ?_⟩
        · simpa [sortByKey] using congrArg List.length (KeyEquiv.obj_iff.mp h)
        · obtain ⟨w, hw, he⟩ := h.getField_some (getField_of_mem ha.1 hp)
          exact ⟨w, hw, (ih p hp (ha.2 p hp) (hb.2 _ (mem_of_getField hw))).mp he⟩
      · intro h
        obtain ⟨hlen, hsame⟩ := h
        have hkeys : ∀ l : Fields,
            (l.map fun p => (p.1, p.2.sortKeys)).map Prod.fst = l.map Prod.fst := by
          intro l
          rw [List.map_map]
          rfl
        -- the sorted fields of the one are among the sorted fields of the other, and as many
        have hsubset : fs.map (fun p => (p.1, p.2.sortKeys)) ⊆ gs.map
            (fun p => (p.1, p.2.sortKeys)) := by
          intro q hq
          obtain ⟨p, hp, rfl⟩ := List.mem_map.mp hq
          obtain ⟨w, hw, he⟩ := hsame p hp
          have hwmem := mem_of_getField hw
          have hequiv : KeyEquiv p.2 w := (ih p hp (ha.2 p hp) (hb.2 _ hwmem)).mpr he
          exact List.mem_map.mpr ⟨(p.1, w), hwmem, Prod.ext rfl hequiv.symm⟩
        have hnodup : (fs.map fun p => (p.1, p.2.sortKeys)).Nodup :=
          List.Nodup.of_map Prod.fst (by rw [hkeys]; exact ha.1)
        have hperm := (List.subperm_of_subset hnodup hsubset).perm_of_length_le (by simp [hlen])
        have hsort := sortByKey_eq_of_perm (by rw [hkeys]; exact ha.1) hperm
        rw [sortByKey_map, sortByKey_map] at hsort
        exact KeyEquiv.obj_iff.mpr hsort
    | _ => simp [KeyEquiv, Json.sortKeys, Json.Same]

/-! ### The text, key by key -/

/-- `Object.keys(o).sort()` -/
def sortedKeys {α : Type} (fs : List (Str × α)) : List Str :=
  (fs.map Prod.fst).insertionSort (· ≤ ·)

mutual

/-- The text of a value as it is written in the source: the keys of an object are sorted and
each is looked up. -/
def keyedText : Json → Str
  | .arr items => 91 :: (joinComma (keyedItems items) ++ [93])
  | .obj fs =>
    let texts := keyedFields fs
    123 :: (joinComma ((sortedKeys texts).map fun k =>
      quote k ++ 58 :: (texts.lookup k).getD []) ++ [125])
  | .null => stringify .null
  | .bool b => stringify (.bool b)
  | .num q => stringify (.num q)
  | .str s => stringify (.str s)

def keyedItems : List Json → List Str
  | [] => []
  | j :: rest => keyedText j :: keyedItems rest

def keyedFields : List (Str × Json) → List (Str × Str)
  | [] => []
  | (k, v) :: rest => (k, keyedText v) :: keyedFields rest

end

theorem keyedItems_eq (items : List Json) : keyedItems items = items.map keyedText := by
  induction items with
  | nil => rfl
  | cons j rest ih => rw [keyedItems, ih, List.map_cons]

theorem keyedFields_eq (fs : Fields) : keyedFields fs = fs.map (fun p => (p.1, keyedText p.2)) := by
  induction fs with
  | nil => rfl
  | cons p rest ih =>
    obtain ⟨k, v⟩ := p
    rw [keyedFields, ih, List.map_cons]

theorem lookup_of_mem {α : Type} {l : List (Str × α)} (hn : (l.map Prod.fst).Nodup) {p : Str × α}
    (h : p ∈ l) :
    l.lookup p.1 = some p.2 := by
  induction l with
  | nil => cases h
  | cons q rest ih =>
    obtain ⟨k, v⟩ := q
    rw [List.map_cons, List.nodup_cons] at hn
    rw [List.lookup_cons]
    rcases List.mem_cons.mp h with rfl | h
    · simp
    · have hne : (p.1 == k) = false :=
        beq_eq_false_iff_ne.mpr fun he => hn.1 (he ▸ List.mem_map.mpr ⟨p, h, rfl⟩)
      rw [hne, ih hn.2 h]

theorem sortedKeys_eq {α : Type} (l : List (Str × α)) : sortedKeys l = (sortByKey l).map Prod.fst :=
  (List.map_insertionSort (fun a b : Str × α => a.1 ≤ b.1) (· ≤ ·) Prod.fst l fun _ _ _ _ =>
    Iff.rfl).symm

/-- **Looking up the sorted keys one by one prints the fields in order.** -/
theorem keyedText_eq {j : Json} (h : j.UniqueKeys) : keyedText j = stableText j := by
  induction j using Json.induct with
  | null => rfl
  | bool b => rfl
  | num q => rfl
  | str s => rfl
  | arr items ih =>
    rw [Json.UniqueKeys, uniqueItems_iff] at h
    rw [keyedText, keyedItems_eq, stableText_arr, List.map_congr_left fun j hj => ih j hj (h j hj)]
  | obj fs ih =>
    rw [Json.UniqueKeys, uniqueFields_iff] at h
    have htexts : keyedFields fs = fs.map fun p => (p.1, stableText p.2) := by
      rw [keyedFields_eq]
      exact List.map_congr_left fun p hp => by rw [ih p hp (h.2 p hp)]
    have hnodup : ((fs.map fun p => (p.1, stableText p.2)).map Prod.fst).Nodup := by
      rw [List.map_map]
      exact h.1
    rw [keyedText, htexts, stableText, stableFields_eq, sortedKeys_eq, List.map_map]
    refine congrArg (fun ts => 123 :: (joinComma ts ++ [125])) (List.map_congr_left fun p hp => ?_)
    show quote p.1 ++ 58 :: (List.lookup p.1 _).getD [] = fieldText p
    rw [lookup_of_mem hnodup (mem_sortByKey.mp hp)]
    rfl

end Wayfinder.Js

import Wayfinder.Js.Number
import Mathlib

/-! JSON values, as the service reads and builds them.

An object is its fields in insertion order. `sortKeys` puts every object of a value in
key order, at every depth; two values with the same `sortKeys` differ in the order
of their keys and in nothing else, and that is `KeyEquiv`. -/
namespace Wayfinder.Js

inductive Json where
  | null
  | bool (b : Bool)
  | num (q : Number)
  | str (s : Str)
  | arr (items : List Json)
  | obj (fields : List (Str × Json))

/-- The own fields of an object, in insertion order. -/
abbrev Fields := List (Str × Json)

/-- What a statement can throw: an `Error` of the source with its message, a
`TypeError` of the engine, or an error of a library. -/
inductive Thrown where
  | error (message : Str)
  | typeError
  | library

/-! ### Fields -/

/-- `o[k]` -/
def getField : Fields → Str → Option Json
  | [], _ => none
  | (k', v) :: rest, k => if k' = k then some v else getField rest k

/-- `o[k] = v`: in place when the key is there, at the end when it is not. -/
def setField : Fields → Str → Json → Fields
  | [], k, v => [(k, v)]
  | (k', w) :: rest, k, v => if k' = k then (k, v) :: rest else (k', w) :: setField rest k v

/-- `const { [k]: _, ...rest } = o` -/
def dropField (fs : Fields) (k : Str) : Fields := fs.filter (fun p => p.1 != k)

/-- `{ ...fs, ...gs }` -/
def assignFields (fs gs : Fields) : Fields := gs.foldl (fun acc p => setField acc p.1 p.2) fs

@[simp] theorem getField_nil (k : Str) : getField [] k = none := rfl

@[simp] theorem getField_cons (k' k : Str) (v : Json) (rest : Fields) :
    getField ((k', v) :: rest) k = if k' = k then some v else getField rest k := rfl

theorem getField_eq_none {fs : Fields} {k : Str} : getField fs k = none ↔ k ∉ fs.map Prod.fst := by
  induction fs with
  | nil => simp
  | cons p rest ih =>
    rw [getField_cons, List.map_cons, List.mem_cons, not_or]
    by_cases hk : p.1 = k
    · simp [hk]
    · simp [hk, ih, Ne.symm hk]

theorem mem_of_getField {fs : Fields} {k : Str} {v : Json}
    (h : getField fs k = some v) : (k, v) ∈ fs := by
  induction fs with
  | nil => cases h
  | cons p rest ih =>
    rw [getField_cons] at h
    split at h
    · next hk =>
      rw [← hk, ← Option.some.inj h]
      exact List.mem_cons_self ..
    · exact List.mem_cons_of_mem _ (ih h)

theorem getField_of_mem {fs : Fields} (hn : (fs.map Prod.fst).Nodup) {p : Str × Json} (h : p ∈ fs) :
    getField fs p.1 = some p.2 := by
  induction fs with
  | nil => cases h
  | cons q rest ih =>
    rw [List.map_cons, List.nodup_cons] at hn
    rw [getField_cons]
    rcases List.mem_cons.mp h with rfl | h
    · rw [if_pos rfl]
    · have hne : q.1 ≠ p.1 := fun he => hn.1 (he ▸ List.mem_map.mpr ⟨p, h, rfl⟩)
      rw [if_neg hne, ih hn.2 h]

theorem getField_map (f : Json → Json) (fs : Fields) (k : Str) :
    getField (fs.map fun p => (p.1, f p.2)) k = (getField fs k).map f := by
  induction fs with
  | nil => rfl
  | cons p rest ih =>
    rw [List.map_cons, getField_cons, ih]
    show _ = Option.map f (if p.1 = k then some p.2 else getField rest k)
    split <;> rfl

theorem getField_setField (fs : Fields) (k k' : Str) (v : Json) :
    getField (setField fs k v) k' = if k = k' then some v else getField fs k' := by
  induction fs with
  | nil => simp [setField]
  | cons p rest ih =>
    obtain ⟨k₀, w⟩ := p
    by_cases h₀ : k₀ = k
    · subst h₀
      simp only [setField, if_true, getField_cons]
      by_cases h : k₀ = k' <;> simp [h]
    · simp only [setField, h₀, if_false, getField_cons, ih]
      by_cases h : k₀ = k'
      · have hk : k ≠ k' := fun he => h₀ (h.trans he.symm)
        simp [h, hk]
      · simp [h]

theorem getField_dropField (fs : Fields) (k k' : Str) :
    getField (dropField fs k) k' = if k = k' then none else getField fs k' := by
  induction fs with
  | nil => simp [dropField]
  | cons p rest ih =>
    obtain ⟨k₀, w⟩ := p
    simp only [dropField] at ih
    by_cases h₀ : k₀ = k
    · subst h₀
      simp only [dropField, List.filter_cons, bne_self_eq_false, Bool.false_eq_true, if_false, ih,
        getField_cons]
      by_cases h : k₀ = k' <;> simp [h]
    · simp only [dropField, List.filter_cons, bne_iff_ne, ne_eq, h₀, not_false_eq_true, if_true,
        getField_cons, ih]
      by_cases h : k₀ = k'
      · have hk : k ≠ k' := fun he => h₀ (h.trans he.symm)
        simp [h, hk]
      · simp [h]

/-- A key that is never assigned keeps its value. -/
theorem getField_assignFields (fs gs : Fields) (k : Str) (h : getField gs k = none) :
    getField (assignFields fs gs) k = getField fs k := by
  induction gs generalizing fs with
  | nil => rfl
  | cons p rest ih =>
    obtain ⟨k₀, w⟩ := p
    rw [getField_cons] at h
    split at h
    · exact absurd h (by simp)
    · next hne =>
      show getField (assignFields (setField fs k₀ w) rest) k = _
      rw [ih (setField fs k₀ w) h, getField_setField, if_neg hne]

/-- What is assigned is read, where no key is assigned twice. -/
theorem getField_assignFields_or (fs : Fields) {gs : Fields} (hkeys : (gs.map Prod.fst).Nodup)
    (k : Str) :
    getField (assignFields fs gs) k = (getField gs k).or (getField fs k) := by
  induction gs generalizing fs with
  | nil => rfl
  | cons p rest ih =>
    obtain ⟨k₀, w⟩ := p
    rw [List.map_cons, List.nodup_cons] at hkeys
    show getField (assignFields (setField fs k₀ w) rest) k = _
    rw [ih (setField fs k₀ w) hkeys.2, getField_setField, getField_cons]
    by_cases hk : k₀ = k
    · have hnone : getField rest k = none := by
        rw [getField_eq_none, ← hk]
        exact hkeys.1
      simp [hk, hnone]
    · simp [hk]

/-- A key that is only assigned the value it has keeps it. -/
theorem getField_assignFields_same {fs gs : Fields} {k : Str} {v : Json}
    (hf : getField fs k = some v) (hg : ∀ p ∈ gs, p.1 = k → p.2 = v) :
    getField (assignFields fs gs) k = some v := by
  induction gs generalizing fs with
  | nil => exact hf
  | cons p rest ih =>
    show getField (assignFields (setField fs p.1 p.2) rest) k = _
    refine ih ?_ fun q hq => hg q (List.mem_cons_of_mem p hq)
    rw [getField_setField]
    split
    · next hk => rw [hg p (List.mem_cons_self ..) hk]
    · exact hf

/-! ### Reading a value -/

namespace Json

/-- An own property of a value that is neither `null` nor `undefined`. None of the names
the service reads is on the prototype of a string, a number, an array or an object. -/
def prop : Json → Str → Option Json
  | .obj fs, k => getField fs k
  | _, _ => none

/-- Whether a value passes an `if`. -/
def truthy : Json → Bool
  | .null => false
  | .bool b => b
  | .num q => q != .zero
  | .str s => s != []
  | .arr _ => true
  | .obj _ => true

/-- `{ ...v }`: the own enumerable properties of any value. The elements of an array and
the code units of a string stand under their indices. -/
def spread : Json → Fields
  | .obj fs => fs
  | .arr items => items.zipIdx.map fun p => (natText p.2, p.1)
  | .str s => s.zipIdx.map fun p => (natText p.2, .str [p.1])
  | _ => []

/-- `v[0]` -/
def first : Json → Option Json
  | .arr (x :: _) => some x
  | .str (u :: _) => some (.str [u])
  | .obj fs => getField fs (lit "0")
  | _ => none

end Json

/-- `v === undefined || v === null`, of a value that may be missing. -/
def nullish : Option Json → Bool
  | none => true
  | some .null => true
  | some _ => false

/-- `v ?? w` -/
def orElse (v : Option Json) (w : Json) : Json :=
  match v with
  | none => w
  | some .null => w
  | some j => j

/-- `Boolean(v)`, of a value that may be missing. -/
def truthy : Option Json → Bool
  | none => false
  | some j => j.truthy

/-- `v.k`, which throws on `null` and on `undefined`. -/
def readProp (v : Option Json) (k : Str) : Except Thrown (Option Json) :=
  match v with
  | none => .error .typeError
  | some .null => .error .typeError
  | some j => .ok (j.prop k)

/-- `v?.k` -/
def readProp? (v : Option Json) (k : Str) : Option Json :=
  match v with
  | none => none
  | some j => j.prop k

/-- `v[0]`, which throws on `null` and on `undefined`. -/
def readFirst (v : Option Json) : Except Thrown (Option Json) :=
  match v with
  | none => .error .typeError
  | some .null => .error .typeError
  | some j => .ok j.first

/-- What a statement leads to after another that may throw. -/
theorem bind_ok {ε α β : Type} {x : Except ε α} {f : α → Except ε β} {b : β} :
    (x >>= f) = .ok b ↔ ∃ a, x = .ok a ∧ f a = .ok b := by
  cases x with
  | error e => simp [bind, Except.bind]
  | ok a => simp [bind, Except.bind]

/-! ### Induction over a value -/

/-- Every part of an array and every field of an object before the value itself. -/
theorem Json.induct {P : Json → Prop} (null : P .null) (bool : ∀ b, P (.bool b))
    (num : ∀ q, P (.num q)) (str : ∀ s, P (.str s))
    (arr : ∀ items, (∀ j ∈ items, P j) → P (.arr items))
    (obj : ∀ fields : Fields, (∀ p ∈ fields, P p.2) → P (.obj fields)) : ∀ j, P j := by
  intro j
  refine Json.rec (motive_1 := P) (motive_2 := fun items => ∀ j ∈ items, P j)
    (motive_3 := fun fields => ∀ p ∈ fields, P p.2) (motive_4 := fun p => P p.2)
    null bool num str arr obj ?_ ?_ ?_ ?_ ?_ j
  · intro j hj
    cases hj
  · intro x xs hx hxs j hj
    rcases List.mem_cons.mp hj with rfl | hj
    · exact hx
    · exact hxs j hj
  · intro p hp
    cases hp
  · intro p ps hp hps q hq
    rcases List.mem_cons.mp hq with rfl | hq
    · exact hp
    · exact hps q hq
  · intro _ _ h
    exact h

/-! ### Key order -/

/-- A list of keyed values in the order of `Array.prototype.sort` on the keys. -/
def sortByKey {α : Type} (fs : List (Str × α)) : List (Str × α) :=
  fs.insertionSort (fun a b => a.1 ≤ b.1)

mutual

/-- The value with the keys of every object in order. -/
def Json.sortKeys : Json → Json
  | .arr items => .arr (sortKeysItems items)
  | .obj fs => .obj (sortByKey (sortKeysFields fs))
  | .null => .null
  | .bool b => .bool b
  | .num q => .num q
  | .str s => .str s

def sortKeysItems : List Json → List Json
  | [] => []
  | j :: rest => j.sortKeys :: sortKeysItems rest

def sortKeysFields : List (Str × Json) → List (Str × Json)
  | [] => []
  | (k, v) :: rest => (k, v.sortKeys) :: sortKeysFields rest

end

/-- The same value up to the order of object keys. -/
def KeyEquiv (a b : Json) : Prop := a.sortKeys = b.sortKeys

theorem KeyEquiv.refl (a : Json) : KeyEquiv a a := rfl

theorem KeyEquiv.symm {a b : Json} (h : KeyEquiv a b) : KeyEquiv b a := Eq.symm h

theorem KeyEquiv.trans {a b c : Json} (h : KeyEquiv a b) (h' : KeyEquiv b c) : KeyEquiv a c :=
  Eq.trans h h'

theorem sortKeysItems_eq (items : List Json) : sortKeysItems items = items.map Json.sortKeys := by
  induction items with
  | nil => rfl
  | cons j rest ih => rw [sortKeysItems, ih, List.map_cons]

theorem sortKeysFields_eq (fs : Fields) :
    sortKeysFields fs = fs.map (fun p => (p.1, p.2.sortKeys)) := by
  induction fs with
  | nil => rfl
  | cons p rest ih =>
    obtain ⟨k, v⟩ := p
    rw [sortKeysFields, ih, List.map_cons]

/-- Sorting sees the keys only. -/
theorem sortByKey_map {α β : Type} (f : α → β) (fs : List (Str × α)) :
    sortByKey (fs.map fun p => (p.1, f p.2)) = (sortByKey fs).map fun p => (p.1, f p.2) :=
  (List.map_insertionSort (fun a b : Str × α => a.1 ≤ b.1) (fun a b : Str × β => a.1 ≤ b.1)
    (fun p => (p.1, f p.2)) fs fun _ _ _ _ => Iff.rfl).symm

theorem mem_sortByKey {α : Type} {fs : List (Str × α)} {p : Str × α} : p ∈ sortByKey fs ↔ p ∈ fs :=
  List.mem_insertionSort _

theorem sortKeys_obj (fs : Fields) :
    (Json.obj fs).sortKeys = .obj ((sortByKey fs).map fun p => (p.1, p.2.sortKeys)) := by
  rw [Json.sortKeys, sortKeysFields_eq, sortByKey_map]

theorem sortKeys_arr (items : List Json) :
    (Json.arr items).sortKeys = .arr (items.map Json.sortKeys) := by
  rw [Json.sortKeys, sortKeysItems_eq]

end Wayfinder.Js

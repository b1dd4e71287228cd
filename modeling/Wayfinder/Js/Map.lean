import Mathlib

/-! JavaScript's `Map` and `Set`.

Both iterate in insertion order: setting a key that is there keeps its place, a new
key goes to the end. A map is its entries with the proof that no key stands twice,
so that an entry and what `get` returns for its key are the same thing. -/
namespace Wayfinder.Js

/-- A `Map`: entries in insertion order, each key once. -/
structure JsMap (κ ν : Type) where
  entries : List (κ × ν)
  nodup : (entries.map Prod.fst).Nodup

/-- A `Set`: members in insertion order, each once. -/
structure JsSet (α : Type) where
  items : List α
  nodup : items.Nodup

namespace JsMap

variable {κ ν : Type}

/-- `new Map()` -/
def empty : JsMap κ ν := ⟨[], List.nodup_nil⟩

/-- `[...m.values()]` -/
def values (m : JsMap κ ν) : List ν := m.entries.map Prod.snd

/-- `[...m.keys()]` -/
def keys (m : JsMap κ ν) : List κ := m.entries.map Prod.fst

theorem ext {m n : JsMap κ ν} (h : m.entries = n.entries) : m = n := by
  cases m
  cases n
  cases h
  rfl

variable [DecidableEq κ]

/-- `m.get(k)` -/
def get (m : JsMap κ ν) (k : κ) : Option ν := (m.entries.find? (fun p => p.1 = k)).map Prod.snd

/-- `m.has(k)` -/
def has (m : JsMap κ ν) (k : κ) : Bool := (m.get k).isSome

/-- The entries after setting a key. -/
def setEntries (es : List (κ × ν)) (k : κ) (v : ν) : List (κ × ν) :=
  if k ∈ es.map Prod.fst then es.map fun p => if p.1 = k then (k, v) else p else es ++ [(k, v)]

theorem setEntries_nodup (es : List (κ × ν)) (k : κ) (v : ν) (h : (es.map Prod.fst).Nodup) :
    ((setEntries es k v).map Prod.fst).Nodup := by
  unfold setEntries
  split
  · have : (es.map fun p => if p.1 = k then (k, v) else p).map Prod.fst = es.map Prod.fst := by
      rw [List.map_map]
      refine List.map_congr_left fun p _ => ?_
      by_cases hp : p.1 = k <;> simp [hp]
    rw [this]
    exact h
  · next hk =>
    rw [List.map_append, List.nodup_append]
    refine ⟨h, List.nodup_singleton _, ?_⟩
    intro a ha b hb
    have hb : b = k := by simpa using hb
    rw [hb]
    rintro rfl
    exact hk ha

/-- `m.set(k, v)` -/
def set (m : JsMap κ ν) (k : κ) (v : ν) : JsMap κ ν :=
  ⟨setEntries m.entries k v, setEntries_nodup m.entries k v m.nodup⟩

theorem get_empty (k : κ) : (empty : JsMap κ ν).get k = none := rfl

/-- What `get` returns is the entry of the key. -/
theorem get_eq_some {m : JsMap κ ν} {k : κ} {v : ν} : m.get k = some v ↔ (k, v) ∈ m.entries := by
  refine ⟨fun h => ?_, fun h => ?_⟩
  · obtain ⟨p, hp, rfl⟩ := Option.map_eq_some_iff.mp h
    have hk : p.1 = k := by simpa using List.find?_some hp
    exact hk ▸ List.mem_of_find?_eq_some hp
  · have hsome : (m.entries.find? (fun p => p.1 = k)).isSome :=
      List.find?_isSome.mpr ⟨(k, v), h, by simp⟩
    obtain ⟨p, hp⟩ := Option.isSome_iff_exists.mp hsome
    have hk : p.1 = k := by simpa using List.find?_some hp
    have hmem := List.mem_of_find?_eq_some hp
    have : p = (k, v) := List.inj_on_of_nodup_map m.nodup hmem h hk
    rw [get, hp, this]
    rfl

theorem get_eq_none {m : JsMap κ ν} {k : κ} : m.get k = none ↔ k ∉ m.entries.map Prod.fst := by
  rw [get, Option.map_eq_none_iff, List.find?_eq_none, List.mem_map]
  refine ⟨fun h hmem => ?_, fun h p hp he => ?_⟩
  · obtain ⟨p, hp, rfl⟩ := hmem
    exact h p hp (by simp)
  · exact h ⟨p, hp, by simpa using he⟩

theorem mem_values {m : JsMap κ ν} {v : ν} : v ∈ m.values ↔ ∃ k, m.get k = some v := by
  rw [values, List.mem_map]
  refine ⟨fun h => ?_, fun h => ?_⟩
  · obtain ⟨p, hp, rfl⟩ := h
    exact ⟨p.1, get_eq_some.mpr hp⟩
  · obtain ⟨k, h⟩ := h
    exact ⟨(k, v), get_eq_some.mp h, rfl⟩

/-- A new key goes to the end. -/
theorem entries_set_new {m : JsMap κ ν} {k : κ} (v : ν) (h : m.get k = none) :
    (m.set k v).entries = m.entries ++ [(k, v)] := by
  show setEntries m.entries k v = _
  rw [setEntries, if_neg (get_eq_none.mp h)]

theorem values_set_new {m : JsMap κ ν} {k : κ} (v : ν) (h : m.get k = none) :
    (m.set k v).values = m.values ++ [v] := by
  rw [values, entries_set_new v h, List.map_append]
  rfl

theorem keys_set_new {m : JsMap κ ν} {k : κ} (v : ν) (h : m.get k = none) :
    (m.set k v).keys = m.keys ++ [k] := by
  rw [keys, entries_set_new v h, List.map_append]
  rfl

/-- A key that is there keeps its place. -/
theorem entries_set_old {m : JsMap κ ν} {k : κ} {w : ν} (v : ν) (h : m.get k = some w) :
    (m.set k v).entries = m.entries.map fun p => if p.1 = k then (k, v) else p := by
  have hk : k ∈ m.entries.map Prod.fst := List.mem_map.mpr ⟨(k, w), get_eq_some.mp h, rfl⟩
  show setEntries m.entries k v = _
  rw [setEntries, if_pos hk]

theorem keys_set_old {m : JsMap κ ν} {k : κ} {w : ν} (v : ν) (h : m.get k = some w) :
    (m.set k v).keys = m.keys := by
  rw [keys, entries_set_old v h, List.map_map, keys]
  apply List.map_congr_left
  intro p _
  by_cases hp : p.1 = k <;> simp [hp]

theorem mem_keys {m : JsMap κ ν} {k : κ} : k ∈ m.keys ↔ (m.get k).isSome := by
  rw [← not_iff_not, keys, ← get_eq_none]
  simp

theorem get_set (m : JsMap κ ν) (k k' : κ) (v : ν) :
    (m.set k v).get k' = if k = k' then some v else m.get k' := by
  cases hk : m.get k with
  | none =>
    by_cases h : k = k'
    · subst h
      rw [if_pos rfl, get_eq_some, entries_set_new v hk]
      exact List.mem_append_right _ (List.mem_singleton_self _)
    · rw [if_neg h, get, entries_set_new v hk, List.find?_append]
      have : [(k, v)].find? (fun p => decide (p.1 = k')) = none := by simp [h]
      rw [this, Option.or_none, get]
  | some w =>
    rw [get, entries_set_old v hk, List.find?_map]
    by_cases h : k = k'
    · subst h
      rw [if_pos rfl]
      have hcomp : ((fun p : κ × ν => decide (p.1 = k)) ∘ fun p => if p.1 = k then (k, v) else p) =
          fun p => decide (p.1 = k) := by
        funext p
        by_cases hp : p.1 = k <;> simp [hp]
      obtain ⟨p, hp, _⟩ := Option.map_eq_some_iff.mp hk
      have hpk : p.1 = k := by simpa using List.find?_some hp
      rw [hcomp, hp]
      simp [hpk]
    · rw [if_neg h]
      have hcomp : ((fun p : κ × ν => decide (p.1 = k')) ∘ fun p => if p.1 = k then (k, v) else p) =
          fun p => decide (p.1 = k') := by
        funext p
        by_cases hp : p.1 = k
        · simp [hp, h]
        · simp [hp]
      rw [hcomp, get]
      cases hf : m.entries.find? (fun p => decide (p.1 = k')) with
      | none => rfl
      | some p =>
        have hpk : p.1 = k' := by simpa using List.find?_some hf
        have hne : p.1 ≠ k := fun he => h (he.symm.trans hpk)
        simp [hne]

theorem get_set_self (m : JsMap κ ν) (k : κ) (v : ν) : (m.set k v).get k = some v := by
  rw [get_set, if_pos rfl]

theorem get_set_ne (m : JsMap κ ν) {k k' : κ} (v : ν) (h : k ≠ k') :
    (m.set k v).get k' = m.get k' := by
  rw [get_set, if_neg h]

/-- Of two settings of a key the second stays. -/
theorem set_set (m : JsMap κ ν) (k : κ) (v w : ν) : (m.set k v).set k w = m.set k w := by
  apply ext
  rw [entries_set_old w (get_set_self m k v)]
  cases hk : m.get k with
  | none =>
    have hne : ∀ p ∈ m.entries, (if p.1 = k then (k, w) else p) = p := by
      intro p hp
      exact if_neg fun he => get_eq_none.mp hk (List.mem_map.mpr ⟨p, hp, he⟩)
    rw [entries_set_new v hk, entries_set_new w hk, List.map_append, List.map_congr_left hne,
      List.map_id']
    simp
  | some u =>
    rw [entries_set_old v hk, entries_set_old w hk, List.map_map]
    apply List.map_congr_left
    intro p _
    by_cases hp : p.1 = k <;> simp [hp]

/-- Setting a new key leaves what was there as it was. -/
theorem get_set_new {m : JsMap κ ν} {k k' : κ} {w : ν} (v : ν) (h : m.get k = none)
    (h' : m.get k' = some w) : (m.set k v).get k' = some w := by
  rw [get_set_ne m v (by rintro rfl; rw [h] at h'; cases h'), h']

/-- Writing over a key changes a sum over the values by what goes and what comes. -/
theorem sum_set_old {M : Type} [AddCommGroup M] {m : JsMap κ ν} {k : κ} {w : ν} (v : ν)
    (h : m.get k = some w) (f : ν → M) :
    ((m.set k v).values.map f).sum = (m.values.map f).sum - f w + f v := by
  obtain ⟨before, behind, hentries⟩ := List.append_of_mem (get_eq_some.mp h)
  have hnodup := m.nodup
  rw [hentries, List.map_append, List.map_cons, List.nodup_middle, List.nodup_cons, List.mem_append,
    not_or] at hnodup
  have hsame : ∀ rest : List (κ × ν), k ∉ rest.map Prod.fst →
      rest.map (fun p => if p.1 = k then (k, v) else p) = rest := by
    intro rest hk
    refine (List.map_congr_left fun p hp => ?_).trans (List.map_id _)
    exact if_neg fun he => hk (List.mem_map.mpr ⟨p, hp, he⟩)
  rw [values, values, entries_set_old v h, hentries, List.map_append, List.map_cons,
    hsame before hnodup.1.1, hsame behind hnodup.1.2, if_pos rfl]
  simp only [List.map_append, List.map_cons, List.sum_append, List.sum_cons]
  abel

end JsMap

namespace JsSet

variable {α : Type}

/-- `new Set()` -/
def empty : JsSet α := ⟨[], List.nodup_nil⟩

variable [DecidableEq α]

/-- `s.add(a)` -/
def add (s : JsSet α) (a : α) : JsSet α :=
  if h : a ∈ s.items then s
  else ⟨s.items ++ [a], by
    rw [List.nodup_append]
    refine ⟨s.nodup, List.nodup_singleton a, ?_⟩
    intro b hb c hc
    rw [List.mem_singleton.mp hc]
    rintro rfl
    exact h hb⟩

/-- `s.delete(a)` -/
def delete (s : JsSet α) (a : α) : JsSet α := ⟨s.items.filter (· ≠ a), s.nodup.filter _⟩

theorem mem_add (s : JsSet α) (a b : α) : b ∈ (s.add a).items ↔ b ∈ s.items ∨ b = a := by
  unfold add
  split
  · next h =>
    constructor
    · exact Or.inl
    · rintro (hb | rfl)
      · exact hb
      · exact h
  · rw [List.mem_append, List.mem_singleton]

theorem mem_delete (s : JsSet α) (a b : α) : b ∈ (s.delete a).items ↔ b ∈ s.items ∧ b ≠ a := by
  simp [delete]

end JsSet

end Wayfinder.Js

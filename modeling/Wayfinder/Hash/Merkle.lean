import Mathlib

/-! Merkle trees that pair a level from the left and double its last node.

A tree over a list of leaves is its `levels`: the leaves, then each level made of the
pairs of the one below it, down to one node. `combine` is any way to make a parent of
two children. `pathThrough` reads the siblings of a position level by level, and
`fold_path` says that folding a leaf with them gives the root, for every number of
leaves and every position, whichever levels are of odd length. -/
namespace Wayfinder.Hash

variable {α : Type}

/-- Neighbours two by two; the last of an odd list is paired with itself. -/
def pairs : List α → List (α × α)
  | [] => []
  | [a] => [(a, a)]
  | a :: b :: rest => (a, b) :: pairs rest

theorem pairs_length : ∀ l : List α, (pairs l).length = (l.length + 1) / 2
  | [] => by simp [pairs]
  | [_] => by simp [pairs]
  | _ :: _ :: rest => by
    rw [pairs, List.length_cons, pairs_length rest, List.length_cons, List.length_cons]
    omega

theorem mem_of_mem_pairs {p : α × α} : ∀ {l : List α}, p ∈ pairs l → p.1 ∈ l ∧ p.2 ∈ l
  | [], h => by cases h
  | [a], h => by
    rw [pairs, List.mem_singleton] at h
    subst h
    exact ⟨List.mem_singleton_self a, List.mem_singleton_self a⟩
  | a :: b :: rest, h => by
    rw [pairs, List.mem_cons] at h
    rcases h with rfl | h
    · exact ⟨List.mem_cons_self .., List.mem_cons_of_mem _ (List.mem_cons_self ..)⟩
    · have := mem_of_mem_pairs h
      exact ⟨List.mem_cons_of_mem _ (List.mem_cons_of_mem _ this.1),
        List.mem_cons_of_mem _ (List.mem_cons_of_mem _ this.2)⟩

theorem pairs_fst_sublist : ∀ l : List α, ((pairs l).map Prod.fst).Sublist l
  | [] => List.Sublist.slnil
  | [a] => List.Sublist.refl [a]
  | _ :: _ :: rest => ((pairs_fst_sublist rest).cons _).cons_cons _

/-- The children of the node at `k`: `2k`, and `2k + 1` where there is one. -/
theorem pairs_getD (d : α) : ∀ (l : List α) (k : Nat), k < (pairs l).length →
    (pairs l).getD k (d, d) =
      (l.getD (2 * k) d, if 2 * k + 1 < l.length then l.getD (2 * k + 1) d else l.getD (2 * k) d)
  | [], k, h => absurd h (Nat.not_lt_zero k)
  | [a], k, h => by
    rw [pairs, List.length_singleton, Nat.lt_one_iff] at h
    subst h
    rfl
  | a :: b :: rest, 0, _ => by simp [pairs]
  | a :: b :: rest, k + 1, h => by
    rw [pairs, List.length_cons, Nat.add_lt_add_iff_right] at h
    have h2 : 2 * (k + 1) = 2 * k + 1 + 1 := by omega
    simp only [pairs, h2, List.getD_cons_succ, List.length_cons, Nat.add_lt_add_iff_right]
    exact pairs_getD d rest k h

/-- With no repetition on either side, the pairs of a list determine it. -/
theorem pairs_inj : ∀ {a b : List α}, a.Nodup → b.Nodup → pairs a = pairs b → a = b
  | [], [], _, _, _ => rfl
  | [], [_], _, _, h => by cases h
  | [], _ :: _ :: _, _, _, h => by cases h
  | [_], [], _, _, h => by cases h
  | _ :: _ :: _, [], _, _, h => by cases h
  | [x], [y], _, _, h => by
    simp only [pairs, List.cons.injEq, Prod.mk.injEq, and_true] at h
    rw [h.1]
  | [x], y :: z :: rest, _, hb, h => by
    simp only [pairs, List.cons.injEq, Prod.mk.injEq] at h
    exact absurd (h.1.1.symm.trans h.1.2)
      (fun he => (List.nodup_cons.mp hb).1 (he ▸ List.mem_cons_self ..))
  | y :: z :: rest, [x], ha, _, h => by
    simp only [pairs, List.cons.injEq, Prod.mk.injEq] at h
    exact absurd (h.1.1.trans h.1.2.symm)
      (fun he => (List.nodup_cons.mp ha).1 (he ▸ List.mem_cons_self ..))
  | x :: y :: rest, z :: w :: rest', ha, hb, h => by
    simp only [pairs, List.cons.injEq, Prod.mk.injEq] at h
    obtain ⟨⟨rfl, rfl⟩, h⟩ := h
    have hrest : rest = rest' :=
      pairs_inj (List.nodup_cons.mp (List.nodup_cons.mp ha).2).2
        (List.nodup_cons.mp (List.nodup_cons.mp hb).2).2 h
    rw [hrest]

section Tree
variable (combine : α → α → α)

def levelUp (level : List α) : List α := (pairs level).map fun p => combine p.1 p.2

@[simp] theorem levelUp_length (level : List α) :
    (levelUp combine level).length = (level.length + 1) / 2 := by
  rw [levelUp, List.length_map, pairs_length]

/-- Every level from the leaves to the one that is no longer than a node. -/
def levels (level : List α) : List (List α) :=
  if 1 < level.length then level :: levels (levelUp combine level) else [level]
termination_by level.length
decreasing_by
  rw [levelUp_length]
  omega

theorem levels_of_lt {level : List α} (h : 1 < level.length) :
    levels combine level = level :: levels combine (levelUp combine level) := by
  rw [levels, if_pos h]

theorem levels_of_le {level : List α} (h : level.length ≤ 1) : levels combine level = [level] := by
  rw [levels, if_neg (by omega)]

/-- The rule of induction over a tree: a level of at most one node, or one whose
parents have the property already. -/
theorem level_induction {P : List α → Prop} (short : ∀ level, level.length ≤ 1 → P level)
    (up : ∀ level, 1 < level.length → P (levelUp combine level) → P level) (level : List α) :
    P level := by
  induction h : level.length using Nat.strong_induction_on generalizing level with
  | _ n ih =>
    by_cases hl : 1 < level.length
    · exact up level hl (ih _ (by rw [levelUp_length]; omega) _ rfl)
    · exact short level (by omega)

theorem levels_ne_nil (level : List α) : levels combine level ≠ [] := by
  rw [levels]
  split <;> simp

theorem self_mem_levels (level : List α) : level ∈ levels combine level := by
  rw [levels]
  split <;> simp

/-- The last level of a tree with leaves is one node. -/
theorem exists_root (level : List α) (h : level ≠ []) :
    ∃ r, (levels combine level).getLast? = some [r] := by
  induction level using level_induction combine with
  | short level hl =>
    cases level with
    | nil => exact absurd rfl h
    | cons r rest =>
      have : rest = [] := List.length_eq_zero_iff.mp (by rw [List.length_cons] at hl; omega)
      subst this
      exact ⟨r, by rw [levels_of_le combine hl]; rfl⟩
  | up level hl ih =>
    obtain ⟨r, hr⟩ := ih (List.ne_nil_of_length_pos (by rw [levelUp_length]; omega))
    refine ⟨r, ?_⟩
    rw [levels_of_lt combine hl, List.getLast?_cons, hr]
    rfl

theorem getLast?_levels_up {level : List α} (h : 1 < level.length) :
    (levels combine level).getLast? = (levels combine (levelUp combine level)).getLast? := by
  rw [levels_of_lt combine h, List.getLast?_cons]
  cases hc : (levels combine (levelUp combine level)).getLast? with
  | none => exact absurd (List.getLast?_eq_none_iff.mp hc) (levels_ne_nil combine _)
  | some l => rfl

theorem levels_length (level : List α) (h : level ≠ []) :
    (levels combine level).length = Nat.clog 2 level.length + 1 := by
  induction level using level_induction combine with
  | short level hl =>
    have : level.length = 1 := by
      have := List.length_pos_iff.mpr h
      omega
    rw [levels_of_le combine hl, this, Nat.clog_one_right]
    rfl
  | up level hl ih =>
    rw [levels_of_lt combine hl, List.length_cons,
      ih (List.ne_nil_of_length_pos (by rw [levelUp_length]; omega)), levelUp_length,
      Nat.clog_of_one_lt (by decide) hl]
    rfl

/-- A level is the leaves or the parents of a level with more than one node. -/
theorem mem_levels_cases {leaves level : List α} (h : level ∈ levels combine leaves) :
    level = leaves ∨ ∃ below ∈ levels combine leaves, 1 < below.length ∧
      level = levelUp combine below := by
  induction leaves using level_induction combine with
  | short leaves hl =>
    rw [levels_of_le combine hl, List.mem_singleton] at h
    exact Or.inl h
  | up leaves hl ih =>
    rw [levels_of_lt combine hl, List.mem_cons] at h
    rcases h with rfl | h
    · exact Or.inl rfl
    · right
      rcases ih h with rfl | ⟨below, hb, hlt, rfl⟩
      · exact ⟨leaves, self_mem_levels combine leaves, hl, rfl⟩
      · exact ⟨below, by rw [levels_of_lt combine hl]; exact List.mem_cons_of_mem _ hb, hlt, rfl⟩

/-! ### Inclusion paths -/

/-- One step of a path: a sibling, and whether it stands on the left. -/
structure Sibling (α : Type) where
  node : α
  left : Bool

/-- A leaf combined with the siblings of a path, one after the other. -/
def fold (h : α) : List (Sibling α) → α
  | [] => h
  | s :: rest => fold (if s.left then combine s.node h else combine h s.node) rest

/-- The sibling of position `i` in a level: its neighbour, or itself where it has none. -/
def siblingAt (d : α) (level : List α) (i : Nat) : Sibling α :=
  if i % 2 = 1 then ⟨level.getD (i - 1) d, true⟩
  else ⟨if i + 1 < level.length then level.getD (i + 1) d else level.getD i d, false⟩

/-- The siblings met from position `i` of the first level to the last level. -/
def pathThrough (d : α) : List (List α) → Nat → List (Sibling α)
  | [], _ => []
  | [_], _ => []
  | level :: next :: rest, i => siblingAt d level i :: pathThrough d (next :: rest) (i / 2)

theorem pathThrough_cons (d : α) (level : List α) (rest : List (List α)) (i : Nat) (h : rest ≠ []) :
    pathThrough d (level :: rest) i = siblingAt d level i :: pathThrough d rest (i / 2) := by
  cases rest with
  | nil => exact absurd rfl h
  | cons next rest => rfl

theorem pathThrough_length (d : α) (ls : List (List α)) (i : Nat) :
    (pathThrough d ls i).length = ls.length - 1 := by
  induction ls generalizing i with
  | nil => rfl
  | cons level rest ih =>
    cases rest with
    | nil => rfl
    | cons next rest => rw [pathThrough, List.length_cons, ih]; rfl

/-- The sides of a path spell its position in binary, lowest bit first. -/
theorem pathThrough_left (d : α) (ls : List (List α)) (i k : Nat)
    (h : k < (pathThrough d ls i).length) :
    ((pathThrough d ls i).get ⟨k, h⟩).left = i.testBit k := by
  induction ls generalizing i k with
  | nil => exact absurd h (Nat.not_lt_zero k)
  | cons level rest ih =>
    cases rest with
    | nil => exact absurd h (Nat.not_lt_zero k)
    | cons next rest =>
      cases k with
      | zero =>
        simp only [pathThrough, List.get_eq_getElem, List.getElem_cons_zero, siblingAt,
          Nat.testBit_zero]
        split <;> simp [*]
      | succ k =>
        simp only [pathThrough, List.get_eq_getElem, List.getElem_cons_succ, Nat.testBit_succ]
        exact ih (i / 2) k _

/-- The parent of position `i` is what `i` and its sibling combine to. -/
theorem levelUp_getD (d : α) (level : List α) (i : Nat) (h : i < level.length) :
    (levelUp combine level).getD (i / 2) d =
      if (siblingAt d level i).left then combine (siblingAt d level i).node (level.getD i d)
      else combine (level.getD i d) (siblingAt d level i).node := by
  have hk : i / 2 < (pairs level).length := by rw [pairs_length]; omega
  have hp := pairs_getD d level (i / 2) hk
  have hup : (levelUp combine level).getD (i / 2) d =
      combine ((pairs level).getD (i / 2) (d, d)).1 ((pairs level).getD (i / 2) (d, d)).2 := by
    simp only [levelUp, List.getD_eq_getElem?_getD, List.getElem?_map,
      List.getElem?_eq_getElem hk, Option.map_some, Option.getD_some]
  rw [hup, hp]
  unfold siblingAt
  by_cases ho : i % 2 = 1
  · have h2 : 2 * (i / 2) = i - 1 := by omega
    have h3 : i - 1 + 1 = i := by omega
    simp only [ho, if_true, h2, h3, h]
  · have h2 : 2 * (i / 2) = i := by omega
    simp only [ho, if_false, h2, Bool.false_eq_true]

/-- **A leaf and its path fold to the root**, for every tree and every position. -/
theorem fold_path (d : α) (leaves : List α) (i : Nat) (h : i < leaves.length) {r : α}
    (hr : (levels combine leaves).getLast? = some [r]) :
    fold combine (leaves.getD i d) (pathThrough d (levels combine leaves) i) = r := by
  induction leaves using level_induction combine generalizing i with
  | short level hl =>
    rw [levels_of_le combine hl] at hr ⊢
    simp only [List.getLast?_singleton, Option.some.injEq] at hr
    subst hr
    have : i = 0 := by simpa using h
    subst this
    rfl
  | up level hl ih =>
    rw [getLast?_levels_up combine hl] at hr
    rw [levels_of_lt combine hl, pathThrough_cons d _ _ _ (levels_ne_nil combine _), fold,
      ← levelUp_getD combine d level i h]
    exact ih (i / 2) (by rw [levelUp_length]; omega) hr

end Tree

end Wayfinder.Hash

import Wayfinder.Hash.Binding

/-! Which leaf an accepted path starts at.

A path names a side for each level, so it leads from the root down to one position of
the leaves, the `landing` of its sides; where a last node was doubled, both sides lead to
it. A path that is as long as the tree is high and folds to the root starts at the leaf
it lands on (`fold_landing`). A longer or shorter one starts at no leaf
(`length_of_leaf`): above the leaves every node is the hash of two digests. -/
namespace Wayfinder.Hash

variable {α β : Type}

/-- Where the sides of a path, lowest first, lead in a tree over `n` leaves. -/
def landing : List Bool → Nat → Nat
  | [], _ => 0
  | left :: rest, n => min (2 * landing rest ((n + 1) / 2) + left.toNat) (n - 1)

/-- The path through a tree lands where it was read. -/
theorem landing_pathThrough (combine : α → α → α) (d : α) (leaves : List α) (i : Nat)
    (h : i < leaves.length) :
    landing ((pathThrough d (levels combine leaves) i).map Sibling.left) leaves.length = i := by
  induction leaves using level_induction combine generalizing i with
  | short level hl =>
    rw [levels_of_le combine hl]
    show 0 = i
    omega
  | up level hl ih =>
    have hup : (levelUp combine level).length = (level.length + 1) / 2 :=
      levelUp_length combine level
    have hih := ih (i / 2) (by omega)
    rw [hup] at hih
    rw [levels_of_lt combine hl, pathThrough_cons d _ _ _ (levels_ne_nil combine _), List.map_cons,
      landing, hih]
    by_cases ho : i % 2 = 1
    · rw [siblingAt, if_pos ho]
      show min (2 * (i / 2) + 1) _ = i
      omega
    · rw [siblingAt, if_neg ho]
      show min (2 * (i / 2) + 0) _ = i
      omega

/-- A child of the node at `k`, the right one or the left one: the last node of a level
is both where it was doubled. -/
theorem pairs_side (l : List α) (k : Nat) (h : k < (pairs l).length) (left : Bool) :
    l[min (2 * k + left.toNat) (l.length - 1)]? =
      some (if left then ((pairs l).get ⟨k, h⟩).2 else ((pairs l).get ⟨k, h⟩).1) := by
  have hlen := pairs_length l
  have h0 : 2 * k < l.length := by omega
  have hp := pairs_getD l[2 * k] l k h
  rw [List.getD_eq_getElem _ _ h, List.getD_eq_getElem _ _ h0] at hp
  rw [List.get_eq_getElem, hp]
  cases left with
  | false =>
    have hmin : min (2 * k + false.toNat) (l.length - 1) = 2 * k := by
      show min (2 * k + 0) _ = _
      omega
    rw [hmin, List.getElem?_eq_getElem h0]
    rfl
  | true =>
    by_cases h1 : 2 * k + 1 < l.length
    · have hmin : min (2 * k + true.toNat) (l.length - 1) = 2 * k + 1 := by
        show min (2 * k + 1) _ = _
        omega
      rw [hmin, List.getElem?_eq_getElem h1, if_pos h1, List.getD_eq_getElem _ _ h1]
      rfl
    · have hmin : min (2 * k + true.toNat) (l.length - 1) = 2 * k := by
        show min (2 * k + 1) _ = _
        omega
      rw [hmin, List.getElem?_eq_getElem h0, if_neg h1]
      rfl

namespace Scheme
variable {S : Scheme α β} {T : List β}

/-- A node above a level is the hash of its two children, digests of the level. -/
theorem levelUp_getElem? {level : List α} {k : Nat} {x : α}
    (h : (levelUp S.parent level)[k]? = some x) :
    ∃ hk : k < (pairs level).length,
      x = S.parent ((pairs level).get ⟨k, hk⟩).1 ((pairs level).get ⟨k, hk⟩).2 := by
  rw [levelUp, List.getElem?_map, Option.map_eq_some_iff] at h
  obtain ⟨p, hp, rfl⟩ := h
  obtain ⟨hk, rfl⟩ := List.getElem?_eq_some_iff.mp hp
  exact ⟨hk, rfl⟩

/-- **A path as long as the tree is high starts where it lands.** The siblings are
anyone's; the strings hashed are `T`, without a collision. -/
theorem fold_landing (hT : ¬ Collision S.hash T) {level : List α} (hd : ∀ x ∈ level, S.IsDigest x)
    (hnode : S.nodePreimages level ⊆ T) {path : List (Sibling α)} {h : α} (hh : S.IsDigest h)
    (hfold : S.foldPreimages h path ⊆ T) (hne : level ≠ [])
    (hlen : path.length = Nat.clog 2 level.length)
    (hr : (levels S.parent level).getLast? = some [fold S.parent h path]) :
    level[landing (path.map Sibling.left) level.length]? = some h := by
  induction level using level_induction S.parent generalizing path h with
  | short level hl =>
    have h1 : level.length = 1 := by
      have := List.length_pos_iff.mpr hne
      omega
    rw [h1, Nat.clog_one_right] at hlen
    rw [List.length_eq_zero_iff.mp hlen] at hr ⊢
    rw [levels_of_le S.parent hl, List.getLast?_singleton, Option.some.injEq] at hr
    rw [hr]
    rfl
  | up level hl ih =>
    rw [Nat.clog_of_one_lt (by decide) hl] at hlen
    obtain ⟨s, rest, rfl⟩ := List.exists_cons_of_length_eq_add_one hlen
    have hup : (levelUp S.parent level).length = (level.length + 1) / 2 :=
      levelUp_length S.parent level
    have hstep : S.stepPreimage h s ∈ T := hfold (List.mem_cons_self ..)
    rw [fold_cons, getLast?_levels_up S.parent hl] at hr
    -- what the first step makes stands where the rest of the path lands
    have hparent := ih (levelUp_digests level) (List.Subset.trans (S.nodePreimages_up hl) hnode)
      (S.hash_digest (S.stepPreimage h s)) (fun b hb => hfold (List.mem_cons_of_mem _ hb))
      (List.ne_nil_of_length_pos (by omega))
      (by rw [hup]; exact Nat.succ.inj hlen) hr
    rw [hup] at hparent
    obtain ⟨hk, hx⟩ := levelUp_getElem? hparent
    have hp := List.get_mem (pairs level) ⟨_, hk⟩
    have hmem := mem_of_mem_pairs hp
    have henc :=
      S.mem_nodePreimages (self_mem_levels S.parent level) hl (List.mem_map.mpr ⟨_, hp, rfl⟩)
    have heq := eq_of_hash_eq hT hstep (hnode henc) hx
    rw [List.map_cons, landing, pairs_side level _ hk]
    unfold stepPreimage at heq
    cases hs : s.left with
    | true =>
      rw [hs, if_pos rfl] at heq
      rw [if_pos rfl, (S.split_right hh (hd _ hmem.1) (hd _ hmem.2) heq).2]
    | false =>
      rw [hs, if_neg Bool.false_ne_true] at heq
      rw [if_neg Bool.false_ne_true, (S.split_left hh (hd _ hmem.1) (hd _ hmem.2) heq).1]

/-- A path too short for the tree starts at an inner node. -/
theorem fold_short (hT : ¬ Collision S.hash T) {level : List α} (hd : ∀ x ∈ level, S.IsDigest x)
    (hnode : S.nodePreimages level ⊆ T) {path : List (Sibling α)} {h : α} (hh : S.IsDigest h)
    (hfold : S.foldPreimages h path ⊆ T) (hlen : path.length < Nat.clog 2 level.length)
    (hr : (levels S.parent level).getLast? = some [fold S.parent h path]) :
    ∃ l r, S.IsDigest r ∧ S.encode l r ∈ T ∧ h = S.hash (S.encode l r) := by
  induction level using level_induction S.parent with
  | short level hl =>
    rw [Nat.clog_of_right_le_one hl] at hlen
    exact absurd hlen (Nat.not_lt_zero _)
  | up level hl ih =>
    rw [Nat.clog_of_one_lt (by decide) hl] at hlen
    have hup : (levelUp S.parent level).length = (level.length + 1) / 2 :=
      levelUp_length S.parent level
    have hsub : S.nodePreimages (levelUp S.parent level) ⊆ T :=
      List.Subset.trans (S.nodePreimages_up hl) hnode
    rw [getLast?_levels_up S.parent hl] at hr
    rcases Nat.lt_or_eq_of_le (Nat.le_of_lt_succ hlen) with hlt | heq
    · exact ih (levelUp_digests level) hsub (by rw [hup]; exact hlt) hr
    · -- as long as the tree above the leaves is high: it starts at a parent of leaves
      have hat := fold_landing hT (levelUp_digests level) hsub hh hfold
        (List.ne_nil_of_length_pos (by omega)) (by rw [hup]; exact heq) hr
      obtain ⟨hk, hx⟩ := levelUp_getElem? hat
      have hp := List.get_mem (pairs level) ⟨_, hk⟩
      exact ⟨_, _, hd _ (mem_of_mem_pairs hp).2, hnode (S.mem_nodePreimages
        (self_mem_levels S.parent level) hl (List.mem_map.mpr ⟨_, hp, rfl⟩)), hx⟩

theorem fold_append (h : α) (path rest : List (Sibling α)) :
    fold S.parent h (path ++ rest) = fold S.parent (fold S.parent h path) rest := by
  induction path generalizing h with
  | nil => rfl
  | cons s path ih =>
    rw [List.cons_append, fold_cons, fold_cons, ih]

theorem foldPreimages_append (h : α) (path rest : List (Sibling α)) :
    S.foldPreimages h (path ++ rest) =
      S.foldPreimages h path ++ S.foldPreimages (fold S.parent h path) rest := by
  induction path generalizing h with
  | nil => rfl
  | cons s path ih =>
    rw [List.cons_append, foldPreimages, foldPreimages, fold_cons, ih, List.cons_append]

theorem fold_digest {h : α} (hh : S.IsDigest h) (path : List (Sibling α)) :
    S.IsDigest (fold S.parent h path) := by
  induction path generalizing h with
  | nil => exact hh
  | cons s rest ih =>
    rw [fold_cons]
    exact ih (S.hash_digest _)

/-- A path too long for the tree makes a leaf out of two parts on its way. -/
theorem fold_long (hT : ¬ Collision S.hash T) {level : List α} (hd : ∀ x ∈ level, S.IsDigest x)
    (hnode : S.nodePreimages level ⊆ T) {path : List (Sibling α)} {h : α} (hh : S.IsDigest h)
    (hfold : S.foldPreimages h path ⊆ T) (hne : level ≠ [])
    (hlen : Nat.clog 2 level.length < path.length)
    (hr : (levels S.parent level).getLast? = some [fold S.parent h path]) :
    ∃ x s, S.IsDigest x ∧ S.stepPreimage x s ∈ T ∧ S.hash (S.stepPreimage x s) ∈ level := by
  -- the step after which as many are left as the tree is high
  obtain ⟨pre, s, rest, rfl, hrest⟩ : ∃ pre s rest, path = pre ++ s :: rest ∧
      rest.length = Nat.clog 2 level.length := by
    obtain ⟨k, hk⟩ := Nat.exists_eq_add_of_lt hlen
    have hlt : k < path.length := by omega
    refine ⟨path.take k, path[k], path.drop (k + 1), ?_, ?_⟩
    · rw [List.getElem_cons_drop, List.take_append_drop]
    · rw [List.length_drop]
      omega
  rw [foldPreimages_append] at hfold
  rw [fold_append, fold_cons] at hr
  have hdigest := fold_digest hh pre
  have hat := fold_landing hT hd hnode (S.hash_digest (S.stepPreimage (fold S.parent h pre) s))
    (fun b hb => hfold (List.mem_append_right _ (List.mem_cons_of_mem _ hb))) hne hrest hr
  exact ⟨_, s, hdigest, hfold (List.mem_append_right _ (List.mem_cons_self ..)),
    List.mem_of_getElem? hat⟩

/-- **A path that starts at a leaf is as long as the tree is high.** -/
theorem length_of_leaf (hT : ¬ Collision S.hash T) {leaves : List β}
    (hleaf : ∀ b ∈ leaves, S.IsLeaf b) (hsub : leaves ⊆ T)
    (hnode : S.nodePreimages (leaves.map S.hash) ⊆ T) {path : List (Sibling α)} {b : β}
    (hb : b ∈ leaves) (hfold : S.foldPreimages (S.hash b) path ⊆ T)
    (hr : (levels S.parent (leaves.map S.hash)).getLast? = some [fold S.parent (S.hash b) path]) :
    path.length = Nat.clog 2 leaves.length := by
  have hd := map_hash_digests (S := S) leaves
  have hlen : (leaves.map S.hash).length = leaves.length := List.length_map ..
  rcases Nat.lt_trichotomy path.length (Nat.clog 2 leaves.length) with hlt | heq | hgt
  · obtain ⟨l, r, hrd, hT', he⟩ := fold_short hT hd hnode (S.hash_digest b) hfold (by rwa [hlen]) hr
    exact absurd (eq_of_hash_eq hT (hsub hb) hT' he) (S.leaf_ne_right (hleaf b hb) hrd)
  · exact heq
  · obtain ⟨x, s, hx, hstep, hmem⟩ := fold_long hT hd hnode (S.hash_digest b) hfold
      (List.ne_nil_of_mem (List.mem_map.mpr ⟨b, hb, rfl⟩)) (by rwa [hlen]) hr
    obtain ⟨c, hc, hce⟩ := List.mem_map.mp hmem
    have heq := eq_of_hash_eq hT (hsub hc) hstep hce
    unfold stepPreimage at heq
    split at heq
    · exact absurd heq (S.leaf_ne_right (hleaf c hc) hx)
    · exact absurd heq (S.leaf_ne_left (hleaf c hc) hx)

/-- A path folds two different digests to different ends. -/
theorem fold_inj (hT : ¬ Collision S.hash T)
    (hcancel : ∀ {a b s}, S.encode s a = S.encode s b ∨ S.encode a s = S.encode b s → a = b)
    {path : List (Sibling α)} {a b : α} (ha : S.foldPreimages a path ⊆ T)
    (hb : S.foldPreimages b path ⊆ T)
    (h : fold S.parent a path = fold S.parent b path) : a = b := by
  induction path generalizing a b with
  | nil => exact h
  | cons s rest ih =>
    rw [fold_cons, fold_cons] at h
    have hhash := ih (fun c hc => ha (List.mem_cons_of_mem _ hc))
      (fun c hc => hb (List.mem_cons_of_mem _ hc)) h
    have hstep := eq_of_hash_eq hT (ha (List.mem_cons_self ..)) (hb (List.mem_cons_self ..)) hhash
    unfold stepPreimage at hstep
    apply hcancel (s := s.node)
    split at hstep
    · exact Or.inl hstep
    · exact Or.inr hstep

end Scheme

end Wayfinder.Hash

import Wayfinder.Hash.Merkle

/-! What the root of a Merkle tree commits to, when nothing marks leaves and nodes.

The trees are those of `Merkle.lean` with parents made by a hash. No tag tells the
preimage of a leaf from the preimage of a node, so a `Scheme` says what keeps them
apart: where the code splits two digests that stand side by side, and that no leaf
preimage has a digest at either end. Under it an accepted path, of any length and with any siblings,
starts at a leaf of the tree (`fold_sound`), and two trees of pairwise distinct leaves
with one root have the same leaves (`root_binding`) — or else two of the strings
hashed on the way collide. -/
namespace Wayfinder.Hash

variable {α β : Type}

/-- Two different members of `S` with one hash. -/
def Collision (hash : β → α) (S : List β) : Prop :=
  ∃ s ∈ S, ∃ t ∈ S, s ≠ t ∧ hash s = hash t

theorem Collision.mono {hash : β → α} {S T : List β} (h : Collision hash S) (hST : S ⊆ T) :
    Collision hash T := by
  obtain ⟨s, hs, t, ht, hne, he⟩ := h
  exact ⟨s, hST hs, t, hST ht, hne, he⟩

/-- One string does not collide with itself. -/
theorem not_collision_of_eq {hash : β → α} {S : List β} (h : ∀ s ∈ S, ∀ t ∈ S, s = t) :
    ¬ Collision hash S := by
  intro hcollision
  obtain ⟨s, hs, t, ht, hne, _⟩ := hcollision
  exact hne (h s hs t ht)

/-- Without a collision, equal hashes have equal preimages. -/
theorem eq_of_hash_eq {hash : β → α} {S : List β} (h : ¬ Collision hash S) {s t : β} (hs : s ∈ S)
    (ht : t ∈ S) (he : hash s = hash t) : s = t := by
  by_contra hne
  exact h ⟨s, hs, t, ht, hne, he⟩

/-- Without a collision, different strings keep different hashes. -/
theorem nodup_map_hash {hash : β → α} {S T : List β} (h : ¬ Collision hash T) (hST : S ⊆ T)
    (hS : S.Nodup) : (S.map hash).Nodup :=
  hS.map_on fun _ hx _ hy he => eq_of_hash_eq h (hST hx) (hST hy) he

/-- A hash, an encoding of two children as a preimage, and what separates preimages. -/
structure Scheme (α β : Type) where
  hash : β → α
  encode : α → α → β
  IsDigest : α → Prop
  IsLeaf : β → Prop
  hash_digest : ∀ b, IsDigest (hash b)
  /-- A digest that stands on the right of anything is the right one of two digests. -/
  split_right : ∀ {s h l r}, IsDigest h → IsDigest l → IsDigest r → encode s h = encode l r →
    s = l ∧ h = r
  /-- A digest that stands on the left of anything is the left one of two digests. -/
  split_left : ∀ {h s l r}, IsDigest h → IsDigest l → IsDigest r → encode h s = encode l r →
    h = l ∧ s = r
  leaf_ne_right : ∀ {b s h}, IsLeaf b → IsDigest h → b ≠ encode s h
  leaf_ne_left : ∀ {b h s}, IsLeaf b → IsDigest h → b ≠ encode h s

namespace Scheme
variable (S : Scheme α β)

/-- The parent of two children. -/
def parent (l r : α) : α := S.hash (S.encode l r)

/-- The preimages of the parents of a level. -/
def encodings (level : List α) : List β := (pairs level).map fun p => S.encode p.1 p.2

/-- The preimages hashed to build the inner nodes of a tree. -/
def nodePreimages (leaves : List α) : List β :=
  (levels S.parent leaves).flatMap fun level => if 1 < level.length then S.encodings level else []

/-- The preimage of one step of a path, from the hash reached so far. -/
def stepPreimage (h : α) (s : Sibling α) : β :=
  if s.left then S.encode s.node h else S.encode h s.node

/-- The preimages hashed to fold a path. -/
def foldPreimages (h : α) : List (Sibling α) → List β
  | [] => []
  | s :: rest => S.stepPreimage h s :: foldPreimages (S.hash (S.stepPreimage h s)) rest

theorem fold_cons (h : α) (s : Sibling α) (rest : List (Sibling α)) :
    fold S.parent h (s :: rest) = fold S.parent (S.hash (S.stepPreimage h s)) rest := by
  show fold S.parent (if s.left then S.parent s.node h else S.parent h s.node) rest = _
  unfold stepPreimage
  split <;> rfl

theorem levelUp_eq (level : List α) : levelUp S.parent level = (S.encodings level).map S.hash := by
  simp only [levelUp, encodings, List.map_map]
  rfl

theorem mem_nodePreimages {leaves level : List α} {b : β} (hl : level ∈ levels S.parent leaves)
    (h1 : 1 < level.length) (hb : b ∈ S.encodings level) : b ∈ S.nodePreimages leaves := by
  refine List.mem_flatMap.mpr ⟨level, hl, ?_⟩
  rw [if_pos h1]
  exact hb

/-- The inner nodes above a level are inner nodes of its tree. -/
theorem nodePreimages_up {level : List α} (h : 1 < level.length) :
    S.nodePreimages (levelUp S.parent level) ⊆ S.nodePreimages level := by
  intro b hb
  unfold nodePreimages at hb ⊢
  rw [levels_of_lt S.parent h, List.flatMap_cons]
  exact List.mem_append_right _ hb

/-- The digests of a tree: the nodes of all its levels. -/
def InTree (leaves : List α) (x : α) : Prop := ∃ level ∈ levels S.parent leaves, x ∈ level

variable {S}

/-- Hashes are digests. -/
theorem map_hash_digests (leaves : List β) : ∀ x ∈ leaves.map S.hash, S.IsDigest x := by
  intro x hx
  obtain ⟨b, _, rfl⟩ := List.mem_map.mp hx
  exact S.hash_digest b

theorem levelUp_digests (level : List α) : ∀ x ∈ levelUp S.parent level, S.IsDigest x := by
  rw [levelUp_eq]
  exact map_hash_digests _

theorem level_digests {leaves level : List α} (hd : ∀ x ∈ leaves, S.IsDigest x)
    (hl : level ∈ levels S.parent leaves) : ∀ x ∈ level, S.IsDigest x := by
  rcases mem_levels_cases S.parent hl with rfl | ⟨below, _, _, rfl⟩
  · exact hd
  · exact levelUp_digests below

/-- A node of a tree is a leaf or the parent of two nodes of the tree. -/
theorem inTree_cases {leaves : List α} {x : α} (h : S.InTree leaves x) :
    x ∈ leaves ∨ ∃ l r, S.InTree leaves l ∧ S.InTree leaves r ∧
      S.encode l r ∈ S.nodePreimages leaves ∧ x = S.hash (S.encode l r) := by
  obtain ⟨level, hl, hx⟩ := h
  rcases mem_levels_cases S.parent hl with rfl | ⟨below, hb, h1, rfl⟩
  · exact Or.inl hx
  · right
    rw [levelUp_eq, List.mem_map] at hx
    obtain ⟨b, hb', rfl⟩ := hx
    have hmem := S.mem_nodePreimages hb h1 hb'
    rw [encodings, List.mem_map] at hb'
    obtain ⟨p, hp, rfl⟩ := hb'
    have := mem_of_mem_pairs hp
    exact ⟨p.1, p.2, ⟨below, hb, this.1⟩, ⟨below, hb, this.2⟩, hmem, rfl⟩

/-! ### An accepted path starts at a leaf -/

section Sound
variable {leaves : List β} {T : List β}

/-- One step down: if what a digest and any sibling hash to is in the tree, the digest
is. -/
theorem step_sound (hleaf : ∀ b ∈ leaves, S.IsLeaf b) (hT : ¬ Collision S.hash T)
    (hsub : leaves ⊆ T) (hnode : S.nodePreimages (leaves.map S.hash) ⊆ T) {h : α}
    (hd : S.IsDigest h) (s : Sibling α) (hstep : S.stepPreimage h s ∈ T)
    (hin : S.InTree (leaves.map S.hash) (S.hash (S.stepPreimage h s))) :
    S.InTree (leaves.map S.hash) h := by
  have hdigest := map_hash_digests (S := S) leaves
  rcases inTree_cases hin with hx | ⟨l, r, ⟨ll, hll, hlm⟩, ⟨lr, hlr, hrm⟩, hmem, he⟩
  · -- a leaf preimage has no digest at its end
    obtain ⟨b, hb, he⟩ := List.mem_map.mp hx
    have := eq_of_hash_eq hT (hsub hb) hstep he
    unfold stepPreimage at this
    split at this
    · exact absurd this (S.leaf_ne_right (hleaf b hb) hd)
    · exact absurd this (S.leaf_ne_left (hleaf b hb) hd)
  · have hld := level_digests hdigest hll l hlm
    have hrd := level_digests hdigest hlr r hrm
    have := eq_of_hash_eq hT hstep (hnode hmem) he
    unfold stepPreimage at this
    split at this
    · rw [(S.split_right hd hld hrd this).2]
      exact ⟨lr, hlr, hrm⟩
    · rw [(S.split_left hd hld hrd this).1]
      exact ⟨ll, hll, hlm⟩

/-- A path of any length whose fold is in the tree starts at a digest of the tree. -/
theorem fold_inTree (hleaf : ∀ b ∈ leaves, S.IsLeaf b) (hT : ¬ Collision S.hash T)
    (hsub : leaves ⊆ T) (hnode : S.nodePreimages (leaves.map S.hash) ⊆ T) (path : List (Sibling α))
    (h : α) (hd : S.IsDigest h) (hfold : S.foldPreimages h path ⊆ T)
    (hin : S.InTree (leaves.map S.hash) (fold S.parent h path)) :
    S.InTree (leaves.map S.hash) h := by
  induction path generalizing h with
  | nil => exact hin
  | cons s rest ih =>
    rw [fold_cons] at hin
    have hstep := ih _ (S.hash_digest _) (fun b hb => hfold (List.mem_cons_of_mem _ hb)) hin
    exact step_sound hleaf hT hsub hnode hd s (hfold (List.mem_cons_self ..)) hstep

end Sound

/-- **An accepted path proves a leaf of the tree.** Whatever the siblings and however
many, a leaf preimage whose hash folds to the root is the preimage of a leaf; or two of
the strings hashed collide. -/
theorem fold_sound {leaves : List β} (hleaf : ∀ b ∈ leaves, S.IsLeaf b) {b : β} (hb : S.IsLeaf b)
    (path : List (Sibling α)) {r : α}
    (hr : (levels S.parent (leaves.map S.hash)).getLast? = some [r])
    (hfold : fold S.parent (S.hash b) path = r) :
    b ∈ leaves ∨ Collision S.hash
      (leaves ++ S.nodePreimages (leaves.map S.hash) ++ b :: S.foldPreimages (S.hash b) path) := by
  by_cases hT : Collision S.hash (leaves ++ S.nodePreimages (leaves.map S.hash) ++
      b :: S.foldPreimages (S.hash b) path)
  · exact Or.inr hT
  left
  have hsub : leaves ⊆ leaves ++ S.nodePreimages (leaves.map S.hash) ++
      b :: S.foldPreimages (S.hash b) path := fun x hx => by simp [hx]
  have hnode : S.nodePreimages (leaves.map S.hash) ⊆ leaves ++ S.nodePreimages
    (leaves.map S.hash) ++ b :: S.foldPreimages (S.hash b) path := fun x hx => by simp [hx]
  have hroot : S.InTree (leaves.map S.hash) (fold S.parent (S.hash b) path) :=
    ⟨[r], List.mem_of_getLast? hr, by rw [hfold]; exact List.mem_singleton_self r⟩
  have hin := fold_inTree hleaf hT hsub hnode path (S.hash b) (S.hash_digest b)
    (fun x hx => by simp [hx]) hroot
  rcases inTree_cases hin with hx | ⟨l, r', _, ⟨lr, hlr, hrm⟩, hmem, he⟩
  · obtain ⟨b', hb', he⟩ := List.mem_map.mp hx
    rw [← eq_of_hash_eq hT (hsub hb') (by simp) he]
    exact hb'
  · have hrd : S.IsDigest r' := level_digests (map_hash_digests leaves) hlr r' hrm
    exact absurd (eq_of_hash_eq hT (by simp) (hnode hmem) he) (S.leaf_ne_right hb hrd)

/-! ### One root, one list of leaves -/

section Binding
variable {T : List β}

theorem map_inj_of_mem {γ δ : Type} {f : γ → δ} : ∀ {a b : List γ},
    (∀ x ∈ a, ∀ y ∈ b, f x = f y → x = y) → a.map f = b.map f → a = b
  | [], [], _, _ => rfl
  | [], _ :: _, _, h => by cases h
  | _ :: _, [], _, h => by cases h
  | x :: a, y :: b, hinj, h => by
    rw [List.map_cons, List.map_cons, List.cons.injEq] at h
    have hx := hinj x (List.mem_cons_self ..) y (List.mem_cons_self ..) h.1
    have ha := map_inj_of_mem
      (fun u hu v hv => hinj u (List.mem_cons_of_mem x hu) v (List.mem_cons_of_mem y hv)) h.2
    rw [hx, ha]

/-- A level of pairwise distinct digests, with the inner nodes above it hashed among `T`. -/
structure Distinct (S : Scheme α β) (T : List β) (level : List α) : Prop where
  digests : ∀ x ∈ level, S.IsDigest x
  nodup : level.Nodup
  hashed : S.nodePreimages level ⊆ T

theorem Distinct.encodings {level : List α} (h : Distinct S T level) (h1 : 1 < level.length) :
    S.encodings level ⊆ T :=
  fun _ hb => h.hashed (S.mem_nodePreimages (self_mem_levels S.parent level) h1 hb)

/-- Two pairs of digests with one hash are the same pair. -/
theorem parent_inj (hT : ¬ Collision S.hash T) {a b : List α} (ha : Distinct S T a)
    (hb : Distinct S T b) (ha1 : 1 < a.length) (hb1 : 1 < b.length) :
    ∀ p ∈ pairs a, ∀ q ∈ pairs b, S.parent p.1 p.2 = S.parent q.1 q.2 → p = q := by
  intro p hp q hq he
  have hpT : S.encode p.1 p.2 ∈ T := ha.encodings ha1 (List.mem_map.mpr ⟨p, hp, rfl⟩)
  have hqT : S.encode q.1 q.2 ∈ T := hb.encodings hb1 (List.mem_map.mpr ⟨q, hq, rfl⟩)
  have hq' := mem_of_mem_pairs hq
  have := S.split_right (ha.digests _ (mem_of_mem_pairs hp).2) (hb.digests _ hq'.1)
    (hb.digests _ hq'.2) (eq_of_hash_eq hT hpT hqT he)
  exact Prod.ext this.1 this.2

theorem levelUp_inj (hT : ¬ Collision S.hash T) {a b : List α} (ha : Distinct S T a)
    (hb : Distinct S T b) (ha1 : 1 < a.length) (hb1 : 1 < b.length)
    (h : levelUp S.parent a = levelUp S.parent b) : a = b :=
  pairs_inj ha.nodup hb.nodup (map_inj_of_mem (parent_inj hT ha hb ha1 hb1) h)

/-- The parents of distinct nodes are distinct. -/
theorem Distinct.up (hT : ¬ Collision S.hash T) {a : List α} (ha : Distinct S T a)
    (ha1 : 1 < a.length) : Distinct S T (levelUp S.parent a) := by
  have hpairs : (pairs a).Nodup :=
    List.Nodup.of_map Prod.fst (ha.nodup.sublist (pairs_fst_sublist a))
  exact ⟨levelUp_digests a, hpairs.map_on (parent_inj hT ha ha ha1 ha1),
    List.Subset.trans (S.nodePreimages_up ha1) ha.hashed⟩

/-- No level of a tree of distinct leaves repeats a node. -/
theorem Distinct.level (hT : ¬ Collision S.hash T) {leaves : List α} (h : Distinct S T leaves) :
    ∀ level ∈ levels S.parent leaves, Distinct S T level := by
  induction leaves using level_induction S.parent with
  | short leaves hl =>
    intro level hm
    rw [levels_of_le S.parent hl, List.mem_singleton] at hm
    exact hm ▸ h
  | up leaves hl ih =>
    intro level hm
    rw [levels_of_lt S.parent hl, List.mem_cons] at hm
    rcases hm with rfl | hm
    · exact h
    · exact ih (h.up hT hl) level hm

/-- A level whose parents are a level of another tree, above its leaves, is a level of
that tree itself. -/
theorem mem_levels_of_up (hT : ¬ Collision S.hash T) {a b : List α} (ha : Distinct S T a)
    (hb : Distinct S T b) (ha1 : 1 < a.length) (hb1 : 1 < b.length)
    (h : levelUp S.parent a ∈ levels S.parent (levelUp S.parent b)) : a ∈ levels S.parent b := by
  rcases mem_levels_cases S.parent h with he | ⟨below, hbelow, h1, he⟩
  · rw [levelUp_inj hT ha hb ha1 hb1 he]
    exact self_mem_levels S.parent b
  · rw [levelUp_inj hT ha ((hb.up hT hb1).level hT below hbelow) ha1 h1 he,
      levels_of_lt S.parent hb1]
    exact List.mem_cons_of_mem _ hbelow

/-- Two trees of distinct nodes with one root: the leaves of one are a level of the
other. -/
theorem leaves_mem_levels (hT : ¬ Collision S.hash T) {a b : List α} (ha : Distinct S T a)
    (hb : Distinct S T b) (hr : (levels S.parent a).getLast? = (levels S.parent b).getLast?) :
    a ∈ levels S.parent b ∨ b ∈ levels S.parent a := by
  induction a using level_induction S.parent generalizing b with
  | short a hl =>
    left
    rw [levels_of_le S.parent hl] at hr
    exact List.mem_of_getLast? (hr ▸ rfl)
  | up a hl ih =>
    by_cases hbl : 1 < b.length
    · rw [getLast?_levels_up S.parent hl, getLast?_levels_up S.parent hbl] at hr
      rcases ih (ha.up hT hl) (hb.up hT hbl) hr with h | h
      · exact Or.inl (mem_levels_of_up hT ha hb hl hbl h)
      · exact Or.inr (mem_levels_of_up hT hb ha hbl hl h)
    · right
      rw [levels_of_le S.parent (by omega : b.length ≤ 1)] at hr
      exact List.mem_of_getLast? hr

/-- Leaf hashes are never a level of inner nodes. -/
theorem leaves_eq_of_mem_levels (hT : ¬ Collision S.hash T) {xs : List β} {b : List α}
    (hleaf : ∀ x ∈ xs, S.IsLeaf x) (hxs : xs ⊆ T) (hb : Distinct S T b) (hne : xs ≠ [])
    (h : xs.map S.hash ∈ levels S.parent b) : xs.map S.hash = b := by
  rcases mem_levels_cases S.parent h with he | ⟨below, hbelow, h1, he⟩
  · exact he
  · exfalso
    obtain ⟨x, hx⟩ := List.exists_mem_of_ne_nil xs hne
    have hmem : S.hash x ∈ levelUp S.parent below := he ▸ List.mem_map.mpr ⟨x, hx, rfl⟩
    have hd := hb.level hT below hbelow
    rw [levelUp_eq, List.mem_map] at hmem
    obtain ⟨c, hc, hce⟩ := hmem
    have hxc := eq_of_hash_eq hT (hxs hx) (hd.encodings h1 hc) hce.symm
    obtain ⟨p, hp, rfl⟩ := List.mem_map.mp hc
    exact S.leaf_ne_right (hleaf x hx) (hd.digests _ (mem_of_mem_pairs hp).2) hxc

end Binding

/-- **The root commits to the leaves.** Two non-empty lists of leaf preimages, each
without repeated hashes, whose trees have one root, have the same leaf hashes in the
same order, whatever their lengths; or two of the strings hashed collide. -/
theorem root_binding {xs ys : List β} (hx : ∀ x ∈ xs, S.IsLeaf x) (hy : ∀ y ∈ ys, S.IsLeaf y)
    (hx0 : xs ≠ []) (hy0 : ys ≠ []) (hxn : (xs.map S.hash).Nodup) (hyn : (ys.map S.hash).Nodup)
    (hr : (levels S.parent (xs.map S.hash)).getLast? = (levels S.parent (ys.map S.hash)).getLast?) :
    xs.map S.hash = ys.map S.hash ∨ Collision S.hash (xs ++ ys ++
      (S.nodePreimages (xs.map S.hash) ++ S.nodePreimages (ys.map S.hash))) := by
  by_cases hT : Collision S.hash (xs ++ ys ++
      (S.nodePreimages (xs.map S.hash) ++ S.nodePreimages (ys.map S.hash)))
  · exact Or.inr hT
  left
  generalize hTdef : xs ++ ys ++
    (S.nodePreimages (xs.map S.hash) ++ S.nodePreimages (ys.map S.hash)) = T at hT
  have ha : Distinct S T (xs.map S.hash) :=
    ⟨map_hash_digests xs, hxn, fun b hb => by simp [← hTdef, hb]⟩
  have hb : Distinct S T (ys.map S.hash) :=
    ⟨map_hash_digests ys, hyn, fun b hb => by simp [← hTdef, hb]⟩
  rcases leaves_mem_levels hT ha hb hr with h | h
  · exact leaves_eq_of_mem_levels hT hx (fun b hb => by simp [← hTdef, hb]) hb hx0 h
  · exact (leaves_eq_of_mem_levels hT hy (fun b hb => by simp [← hTdef, hb]) ha hy0 h).symm

end Scheme

end Wayfinder.Hash

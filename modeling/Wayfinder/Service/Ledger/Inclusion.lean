import Wayfinder.App.Crypto
import Wayfinder.Hash.Binding
import Wayfinder.Reference
import Wayfinder.Service.Ledger.Records
import Mathlib

/-! Merkle proofs between the ledger and the browser.

The levels that `merkleLevels` pushes are the tree of `Hash.levels` over the hash of two
neighbours, `getProof` reads the path through it, and the browser's `foldMerkleProof`
folds such a path. So a recorded transaction has a proof that folds to the root
(`getProof_complete`). The preimage of a leaf stands between braces and the preimage of a
node is 128 hex digits, which is all that tells one from the other; it makes a hash
`scheme`, and with it an accepted path proves a recorded transaction
(`foldMerkleProof_sound`) and the root commits to the leaves (`merkleRoot_binding`). -/
namespace Wayfinder.Service.Ledger

open Js Crypto Hash
open App.Crypto (foldMerkleProof)

variable (P : Primitives)

/-! ### The levels are the tree -/

theorem nextLevel_eq (cur : List Str) : nextLevel P cur = levelUp (hashPair P) cur := by
  refine List.ext_getElem (by rw [nextLevel_length, levelUp_length]) fun k hk hk' => ?_
  have hpairs : k < (pairs cur).length := by
    rw [nextLevel_length] at hk
    rwa [pairs_length]
  have hp := pairs_getD [] cur k hpairs
  rw [List.getD_eq_getElem _ _ hpairs] at hp
  simp only [nextLevel, levelUp, List.getElem_map, List.getElem_range, hp]

theorem pushLevels_eq (cur : List Str) (below : List (List Str)) :
    pushLevels P (below ++ [cur]) cur = below ++ levels (hashPair P) cur := by
  induction cur using level_induction (hashPair P) generalizing below with
  | short cur hl => rw [pushLevels, if_neg (by omega), levels_of_le _ hl]
  | up cur hl ih =>
    rw [pushLevels, if_pos hl, nextLevel_eq, ih, levels_of_lt _ hl, List.append_assoc]
    rfl

theorem merkleLevels_eq {hashes : List Str} (h : hashes ≠ []) :
    merkleLevels P hashes = levels (hashPair P) hashes := by
  rw [merkleLevels, if_neg (fun h0 => h (List.length_eq_zero_iff.mp h0))]
  exact pushLevels_eq P hashes []

theorem getLast?_merkleLevels {hashes : List Str} (h : hashes ≠ []) :
    (merkleLevels P hashes).getLast? = some [rootOf (merkleLevels P hashes)] := by
  obtain ⟨r, hr⟩ := exists_root (hashPair P) hashes h
  rw [merkleLevels_eq P h, rootOf, List.getLastD_eq_getLast?, hr]
  rfl

/-! ### Paths -/

/-- A node of a proof as a step of a path. -/
def ProofPathNode.toSibling (node : ProofPathNode) : Sibling Str :=
  ⟨node.hash, node.direction = .left⟩

theorem foldMerkleProof_eq (h : Str) (path : List ProofPathNode) :
    foldMerkleProof P h path = fold (hashPair P) h (path.map ProofPathNode.toSibling) := by
  induction path generalizing h with
  | nil => rfl
  | cons node rest ih =>
    show foldMerkleProof P (if node.direction = .left then
      hashPair P node.hash h else hashPair P h node.hash) rest = _
    rw [ih]
    show _ = fold (hashPair P) (if (ProofPathNode.toSibling node).left then _ else _) _
    simp [ProofPathNode.toSibling]

/-- The node that `getProof` pushes is the sibling of a position of the level. -/
theorem sibling_eq {level : List Str} {i : Nat} (h : i < level.length) :
    ProofPathNode.toSibling
      ⟨if (if i % 2 = 1 then i - 1 else i + 1) < level.length
        then level.getD (if i % 2 = 1 then i - 1 else i + 1) [] else level.getD i [],
        if i % 2 = 1 then .left else .right⟩ = siblingAt [] level i := by
  unfold siblingAt ProofPathNode.toSibling
  by_cases ho : i % 2 = 1
  · simp [ho, show i - 1 < level.length by omega]
  · simp [ho]

/-- The loop of `getProof` reads the path through the tree. -/
theorem pathFrom_eq (level : List Str) (i : Nat) (h : i < level.length) :
    (pathFrom i (levels (hashPair P) level).dropLast).map ProofPathNode.toSibling =
      pathThrough [] (levels (hashPair P) level) i := by
  induction level using level_induction (hashPair P) generalizing i with
  | short level hl =>
    rw [levels_of_le _ hl]
    rfl
  | up level hl ih =>
    have hne := levels_ne_nil (hashPair P) (levelUp (hashPair P) level)
    rw [levels_of_lt _ hl, pathThrough_cons _ _ _ _ hne, List.dropLast_cons_of_ne_nil hne, pathFrom,
      List.map_cons, sibling_eq h, ih (i / 2) (by rw [levelUp_length]; omega)]

/-- The sides of a proof spell the position in binary. -/
theorem pathFrom_direction (level : List Str) (i : Nat) (h : i < level.length) (k : Nat)
    (hk : k < (pathFrom i (levels (hashPair P) level).dropLast).length) :
    ((pathFrom i (levels (hashPair P) level).dropLast).get ⟨k, hk⟩).direction =
      if i.testBit k then .left else .right := by
  have hpath := pathFrom_eq P level i h
  have hk' : k < (pathThrough [] (levels (hashPair P) level) i).length := by
    rwa [← hpath, List.length_map]
  have hget : (pathThrough [] (levels (hashPair P) level) i).get ⟨k, hk'⟩ =
      ProofPathNode.toSibling ((pathFrom i (levels (hashPair P) level).dropLast).get ⟨k, hk⟩) := by
    simp [← hpath]
  have hleft := pathThrough_left [] (levels (hashPair P) level) i k hk'
  rw [hget] at hleft
  rw [← hleft]
  cases hd : ((pathFrom i (levels (hashPair P) level).dropLast).get ⟨k, hk⟩).direction <;>
    simp only [ProofPathNode.toSibling, hd] <;> rfl

/-- A leaf folds with the path that the loop reads to the root. -/
theorem fold_pathFrom {hashes : List Str} {i : Nat} (hi : i < hashes.length) :
    foldMerkleProof P (hashes.getD i []) (pathFrom i (merkleLevels P hashes).dropLast) =
      rootOf (merkleLevels P hashes) := by
  have hne : hashes ≠ [] := List.ne_nil_of_length_pos (Nat.zero_lt_of_lt hi)
  have hroot := getLast?_merkleLevels P hne
  rw [foldMerkleProof_eq, merkleLevels_eq P hne, pathFrom_eq P hashes i hi]
  rw [merkleLevels_eq P hne] at hroot
  exact fold_path (hashPair P) [] hashes i hi hroot

/-! ### Completeness -/

variable {P} {E : Env}

theorem findIdx?_leaves {leaves : List Leaf} (hne : leaves.Pairwise fun a b => a.txId ≠ b.txId)
    {i : Nat} (hi : i < leaves.length) :
    leaves.findIdx? (·.txId = (leaves.get ⟨i, hi⟩).txId) = some i := by
  rw [List.findIdx?_eq_some_iff_getElem]
  refine ⟨hi, by simp, fun j hj => ?_⟩
  have := List.pairwise_iff_getElem.mp hne j i (Nat.lt_trans hj hi) hi hj
  simpa using this

theorem leaves_txId_ne {calls : List Call} (hE : E.FreshIds (recordDraws * calls.length)) :
    (ledger P E calls).leaves.Pairwise fun a b => a.txId ≠ b.txId := by
  rw [leaves_ledger, List.pairwise_map]
  exact transactions_txId_ne (by rwa [Nat.zero_add])

/-- **Every recorded transaction has a proof that the browser accepts.** Its path has one
node for each level below the root, and the sides spell the leaf's position in binary. -/
theorem getProof_complete (calls : List Call) (hE : E.FreshIds (recordDraws * calls.length))
    (i : Nat) (hi : i < (ledger P E calls).leaves.length) :
    ∃ proof,
      getProof P (ledger P E calls) ((ledger P E calls).leaves.get ⟨i, hi⟩).txId = some proof ∧
      proof.leafIndex = i ∧ proof.leafHash = ((ledger P E calls).leaves.get ⟨i, hi⟩).leafHash ∧
      proof.proofPath.length = Nat.clog 2 (ledger P E calls).leaves.length ∧
      (∀ k (hk : k < proof.proofPath.length),
        (proof.proofPath.get ⟨k, hk⟩).direction = if i.testBit k then .left else .right) ∧
      foldMerkleProof P proof.leafHash proof.proofPath = proof.merkleRoot ∧
      proof.merkleRoot = merkleRoot P (ledger P E calls) := by
  have hidx := findIdx?_leaves (leaves_txId_ne hE) hi
  generalize hs : ledger P E calls = s at hi hidx ⊢
  have hlen : (s.leaves.map Leaf.leafHash).length = s.leaves.length := List.length_map ..
  have hi' : i < (s.leaves.map Leaf.leafHash).length := by rwa [hlen]
  have hne : s.leaves.map Leaf.leafHash ≠ [] := List.ne_nil_of_length_pos (Nat.zero_lt_of_lt hi')
  have hpath := pathFrom_eq P (s.leaves.map Leaf.leafHash) i hi'
  have hroot := getLast?_merkleLevels P hne
  have hlevels := merkleLevels_eq P hne
  have hproof : getProof P s (s.leaves.get ⟨i, hi⟩).txId = some
      { txId := (s.leaves.get ⟨i, hi⟩).txId
        leafHash := (s.leaves.map Leaf.leafHash).getD i []
        merkleRoot := merkleRoot P s
        proofPath := pathFrom i (levels (hashPair P) (s.leaves.map Leaf.leafHash)).dropLast
        leafIndex := i } := by
    rw [getProof, hidx, ← hlevels]
    rfl
  refine ⟨_, hproof, rfl, ?_, ?_, pathFrom_direction P _ i hi', ?_, rfl⟩
  · rw [List.getD_eq_getElem _ _ hi', List.getElem_map]
    rfl
  · rw [← List.length_map (f := ProofPathNode.toSibling), hpath, pathThrough_length,
      levels_length _ _ hne, hlen]
    rfl
  · rw [foldMerkleProof_eq, hpath]
    rw [hlevels] at hroot
    rw [fold_path (hashPair P) [] _ i hi' hroot, ← hlevels]
    rfl

/-- A mint and a transfer of one token. -/
def sampleCalls : List Call :=
  [.mint ⟨lit "urn:uuid:token-1", lit "did:key:zAlice", lit "claims"⟩, .transfer
    ⟨lit "urn:uuid:token-1", lit "did:key:zAlice", lit "did:key:zBob", lit "head", lit "claims"⟩]

theorem sampleCalls_length (P : Primitives) (E : Env) :
    (ledger P E sampleCalls).leaves.length = 2 := by
  rw [leaves_ledger, List.length_map]
  rfl

theorem getProof_complete_sample :
    ∃ proof, getProof Reference.primitives (ledger Reference.primitives Reference.env sampleCalls)
      ((ledger Reference.primitives Reference.env sampleCalls).leaves.get ⟨1,
        by rw [sampleCalls_length]; decide⟩).txId = some proof ∧ proof.leafIndex = 1 ∧
      proof.leafHash = ((ledger Reference.primitives Reference.env sampleCalls).leaves.get ⟨1,
        by rw [sampleCalls_length]; decide⟩).leafHash ∧ proof.proofPath.length =
          Nat.clog 2 (ledger Reference.primitives Reference.env sampleCalls).leaves.length ∧
      (∀ k (hk : k < proof.proofPath.length),
        (proof.proofPath.get ⟨k, hk⟩).direction = if (1 : Nat).testBit k then .left else .right) ∧
      foldMerkleProof Reference.primitives proof.leafHash proof.proofPath = proof.merkleRoot ∧
      proof.merkleRoot =
        merkleRoot Reference.primitives (ledger Reference.primitives Reference.env sampleCalls) :=
  getProof_complete sampleCalls (Reference.freshIds _) 1 _

/-! ### Soundness -/

/-- A path that folds to the root of a ledger folds to the root of its tree. -/
theorem getLast?_levels_of_fold {s : State} (hne : s.leaves.map Leaf.leafHash ≠ []) {h : Str}
    {path : List ProofPathNode} (hfold : foldMerkleProof P h path = merkleRoot P s) :
    (levels (hashPair P) (s.leaves.map Leaf.leafHash)).getLast? =
      some [fold (hashPair P) h (path.map ProofPathNode.toSibling)] := by
  rw [← foldMerkleProof_eq, hfold, ← merkleLevels_eq P hne]
  exact getLast?_merkleLevels P hne

/-- The strings hashed to the leaves of transactions. -/
def leafStrings (txs : List TokenTransaction) : List Str :=
  txs.map fun tx => canonical (leafData tx)

variable (P) in
/-- The strings hashed to the inner nodes over leaf hashes. -/
def nodeStrings (hashes : List Str) : List Str :=
  (levels (hashPair P) hashes).flatMap fun level =>
    if 1 < level.length then (pairs level).map fun p => p.1 ++ p.2 else []

variable (P) in
/-- The strings that `foldMerkleProof` hashes. -/
def foldStrings (h : Str) : List ProofPathNode → List Str
  | [] => []
  | node :: rest =>
    let s := if node.direction = .left then node.hash ++ h else h ++ node.hash
    s :: foldStrings (sha256Hex P s) rest

/-- Two texts that end in hashes are equal part by part. -/
theorem append_hash_right {s h l r : Str} (hh : IsHash h) (hr : IsHash r) (he : s ++ h = l ++ r) :
    s = l ∧ h = r :=
  List.append_inj' he (hh.length.trans hr.length.symm)

/-- Two texts that start with hashes are equal part by part. -/
theorem append_hash_left {h s l r : Str} (hh : IsHash h) (hl : IsHash l) (he : h ++ s = l ++ r) :
    h = l ∧ s = r :=
  List.append_inj he (hh.length.trans hl.length.symm)

/-- The text of an object does not end in a hash: its last character is a brace. -/
theorem object_ne_right {t s h : Str} (ht : IsObjectText t) (hh : IsHash h) : t ≠ s ++ h := by
  rintro rfl
  have hlast := ht.last
  rw [List.getLast?_append_of_ne_nil _ hh.ne_nil] at hlast
  have := hh.digits 125 (List.mem_of_getLast? hlast)
  unfold IsHexDigit at this
  revert this
  decide

/-- Nor does it start with one. -/
theorem object_ne_left {t h s : Str} (ht : IsObjectText t) (hh : IsHash h) : t ≠ h ++ s := by
  rintro rfl
  obtain ⟨u, rest, rfl⟩ := List.exists_cons_of_ne_nil hh.ne_nil
  have hu : u = 123 := Option.some.inj ht.first
  have := hh.digits u (List.mem_cons_self ..)
  rw [hu] at this
  unfold IsHexDigit at this
  revert this
  decide

/-- What keeps the strings of the ledger's tree apart. -/
def scheme (hP : P.DigestLength) : Scheme Str Str where
  hash := sha256Hex P
  encode := fun l r => l ++ r
  IsDigest := IsHash
  IsLeaf := IsObjectText
  hash_digest := sha256Hex_isHash hP
  split_right := fun hh _ hr he => append_hash_right hh hr he
  split_left := fun hh hl _ he => append_hash_left hh hl he
  leaf_ne_right := object_ne_right
  leaf_ne_left := object_ne_left

theorem foldStrings_eq (hP : P.DigestLength) (h : Str) (path : List ProofPathNode) :
    foldStrings P h path = (scheme hP).foldPreimages h (path.map ProofPathNode.toSibling) := by
  induction path generalizing h with
  | nil => rfl
  | cons node rest ih =>
    have hstep : (if node.direction = .left then node.hash ++ h else h ++ node.hash) =
        (scheme hP).stepPreimage h node.toSibling := by
      simp [Scheme.stepPreimage, ProofPathNode.toSibling, scheme]
    simp only [foldStrings, hstep, ih]
    rfl

theorem leafHashes_ledger (calls : List Call) :
    (ledger P E calls).leaves.map Leaf.leafHash =
      (leafStrings (transactions P E 0 calls)).map (sha256Hex P) := by
  rw [leaves_ledger, leafStrings, List.map_map, List.map_map]
  rfl

theorem leafHash_isHash (hP : P.DigestLength) (calls : List Call) :
    ∀ h ∈ (ledger P E calls).leaves.map Leaf.leafHash, IsHash h := by
  rw [leafHashes_ledger]
  exact Scheme.map_hash_digests (S := scheme hP) _

theorem leafStrings_isObjectText (txs : List TokenTransaction) :
    ∀ t ∈ leafStrings txs, IsObjectText t := by
  intro t ht
  obtain ⟨tx, _, rfl⟩ := List.mem_map.mp ht
  exact canonical_isObjectText _

/-- **A path that folds to the root proves a recorded transaction.** Whoever made the
path, of whatever length, the object that it starts from is the leaf data of a transaction
of the ledger; or two of the strings hashed have one hash. -/
theorem foldMerkleProof_sound (hP : P.DigestLength) (calls : List Call)
    (hne : (ledger P E calls).leaves ≠ []) (d : Fields) (path : List ProofPathNode)
    (h : foldMerkleProof P (sha256Hex P (canonical (.obj d))) path =
      merkleRoot P (ledger P E calls)) :
    (∃ tx ∈ transactions P E 0 calls, KeyEquiv (.obj d) (leafData tx)) ∨
      Collision (sha256Hex P) (leafStrings (transactions P E 0 calls) ++
        nodeStrings P ((ledger P E calls).leaves.map Leaf.leafHash) ++ canonical (.obj d) ::
        foldStrings P (sha256Hex P (canonical (.obj d))) path) := by
  have hroot := getLast?_levels_of_fold (by simpa using hne) h
  rw [foldStrings_eq hP]
  rw [leafHashes_ledger] at hroot ⊢
  rcases (scheme hP).fold_sound (leafStrings_isObjectText _) (canonical_isObjectText
      d) _ hroot rfl with
    hmem | hcoll
  · left
    obtain ⟨tx, htx, he⟩ := List.mem_map.mp hmem
    exact ⟨tx, htx, leafData_of_sameText ((stableText_eq_iff _ _).mp he).symm⟩
  · exact Or.inr hcoll

/-- The root over two leaves is the hash of the pair. -/
theorem merkleRoot_pair {s : State} {a b : Str} (h : s.leaves.map Leaf.leafHash = [a, b]) :
    merkleRoot P s = hashPair P a b := by
  have hne : s.leaves.map Leaf.leafHash ≠ [] := by simp [h]
  have hroot := getLast?_merkleLevels P hne
  have hup : levels (hashPair P) [a, b] = [[a, b], [hashPair P a b]] := by
    rw [levels_of_lt _ (show 1 < [a, b].length from Nat.lt_succ_self 1)]
    exact congrArg _ (levels_of_le _ (Nat.le_refl 1))
  rw [merkleRoot, merkleLevels_eq P hne, h, hup]
  rfl

theorem sampleCalls_fold (P : Primitives) (E : Env) :
    foldMerkleProof P
      (sha256Hex P (canonical (.obj (leafFields (sampleCalls[0].transaction P E 0)))))
      [⟨(leafOf P (sampleCalls[1].transaction P E 7)).leafHash, .right⟩] =
      merkleRoot P (ledger P E sampleCalls) := by
  have hleaves : (ledger P E sampleCalls).leaves.map Leaf.leafHash =
      [(leafOf P (sampleCalls[0].transaction P E 0)).leafHash,
        (leafOf P (sampleCalls[1].transaction P E 7)).leafHash] := by
    rw [leaves_ledger]
    rfl
  rw [merkleRoot_pair hleaves]
  rfl

/-- The first transaction of `sampleCalls`, proved by the leaf of the second. -/
theorem foldMerkleProof_sound_sample :
    (∃ tx ∈ transactions Reference.primitives Reference.env 0 sampleCalls, KeyEquiv
      (.obj (leafFields (sampleCalls[0].transaction Reference.primitives Reference.env 0)))
      (leafData tx)) ∨ Collision (sha256Hex Reference.primitives)
        (leafStrings (transactions Reference.primitives Reference.env 0 sampleCalls) ++
          nodeStrings Reference.primitives ((ledger Reference.primitives
            Reference.env sampleCalls).leaves.map Leaf.leafHash) ++ canonical
          (.obj (leafFields (sampleCalls[0].transaction Reference.primitives Reference.env 0))) ::
          foldStrings Reference.primitives (sha256Hex Reference.primitives (canonical
            (.obj (leafFields (sampleCalls[0].transaction Reference.primitives Reference.env 0)))))
          [⟨(leafOf Reference.primitives (sampleCalls[1].transaction Reference.primitives
            Reference.env 7)).leafHash, .right⟩]) :=
  foldMerkleProof_sound Reference.digestLength sampleCalls
    (List.ne_nil_of_length_pos (by rw [sampleCalls_length]; decide)) _ _
    (sampleCalls_fold Reference.primitives Reference.env)

/-! ### The root commits to the ledger -/

theorem leafStrings_nodup {calls : List Call} (hE : E.FreshIds (recordDraws * calls.length)) :
    (leafStrings (transactions P E 0 calls)).Nodup := by
  rw [leafStrings, List.Nodup, List.pairwise_map]
  refine (transactions_txId_ne (by rwa [Nat.zero_add])).imp fun hne he => hne ?_
  exact leafData_txId ((stableText_eq_iff _ _).mp he)

theorem merkleRoot_empty {s : State} (h : s.leaves = []) : merkleRoot P s = [] := by
  rw [merkleRoot, h]
  rfl

/-- The root of a ledger with leaves is a leaf hash or a node hash, and never empty. -/
theorem merkleRoot_ne_nil (hP : P.DigestLength) (calls : List Call)
    (hne : (ledger P E calls).leaves ≠ []) : merkleRoot P (ledger P E calls) ≠ [] := by
  have hhashes : (ledger P E calls).leaves.map Leaf.leafHash ≠ [] := by simpa using hne
  have hroot := List.mem_of_getLast? (getLast?_merkleLevels P hhashes)
  rw [merkleLevels_eq P hhashes] at hroot
  rw [merkleRoot, merkleLevels_eq P hhashes]
  have hdigest := Scheme.level_digests (S := scheme hP) (leafHash_isHash hP calls) hroot
  exact (hdigest _ (List.mem_singleton_self _)).ne_nil

/-- **Two ledgers with one root have the same leaves.** They may come from different
runs and be of different lengths; otherwise two of the strings hashed have one hash. -/
theorem merkleRoot_binding (hP : P.DigestLength) {E₁ E₂ : Env} (calls₁ calls₂ : List Call)
    (h₁ : E₁.FreshIds (recordDraws * calls₁.length))
    (h₂ : E₂.FreshIds (recordDraws * calls₂.length))
    (h : merkleRoot P (ledger P E₁ calls₁) = merkleRoot P (ledger P E₂ calls₂)) :
    (ledger P E₁ calls₁).leaves.map Leaf.leafHash = (ledger P E₂ calls₂).leaves.map Leaf.leafHash ∨
      Collision (sha256Hex P)
        (leafStrings (transactions P E₁ 0 calls₁) ++ leafStrings (transactions P E₂ 0 calls₂) ++
          (nodeStrings P ((ledger P E₁ calls₁).leaves.map Leaf.leafHash) ++
            nodeStrings P ((ledger P E₂ calls₂).leaves.map Leaf.leafHash))) := by
  by_cases hne₁ : (ledger P E₁ calls₁).leaves = []
  · by_cases hne₂ : (ledger P E₂ calls₂).leaves = []
    · exact Or.inl (by rw [hne₁, hne₂])
    · rw [merkleRoot_empty hne₁] at h
      exact absurd h.symm (merkleRoot_ne_nil hP calls₂ hne₂)
  by_cases hne₂ : (ledger P E₂ calls₂).leaves = []
  · rw [merkleRoot_empty hne₂] at h
    exact absurd h (merkleRoot_ne_nil hP calls₁ hne₁)
  have hh₁ : (ledger P E₁ calls₁).leaves.map Leaf.leafHash ≠ [] := by simpa using hne₁
  have hh₂ : (ledger P E₂ calls₂).leaves.map Leaf.leafHash ≠ [] := by simpa using hne₂
  have hroot₁ := getLast?_merkleLevels P hh₁
  have hroot₂ := getLast?_merkleLevels P hh₂
  have hroot : (levels (hashPair P) ((ledger P E₁ calls₁).leaves.map Leaf.leafHash)).getLast? =
      (levels (hashPair P) ((ledger P E₂ calls₂).leaves.map Leaf.leafHash)).getLast? := by
    rw [← merkleLevels_eq P hh₁, ← merkleLevels_eq P hh₂, hroot₁, hroot₂]
    exact congrArg (fun r => some [r]) h
  simp only [leafHashes_ledger] at hroot hh₁ hh₂ ⊢
  by_cases hT : Collision (sha256Hex P) (leafStrings (transactions P E₁ 0 calls₁) ++
    leafStrings (transactions P E₂ 0 calls₂) ++
    (nodeStrings P ((leafStrings (transactions P E₁ 0 calls₁)).map (sha256Hex P)) ++
      nodeStrings P ((leafStrings (transactions P E₂ 0 calls₂)).map (sha256Hex P))))
  · exact Or.inr hT
  · exact (scheme hP).root_binding (leafStrings_isObjectText _) (leafStrings_isObjectText _)
      (by simpa using hh₁) (by simpa using hh₂)
      (nodup_map_hash hT (fun t ht => by simp [ht]) (leafStrings_nodup h₁))
      (nodup_map_hash hT (fun t ht => by simp [ht]) (leafStrings_nodup h₂)) hroot

theorem merkleRoot_binding_sample :
    (ledger Reference.primitives Reference.env sampleCalls).leaves.map Leaf.leafHash =
      (ledger Reference.primitives Reference.env sampleCalls).leaves.map Leaf.leafHash ∨
      Collision (sha256Hex Reference.primitives)
        (leafStrings (transactions Reference.primitives Reference.env 0 sampleCalls) ++
          leafStrings (transactions Reference.primitives Reference.env 0 sampleCalls) ++
          (nodeStrings Reference.primitives ((ledger Reference.primitives Reference.env
            sampleCalls).leaves.map Leaf.leafHash) ++ nodeStrings Reference.primitives
            ((ledger Reference.primitives Reference.env sampleCalls).leaves.map Leaf.leafHash))) :=
  merkleRoot_binding Reference.digestLength sampleCalls sampleCalls (Reference.freshIds _)
    (Reference.freshIds _) rfl

end Wayfinder.Service.Ledger

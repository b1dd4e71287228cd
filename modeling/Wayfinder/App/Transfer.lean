import Wayfinder.Hash.Landing
import Wayfinder.Service.Ledger.Inclusion

/-! The page of a transfer: what its verdict on a proof says.

The page folds the leaf hash of the response and compares the end with the root that
the response names. Of the transaction id, the index and the length of the path it looks at
none, so the verdict is about the transaction shown exactly when those three are right
(`verdict_iff`): the ledger's own answers have them so (`addressed_getProof`), and any root
passes for a leaf under any id (`verdict_root`). -/
namespace Wayfinder.App.Transfer

open Js Hash Service.Ledger
open Crypto (foldMerkleProof)
open Service.Crypto (sha256Hex IsHash sha256Hex_isHash)

variable (P : Primitives)

/-- A leaf hash with its first digit changed. -/
def tamper (leafHash : Str) : Str :=
  (if startsWith leafHash (lit "0") then lit "f" else lit "0") ++ slice leafHash 1

/-- The verdict shown, of the leaf hash or of the tampered one; none before a proof is there. -/
def verdict (proof : Option ProofDetails) (tampered : Bool) : Option Bool :=
  proof.map fun proof =>
    let leaf := if tampered then tamper proof.leafHash else proof.leafHash
    foldMerkleProof P leaf proof.proofPath == proof.merkleRoot

/-- The ledger has the leaf that a response shows: at its index, for its transaction and with
its hash. -/
def Shown (s : State) (proof : ProofDetails) : Prop :=
  s.leaves[proof.leafIndex]? = some ⟨proof.txId, proof.leafHash⟩

/-- The sides of a path, lowest first; `true` where the sibling stands on the left. -/
def sides (path : List ProofPathNode) : List Bool := path.map fun node => node.direction = .left

/-- What the page leaves unchecked: the response starts from a hash, its path has a sibling
for each level of the tree and leads to its index, and its transaction is recorded there. -/
structure Addressed (s : State) (proof : ProofDetails) : Prop where
  leafHash : IsHash proof.leafHash
  length : proof.proofPath.length = Nat.clog 2 s.leaves.length
  index : landing (sides proof.proofPath) s.leaves.length = proof.leafIndex
  txId : s.leaves[proof.leafIndex]?.map Leaf.txId = some proof.txId

theorem sides_eq (path : List ProofPathNode) :
    sides path = (path.map ProofPathNode.toSibling).map Sibling.left := by
  rw [List.map_map]
  rfl

variable {P} {E : Env}

theorem verdict_eq_true {proof : ProofDetails} :
    verdict P (some proof) false = some true ↔
      foldMerkleProof P proof.leafHash proof.proofPath = proof.merkleRoot := by
  rw [verdict, Option.map_some, Option.some.injEq, beq_iff_eq]
  rfl

/-! ### What the ledger answers -/

/-- The proof that the ledger gives of a transaction is addressed. -/
theorem addressed_getProof (hP : P.DigestLength) (calls : List Call) {txId : Str}
    {proof : ProofDetails} (h : getProof P (ledger P E calls) txId = some proof) :
    Addressed (ledger P E calls) proof := by
  have hhash := leafHash_isHash (E := E) hP calls
  generalize ledger P E calls = s at h hhash ⊢
  unfold getProof at h
  cases hidx : s.leaves.findIdx? (·.txId = txId) with
  | none =>
    rw [hidx] at h
    cases h
  | some i =>
    rw [hidx] at h
    obtain rfl := Option.some.inj h
    obtain ⟨hi, htx, _⟩ := List.findIdx?_eq_some_iff_getElem.mp hidx
    have hi' : i < (s.leaves.map Leaf.leafHash).length := by rwa [List.length_map]
    have hne := List.ne_nil_of_length_pos (Nat.zero_lt_of_lt hi')
    have hpath := pathFrom_eq P (s.leaves.map Leaf.leafHash) i hi'
    refine ⟨?_, ?_, ?_, ?_⟩
    · show IsHash ((s.leaves.map Leaf.leafHash).getD i [])
      rw [List.getD_eq_getElem _ _ hi']
      exact hhash _ (List.getElem_mem hi')
    · show (pathFrom i (merkleLevels P _).dropLast).length = _
      rw [merkleLevels_eq P hne, ← List.length_map (f := ProofPathNode.toSibling), hpath,
        pathThrough_length, levels_length _ _ hne, List.length_map]
      rfl
    · show landing (sides (pathFrom i (merkleLevels P _).dropLast)) _ = i
      have hland := landing_pathThrough (hashPair P) [] _ i hi'
      rwa [merkleLevels_eq P hne, sides_eq, hpath, ← List.length_map (f := Leaf.leafHash)]
    · show s.leaves[i]?.map Leaf.txId = some txId
      rw [List.getElem?_eq_getElem hi, Option.map_some, of_decide_eq_true htx]

/-! ### What a verdict says -/

/-- The strings hashed to make the ledger and to check a response. -/
def hashed (P : Primitives) (E : Env) (calls : List Call) (proof : ProofDetails) : List Str :=
  leafStrings (transactions P E 0 calls) ++ nodeStrings P
    ((ledger P E calls).leaves.map Leaf.leafHash) ++ foldStrings P proof.leafHash proof.proofPath

section
variable {calls : List Call} {proof : ProofDetails}

/-- An accepted response of the tree's height starts where its path lands. -/
theorem landing_leafHash (hP : P.DigestLength)
    (hT : ¬ Collision (sha256Hex P) (hashed P E calls proof)) (hne : (ledger P E calls).leaves ≠ [])
    (hhash : IsHash proof.leafHash)
    (hfold : foldMerkleProof P proof.leafHash proof.proofPath = merkleRoot P (ledger P E calls))
    (hlen : proof.proofPath.length = Nat.clog 2 (ledger P E calls).leaves.length) :
    ((ledger P E calls).leaves.map Leaf.leafHash)[landing (sides proof.proofPath)
      (ledger P E calls).leaves.length]? = some proof.leafHash := by
  have hhashes : (ledger P E calls).leaves.map Leaf.leafHash ≠ [] := by simpa using hne
  have hlength :
      ((ledger P E calls).leaves.map Leaf.leafHash).length = (ledger P E calls).leaves.length :=
    List.length_map ..
  have hat := Scheme.fold_landing (S := scheme hP) hT (leafHash_isHash hP calls)
    (fun b hb => List.mem_append_left _ (List.mem_append_right _ hb)) hhash
    (fun b hb => List.mem_append_right _ (foldStrings_eq hP proof.leafHash proof.proofPath ▸ hb))
    hhashes (by rw [List.length_map, hlength, hlen]) (getLast?_levels_of_fold hhashes hfold)
  rwa [hlength, ← sides_eq] at hat

/-- A response that starts at a leaf and is accepted has a path of the tree's height. -/
theorem length_of_shown (hP : P.DigestLength)
    (hT : ¬ Collision (sha256Hex P) (hashed P E calls proof))
    (hmem : proof.leafHash ∈ (ledger P E calls).leaves.map Leaf.leafHash)
    (hfold : foldMerkleProof P proof.leafHash proof.proofPath = merkleRoot P (ledger P E calls)) :
    proof.proofPath.length = Nat.clog 2 (ledger P E calls).leaves.length := by
  have hroot := getLast?_levels_of_fold (List.ne_nil_of_mem hmem) hfold
  have hlength :
      (ledger P E calls).leaves.length = (leafStrings (transactions P E 0 calls)).length := by
    rw [leaves_ledger, List.length_map, leafStrings, List.length_map]
  unfold hashed at hT
  rw [foldStrings_eq hP] at hT
  rw [leafHashes_ledger] at hmem hroot hT
  obtain ⟨b, hb, he⟩ := List.mem_map.mp hmem
  rw [← he] at hroot hT
  have := Scheme.length_of_leaf (S := scheme hP) hT (leafStrings_isObjectText _)
    (fun c hc => by simp [hc]) (fun c hc => List.mem_append_left _ (List.mem_append_right _ hc)) hb
    (fun c hc => List.mem_append_right _ hc) hroot
  rw [List.length_map] at this
  rw [this, hlength]

end

/-- **The verdict is about the transaction shown exactly when the response is addressed**,
whoever made the response; or two of the strings hashed have one hash. -/
theorem verdict_iff (hP : P.DigestLength) (calls : List Call)
    (hE : E.FreshIds (recordDraws * calls.length)) (proof : ProofDetails)
    (hroot : proof.merkleRoot = merkleRoot P (ledger P E calls))
    (hv : verdict P (some proof) false = some true) :
    (Shown (ledger P E calls) proof ↔ Addressed (ledger P E calls) proof) ∨
      Collision (sha256Hex P) (hashed P E calls proof) := by
  have hfold := verdict_eq_true.mp hv
  rw [hroot] at hfold
  by_cases hT : Collision (sha256Hex P) (hashed P E calls proof)
  · exact Or.inr hT
  left
  apply Iff.intro
  · intro hs
    have hleaf := List.mem_of_getElem? hs
    have hmem : proof.leafHash ∈ (ledger P E calls).leaves.map Leaf.leafHash :=
      List.mem_map.mpr ⟨_, hleaf, rfl⟩
    have hhash : IsHash proof.leafHash := leafHash_isHash hP calls _ hmem
    have hlen := length_of_shown hP hT hmem hfold
    have hland := landing_leafHash hP hT (List.ne_nil_of_mem hleaf) hhash hfold hlen
    have hnodup : ((ledger P E calls).leaves.map Leaf.leafHash).Nodup := by
      rw [leafHashes_ledger]
      exact nodup_map_hash hT (fun t ht => by simp [hashed, ht]) (leafStrings_nodup hE)
    have hidx : ((ledger P E calls).leaves.map Leaf.leafHash)[proof.leafIndex]? =
        some proof.leafHash := by
      rw [List.getElem?_map, hs]
      rfl
    obtain ⟨hi, _⟩ := List.getElem?_eq_some_iff.mp hland
    exact ⟨hhash, hlen, (List.getElem?_inj hi hnodup).mp (hland.trans hidx.symm), by rw [hs]; rfl⟩
  · intro ha
    have hne : (ledger P E calls).leaves ≠ [] := by
      intro hnil
      have := ha.txId
      rw [hnil] at this
      cases this
    have hland := landing_leafHash hP hT hne ha.leafHash hfold ha.length
    rw [ha.index, List.getElem?_map, Option.map_eq_some_iff] at hland
    obtain ⟨leaf, hl, hh⟩ := hland
    have htx := ha.txId
    rw [hl, Option.map_some, Option.some.injEq] at htx
    rw [Shown, hl, ← htx, ← hh]

/-- The first transaction of two, with its own proof. -/
def sampleProof (P : Primitives) (E : Env) : ProofDetails :=
  { txId := (sampleCalls[0].transaction P E 0).txId
    leafHash := (leafOf P (sampleCalls[0].transaction P E 0)).leafHash
    merkleRoot := merkleRoot P (ledger P E sampleCalls)
    proofPath := [⟨(leafOf P (sampleCalls[1].transaction P E 7)).leafHash, .right⟩]
    leafIndex := 0 }

theorem verdict_sampleProof (P : Primitives) (E : Env) :
    (sampleProof P E).merkleRoot = merkleRoot P (ledger P E sampleCalls) ∧
      verdict P (some (sampleProof P E)) false = some true :=
  ⟨rfl, verdict_eq_true.mpr (sampleCalls_fold P E)⟩

theorem verdict_iff_sample :
    (Shown (ledger Reference.primitives Reference.env sampleCalls)
      (sampleProof Reference.primitives Reference.env) ↔
      Addressed (ledger Reference.primitives Reference.env sampleCalls)
        (sampleProof Reference.primitives Reference.env)) ∨
      Collision (sha256Hex Reference.primitives) (hashed Reference.primitives Reference.env
        sampleCalls (sampleProof Reference.primitives Reference.env)) :=
  verdict_iff Reference.digestLength sampleCalls (Reference.freshIds _)
    (sampleProof Reference.primitives Reference.env) (verdict_sampleProof _ _).1
    (verdict_sampleProof _ _).2

/-! ### What passes besides -/

/-- The root of a ledger, shown as the leaf of any transaction. -/
def rootProof (P : Primitives) (s : State) (txId : Str) (leafIndex : Nat) : ProofDetails :=
  { txId, leafHash := merkleRoot P s, merkleRoot := merkleRoot P s, proofPath := [], leafIndex }

/-- With an empty path the root passes, under any id and at any index. -/
theorem verdict_root (s : State) (txId : Str) (leafIndex : Nat) :
    verdict P (some (rootProof P s txId leafIndex)) false = some true :=
  verdict_eq_true.mpr rfl

/-- Two minted tokens. -/
def mints : List Call :=
  [.mint ⟨lit "urn:uuid:token-1", lit "did:key:zAlice", claimsDigest Reference.primitives none⟩,
    .mint ⟨lit "urn:uuid:token-2", lit "did:key:zAlice", claimsDigest Reference.primitives none⟩]

/-- A transaction that was never recorded is shown as included. -/
theorem verdict_unrecorded :
    (rootProof Reference.primitives (ledger Reference.primitives Reference.env mints)
      (lit "urn:uuid:tx-1") 0).merkleRoot =
      merkleRoot Reference.primitives (ledger Reference.primitives Reference.env mints) ∧
      verdict Reference.primitives (some (rootProof Reference.primitives
        (ledger Reference.primitives Reference.env mints) (lit "urn:uuid:tx-1") 0)) false =
        some true ∧
      ¬ Shown (ledger Reference.primitives Reference.env mints) (rootProof Reference.primitives
        (ledger Reference.primitives Reference.env mints) (lit "urn:uuid:tx-1") 0) := by
  refine ⟨rfl, verdict_root _ _ _, fun h => ?_⟩
  rw [Shown, leaves_ledger] at h
  have htx : some (lit "urn:uuid:tx-" ++ Reference.env.uuid 0) = some (lit "urn:uuid:tx-1") :=
    congrArg (Option.map Leaf.txId) h
  revert htx
  decide

/-! ### The tampered leaf -/

theorem tamper_ne (leafHash : Str) : tamper leafHash ≠ leafHash := by
  intro h
  unfold tamper at h
  split at h
  · next h0 =>
    have h1 : startsWith (lit "f" ++ slice leafHash 1) (lit "0") = true := by rw [h]; exact h0
    cases h1
  · next h0 =>
    apply h0
    rw [← h]
    exact startsWith_append _ _

/-- **What the page shows as tampered with does not pass**, when the leaf itself does; or
two of the strings hashed have one hash. -/
theorem verdict_tampered (hP : P.DigestLength) {proof : ProofDetails}
    (h : verdict P (some proof) false = some true) :
    verdict P (some proof) true = some false ∨
      Collision (sha256Hex P) (foldStrings P proof.leafHash proof.proofPath ++
        foldStrings P (tamper proof.leafHash) proof.proofPath) := by
  have hfold := verdict_eq_true.mp h
  by_cases hT : Collision (sha256Hex P) (foldStrings P proof.leafHash proof.proofPath ++
    foldStrings P (tamper proof.leafHash) proof.proofPath)
  · exact Or.inr hT
  left
  show some (foldMerkleProof P (tamper proof.leafHash) proof.proofPath == proof.merkleRoot) =
    some false
  refine congrArg some (beq_eq_false_iff_ne.mpr fun ht => tamper_ne proof.leafHash ?_)
  rw [← hfold, foldMerkleProof_eq, foldMerkleProof_eq] at ht
  rw [foldStrings_eq hP, foldStrings_eq hP] at hT
  refine Scheme.fold_inj (S := scheme hP) hT (fun he => ?_) (List.subset_append_right _ _)
    (List.subset_append_left _ _) ht
  exact he.elim List.append_cancel_left List.append_cancel_right

end Wayfinder.App.Transfer

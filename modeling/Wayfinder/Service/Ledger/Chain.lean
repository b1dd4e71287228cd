import Wayfinder.Hash.Chain
import Wayfinder.Js.KeyEquiv
import Wayfinder.Reference
import Wayfinder.Service.Ledger

/-! The state-commitment chain, and what its head commits to.

A token's commitments are a hash chain: each is the hash of a record that holds the one before it,
and the first record holds the empty string, which is no hash. The record is printed with its keys
in order, so its text gives every field back (`canonical_input_inj`), and the chain is one of
`Hash.chain_binding`: the head determines the changes and, through their digests, the claims
(`head_binding`). -/
namespace Wayfinder.Service.Ledger

open Js Crypto Hash

/-- A change of a token's state, without the commitment to the state before. -/
structure StateChange where
  txId : Str
  tokenId : Str
  ownerDid : Str
  claimsDigest : Str
  timestamp : Str

/-- What `nextCommitment` is given for a change. -/
def StateChange.input (change : StateChange) (previousCommitment : Str) : CommitmentInput :=
  { previousCommitment, txId := change.txId, tokenId := change.tokenId, ownerDid := change.ownerDid
    claimsDigest := change.claimsDigest, timestamp := change.timestamp }

variable (P : Primitives)

/-- The commitment after a list of changes, each over the one before it. -/
def head (start : Str) (changes : List StateChange) : Str :=
  changes.foldl
    (fun previousCommitment change => nextCommitment P (change.input previousCommitment)) start

/-- The strings hashed on the way to a head. -/
def headStrings (start : Str) : List StateChange → List Str
  | [] => []
  | change :: rest =>
    canonical (change.input start).toJson ::
      headStrings (nextCommitment P (change.input start)) rest

/-- A change with the claims that its digest is of, which are JSON: their numbers are finite. -/
structure ClaimedChange where
  txId : Str
  tokenId : Str
  ownerDid : Str
  claims : Option (List Json)
  timestamp : Str
  finite : (Json.arr (claims.getD [])).Finite

def ClaimedChange.change (c : ClaimedChange) : StateChange :=
  { txId := c.txId, tokenId := c.tokenId, ownerDid := c.ownerDid,
    claimsDigest := claimsDigest P c.claims
    timestamp := c.timestamp }

/-- Changes alike up to the order of keys in their claims; absent claims are none. -/
structure ClaimedChange.Alike (a b : ClaimedChange) : Prop where
  txId : a.txId = b.txId
  tokenId : a.tokenId = b.tokenId
  ownerDid : a.ownerDid = b.ownerDid
  claims : KeyEquiv (.arr (a.claims.getD [])) (.arr (b.claims.getD []))
  timestamp : a.timestamp = b.timestamp

/-- The strings hashed to the claims digests. -/
def claimsStrings (changes : List ClaimedChange) : List Str :=
  changes.map fun c => canonical (.arr (c.claims.getD []))

variable {P}

/-! ### The text of a record -/

theorem toJson_inj {a b : CommitmentInput} (h : SameText a.toJson b.toJson) : a = b := by
  have hfield : ∀ (k : Str) (read : CommitmentInput → Str),
      (∀ i : CommitmentInput, (i.toJson.prop k) = some (.str (read i))) → read a = read b := by
    intro k read hread
    obtain ⟨v, hv, he⟩ := SameText.getField_some h (hread a)
    have hb : some v = some (.str (read b)) := hv.symm.trans (hread b)
    rw [Option.some.injEq] at hb
    subst hb
    exact (Json.str.inj he.str_left).symm
  cases a with
  | mk previousCommitment txId tokenId ownerDid claimsDigest timestamp =>
    obtain rfl := hfield (lit "previousCommitment") CommitmentInput.previousCommitment fun _ => rfl
    obtain rfl := hfield (lit "txId") CommitmentInput.txId fun _ => rfl
    obtain rfl := hfield (lit "tokenId") CommitmentInput.tokenId fun _ => rfl
    obtain rfl := hfield (lit "ownerDid") CommitmentInput.ownerDid fun _ => rfl
    obtain rfl := hfield (lit "claimsDigest") CommitmentInput.claimsDigest fun _ => rfl
    obtain rfl := hfield (lit "timestamp") CommitmentInput.timestamp fun _ => rfl
    rfl

/-- The text that is hashed gives back the commitment before and the change. -/
theorem canonical_input_inj {p q : Str} {a b : StateChange}
    (h : canonical (a.input p).toJson = canonical (b.input q).toJson) : p = q ∧ a = b := by
  have hinput := toJson_inj ((stableText_eq_iff _ _).mp h)
  cases a with
  | mk =>
    cases b with
    | mk =>
      simp only [StateChange.input, CommitmentInput.mk.injEq] at hinput
      obtain ⟨rfl, rfl, rfl, rfl, rfl, rfl⟩ := hinput
      exact ⟨rfl, rfl⟩

/-! ### The chain -/

theorem headStrings_eq (start : Str) (changes : List StateChange) :
    headStrings P start changes = chainPreimages (sha256Hex P)
      (fun p change => canonical (StateChange.input change p).toJson) start changes := by
  induction changes generalizing start with
  | nil => rfl
  | cons change rest ih =>
    rw [headStrings, ih]
    rfl

theorem head_inj (hP : P.DigestLength) {T : List Str} (hT : ¬ Collision (sha256Hex P) T)
    {as bs : List StateChange} (ha : headStrings P [] as ⊆ T) (hb : headStrings P [] bs ⊆ T)
    (h : head P [] as = head P [] bs) : as = bs := by
  rw [headStrings_eq] at ha hb
  exact chain_binding hT (fun b => (sha256Hex_isHash hP b).ne_nil) canonical_input_inj ha hb h

/-- A claims digest gives the claims back. -/
theorem claims_of_digest {T : List Str} (hT : ¬ Collision (sha256Hex P) T)
    {as bs : List ClaimedChange} (ha : claimsStrings as ⊆ T) (hb : claimsStrings bs ⊆ T)
    (h : as.map (ClaimedChange.change P) = bs.map (ClaimedChange.change P)) :
    List.Forall₂ ClaimedChange.Alike as bs := by
  induction as generalizing bs with
  | nil =>
    rw [List.map_nil, eq_comm, List.map_eq_nil_iff] at h
    rw [h]
    exact List.Forall₂.nil
  | cons a as ih =>
    cases bs with
    | nil => cases h
    | cons b bs =>
      rw [List.map_cons, List.map_cons, List.cons.injEq] at h
      obtain ⟨hchange, hrest⟩ := h
      rw [claimsStrings, List.map_cons, List.cons_subset] at ha hb
      simp only [ClaimedChange.change, StateChange.mk.injEq] at hchange
      obtain ⟨htx, htoken, howner, hdigest, htime⟩ := hchange
      have htext := eq_of_hash_eq hT ha.1 hb.1 hdigest
      have hclaims := (sameText_iff a.finite b.finite).mp ((stableText_eq_iff _ _).mp htext)
      exact List.Forall₂.cons ⟨htx, htoken, howner, hclaims, htime⟩ (ih ha.2 hb.2 hrest)

/-- **Two chains with one head have the same changes**, whatever their lengths, and the same
claims up to the order of keys where the digests are claims digests; or two of the strings
hashed have one hash. -/
theorem head_binding (hP : P.DigestLength) :
    (∀ as bs : List StateChange, head P [] as = head P [] bs →
      as = bs ∨ Collision (sha256Hex P) (headStrings P [] as ++ headStrings P [] bs)) ∧
      (∀ as bs : List ClaimedChange,
        head P [] (as.map (ClaimedChange.change P)) = head P [] (bs.map (ClaimedChange.change P)) →
        List.Forall₂ ClaimedChange.Alike as bs ∨
        Collision (sha256Hex P) (headStrings P [] (as.map (ClaimedChange.change P)) ++ headStrings P
          [] (bs.map (ClaimedChange.change P)) ++ (claimsStrings as ++ claimsStrings bs))) := by
  refine ⟨fun as bs h => ?_, fun as bs h => ?_⟩
  · by_cases hT : Collision (sha256Hex P) (headStrings P [] as ++ headStrings P [] bs)
    · exact Or.inr hT
    · exact Or.inl (head_inj hP hT (List.subset_append_left _ _) (List.subset_append_right _ _) h)
  · by_cases hT :
      Collision (sha256Hex P) (headStrings P [] (as.map (ClaimedChange.change P)) ++ headStrings P
        [] (bs.map (ClaimedChange.change P)) ++ (claimsStrings as ++ claimsStrings bs))
    · exact Or.inr hT
    left
    have hchanges := head_inj hP hT (fun t ht => by simp [ht]) (fun t ht => by simp [ht]) h
    exact claims_of_digest hT (fun t ht => by simp [ht]) (fun t ht => by simp [ht]) hchanges

/-- A claim, and the same with its keys the other way round. -/
def claimThere : List Json :=
  [.obj [(lit "id", .str (lit "urn:uuid:vc-1")), (lit "score", .num .zero)]]

def claimBack : List Json :=
  [.obj [(lit "score", .num .zero), (lit "id", .str (lit "urn:uuid:vc-1"))]]

/-- A token that is minted with claims, passed on, and comes back. -/
def passedOn (claims : List Json) (finite : (Json.arr claims).Finite) : List ClaimedChange :=
  [(lit "1", lit "did:key:zAlice"), (lit "2", lit "did:key:zBob"),
    (lit "3", lit "did:key:zAlice")].map fun p =>
    { txId := p.1, tokenId := lit "urn:uuid:token-1", ownerDid := p.2, claims := some claims
      timestamp := lit "2025-01-01T00:00:00.000Z", finite }

theorem finite_claimThere : (Json.arr claimThere).Finite := ⟨⟨trivial, rfl, trivial⟩, trivial⟩

theorem finite_claimBack : (Json.arr claimBack).Finite := ⟨⟨rfl, trivial, trivial⟩, trivial⟩

/-- The order of the keys does not show in the head. -/
theorem head_passedOn (P : Primitives) :
    head P [] ((passedOn claimThere finite_claimThere).map (ClaimedChange.change P)) =
      head P [] ((passedOn claimBack finite_claimBack).map (ClaimedChange.change P)) := by
  have htext : canonical (.arr claimThere) = canonical (.arr claimBack) := by decide
  simp only [passedOn, List.map_cons, List.map_nil, ClaimedChange.change, claimsDigest,
    Option.getD_some, htext]

/-- Three changes, whose claims differ in the order of their keys. -/
theorem head_binding_passedOn :
    ((passedOn claimThere finite_claimThere).map (ClaimedChange.change Reference.primitives) =
      (passedOn claimBack finite_claimBack).map (ClaimedChange.change Reference.primitives) ∨
      Collision (sha256Hex Reference.primitives)
        (headStrings Reference.primitives [] ((passedOn claimThere finite_claimThere).map
          (ClaimedChange.change Reference.primitives)) ++
          headStrings Reference.primitives [] ((passedOn claimBack finite_claimBack).map
            (ClaimedChange.change Reference.primitives)))) ∧
      (List.Forall₂ ClaimedChange.Alike (passedOn claimThere finite_claimThere)
        (passedOn claimBack finite_claimBack) ∨ Collision (sha256Hex Reference.primitives)
          (headStrings Reference.primitives [] ((passedOn claimThere finite_claimThere).map
            (ClaimedChange.change Reference.primitives)) ++ headStrings Reference.primitives
            [] ((passedOn claimBack finite_claimBack).map (ClaimedChange.change
              Reference.primitives)) ++ (claimsStrings (passedOn claimThere finite_claimThere) ++
                claimsStrings (passedOn claimBack finite_claimBack)))) :=
  ⟨(head_binding Reference.digestLength).1 _ _ (head_passedOn Reference.primitives),
    (head_binding Reference.digestLength).2 _ _ (head_passedOn Reference.primitives)⟩

end Wayfinder.Service.Ledger

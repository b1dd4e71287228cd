import Wayfinder.Service.Handlers.Heads

/-! What the commitment of a token covers.

Whoever has a copy of a token can compute its commitment again, over the commitment, the
transaction and the time of the last record. Owner and claims go into the hash; the other
identities, the lifecycle status and the supply do not. So the commitment binds a copy to
the token exactly where owner or claims differ (`commitment_binds_iff`). -/
namespace Wayfinder.Service.Handlers

open Js Envelope Credentials Tokens Hash
open Service.Crypto (sha256Hex)
open Ledger (TokenTransaction StateChange tokenTransactions canonical_input_inj)

/-- The state of a token, as a copy of it may say; its claims are any values. -/
structure TokenCopy where
  identities : List Identity
  claims : Option (List Json)
  status : Str
  supply : Supply

def TokenCopy.of (token : TokenInstance) : TokenCopy :=
  { identities := token.identities, claims := token.claims.map fun claims => claims.map Vc.toJson
    status := token.state.status, supply := token.state.supply }

def TokenCopy.ownerDid (copy : TokenCopy) : Option Str :=
  (copy.identities.find? (·.type == lit "owner")).map Identity.id

/-- The change of a record, with the owner and the claims of a copy. -/
def TokenCopy.change (P : Primitives) (tx : TokenTransaction) (copy : TokenCopy)
    (ownerDid : Str) : StateChange :=
  { txId := slice tx.txId (lit "urn:uuid:tx-").length
    tokenId := tx.tokenId
    ownerDid
    claimsDigest := Ledger.claimsDigest P copy.claims
    timestamp := tx.timestamp }

/-- What is hashed again for a copy, if it has an owner, and the commitment this gives. -/
def TokenCopy.text (P : Primitives) (tx : TokenTransaction) (copy : TokenCopy) : Option Str :=
  copy.ownerDid.map fun ownerDid =>
    Ledger.canonical ((copy.change P tx ownerDid).input (previousOf tx)).toJson

def TokenCopy.recomputed (P : Primitives) (tx : TokenTransaction) (copy : TokenCopy) : Option Str :=
  (copy.text P tx).map (sha256Hex P)

def TokenCopy.claimsText (copy : TokenCopy) : Str := Ledger.canonical (.arr (copy.claims.getD []))

/-- A copy does not have the commitment of the token; or two of the strings hashed, both for
the commitment or both for the claims, have one hash. -/
def Binds (P : Primitives) (tx : TokenTransaction) (token : TokenInstance)
    (copy : TokenCopy) : Prop :=
  copy.recomputed P tx ≠ token.state.stateCommitment ∨
    Collision (sha256Hex P) (((TokenCopy.of token).text P tx).toList ++ (copy.text P tx).toList) ∨
    Collision (sha256Hex P) [(TokenCopy.of token).claimsText, copy.claimsText]

/-- Copies with one owner and the same claims, up to the order of keys and up to what JSON prints as
`null`. -/
structure TokenCopy.Alike (a b : TokenCopy) : Prop where
  owner : a.ownerDid = b.ownerDid
  claims : SameText (.arr (a.claims.getD [])) (.arr (b.claims.getD []))

variable {P : Primitives} {E : Env} {tx : TokenTransaction}

/-! ### The text of a copy -/

theorem TokenCopy.Alike.claimsText {a b : TokenCopy} (h : a.Alike b) :
    a.claimsText = b.claimsText :=
  h.claims.stableText

theorem TokenCopy.Alike.text {a b : TokenCopy} (h : a.Alike b) : a.text P tx = b.text P tx := by
  have hdigest : Ledger.claimsDigest P a.claims = Ledger.claimsDigest P b.claims :=
    congrArg (sha256Hex P) h.claimsText
  simp only [TokenCopy.text, TokenCopy.change, h.owner, hdigest]

/-- Without a collision the texts of two copies and of their claims, if one commitment comes of
them, are of copies that are alike. -/
theorem TokenCopy.alike_of_recomputed {a b : TokenCopy} {did : Str} (ha : a.ownerDid = some did)
    (hT : ¬ Collision (sha256Hex P) ((a.text P tx).toList ++ (b.text P tx).toList))
    (hC : ¬ Collision (sha256Hex P) [a.claimsText, b.claimsText])
    (h : b.recomputed P tx = a.recomputed P tx) :
    a.Alike b := by
  cases hb : b.ownerDid with
  | none => simp [recomputed, text, ha, hb] at h
  | some did' =>
    simp only [recomputed, text, ha, hb, Option.map_some, Option.some.injEq, Option.toList_some,
      List.singleton_append] at h hT
    have htext := eq_of_hash_eq hT (List.mem_cons_self ..)
      (List.mem_cons_of_mem _ (List.mem_singleton_self _)) h.symm
    obtain ⟨_, hchange⟩ := canonical_input_inj htext
    simp only [change, StateChange.mk.injEq, true_and, and_true] at hchange
    obtain ⟨rfl, hdigest⟩ := hchange
    have hclaims := eq_of_hash_eq hC (List.mem_cons_self ..)
      (List.mem_cons_of_mem _ (List.mem_singleton_self _)) hdigest
    exact ⟨ha.trans hb.symm, (stableText_eq_iff _ _).mp hclaims⟩

/-! ### The last record -/

/-- Computed again for the token itself, its commitment comes out. -/
theorem Replays.recomputed {token : TokenInstance} {genesis : TokenTransaction}
    {transfers : List TokenTransaction} (h : Replays P token genesis transfers) :
    (TokenCopy.of token).recomputed P (transfers.getLastD genesis) =
      token.state.stateCommitment := by
  obtain ⟨did, howner, hreceiver⟩ := h.owner
  have howner : (TokenCopy.of token).ownerDid = some did := howner
  have hcommitment := nextCommitment_changeOf (h.committed _ List.getLastD_mem_cons)
  have hchange : (TokenCopy.of token).change P (transfers.getLastD genesis) did =
      changeOf P token (transfers.getLastD genesis) := by
    rw [TokenCopy.change, changeOf, hreceiver]
    rfl
  rw [h.head, ← hcommitment, TokenCopy.recomputed, TokenCopy.text, howner, Option.map_some,
    Option.map_some, hchange]
  rfl

/-- Where owner and claims agree the same texts are hashed; where not, a commitment that stays
the same is a collision. -/
theorem Replays.binds_iff {token : TokenInstance} {genesis : TokenTransaction}
    {transfers : List TokenTransaction} (h : Replays P token genesis transfers) (copy : TokenCopy) :
    Binds P (transfers.getLastD genesis) token copy ↔ ¬ (TokenCopy.of token).Alike copy := by
  have hrecomputed := h.recomputed
  refine ⟨fun hbinds halike => ?_, fun hother => ?_⟩
  · rw [Binds, ← hrecomputed, TokenCopy.recomputed, TokenCopy.recomputed, ← halike.text,
      ← halike.claimsText] at hbinds
    obtain hne | hcollision | hcollision := hbinds
    · exact hne rfl
    · exact not_collision_of_eq (by simp; grind) hcollision
    · exact not_collision_of_eq (by simp) hcollision
  · obtain ⟨did, howner, _⟩ := h.owner
    by_contra hbinds
    obtain ⟨hsame, hT, hC⟩ : _ ∧ _ ∧ _ := by simpa only [Binds, not_or, not_not] using hbinds
    exact hother (TokenCopy.alike_of_recomputed howner hT hC (hsame.trans hrecomputed.symm))

/-- **The commitment of a token binds its owner and its claims, and nothing else of its state.** -/
theorem commitment_binds_iff (requests : List Request)
    (hfresh : E.FreshIds (after P E requests).draws) {id : Str} {token : TokenInstance}
    (hget : (after P E requests).tokens.byId.get id = some token) :
    ∃ tx, (tokenTransactions (after P E requests).ledger id).getLast? = some tx ∧
      token.state.stateCommitment = some tx.stateAfter.stateCommitment ∧
      ∀ copy, Binds P tx token copy ↔ ¬ (TokenCopy.of token).Alike copy := by
  obtain ⟨genesis, transfers, htransactions, hreplays⟩ :=
    (recorded_after requests hfresh).replays hget
  refine ⟨transfers.getLastD genesis, ?_, hreplays.head, hreplays.binds_iff⟩
  rw [htransactions, List.getLast?_cons, ← List.getLastD_eq_getLast?]

/-! ### A deed that is said to be frozen -/

def frozen (token : TokenInstance) : TokenCopy := { TokenCopy.of token with status := lit "frozen" }

theorem deed_afterMint (h : Reliable P E) :
    (after P E (deedBefore P E none ++ [mintRequest E])).tokens.byId.get (newDeed P E none).id =
      some (deed P E none) := by
  rw [after_mint h none]
  exact deed_minted

/-- **The deed is active, a copy says that it is frozen, and the two have one commitment.** -/
theorem frozen_unnoticed : ∃ tx,
    (tokenTransactions (after Reference.primitives Reference.env
      (deedBefore Reference.primitives Reference.env none ++ [mintRequest Reference.env])).ledger
      (newDeed Reference.primitives Reference.env none).id).getLast? = some tx ∧
    (frozen (deed Reference.primitives Reference.env none)).status ≠
      (TokenCopy.of (deed Reference.primitives Reference.env none)).status ∧
    ¬ Binds Reference.primitives tx (deed Reference.primitives Reference.env none)
      (frozen (deed Reference.primitives Reference.env none)) := by
  obtain ⟨genesis, transfers, htransactions, hreplays⟩ :=
    (recorded_after _ (Reference.freshIds _)).replays (deed_afterMint reliable_reference)
  refine ⟨transfers.getLastD genesis, ?_, by decide, fun hbinds => ?_⟩
  · rw [htransactions, List.getLast?_cons, ← List.getLastD_eq_getLast?]
  · exact (hreplays.binds_iff _).mp hbinds ⟨rfl, SameText.refl _⟩

/-- A copy of the deed with another owner, and one without the claim. -/
def reowned (token : TokenInstance) : TokenCopy :=
  { TokenCopy.of token with identities := [⟨lit "mallory", lit "owner"⟩] }

def stripped (token : TokenInstance) : TokenCopy := { TokenCopy.of token with claims := none }

/-- Neither has the commitment of the deed. -/
theorem commitment_binds_iff_deed :
    ∃ tx, (tokenTransactions (after Reference.primitives Reference.env
      (deedBefore Reference.primitives Reference.env none ++ [mintRequest Reference.env])).ledger
      (newDeed Reference.primitives Reference.env none).id).getLast? = some tx ∧
      (deed Reference.primitives Reference.env none).state.stateCommitment =
        some tx.stateAfter.stateCommitment ∧
      Binds Reference.primitives tx (deed Reference.primitives Reference.env none)
        (reowned (deed Reference.primitives Reference.env none)) ∧
      Binds Reference.primitives tx (deed Reference.primitives Reference.env none)
        (stripped (deed Reference.primitives Reference.env none)) := by
  obtain ⟨tx, hlast, hhead, hbinds⟩ :=
    commitment_binds_iff _ (Reference.freshIds _) (deed_afterMint reliable_reference)
  refine ⟨tx, hlast, hhead, (hbinds _).mpr fun halike => ?_, (hbinds _).mpr fun halike => ?_⟩
  · have hfirst : some (100 : UInt16) = some 109 :=
      congrArg (fun did => did.bind List.head?) halike.owner
    exact absurd hfirst (by decide)
  · obtain ⟨items, hitems, hpairs⟩ := SameText.arr_left halike.claims
    cases hitems
    cases hpairs

end Wayfinder.Service.Handlers

import Wayfinder.Service.Handlers.History
import Wayfinder.Service.Ledger.Chain

/-! A token's commitment is the head of its history.

The records of a token's history, read as changes, are the chain that its commitment is the head of
(`head_history`), in every state of the service. So a commitment determines the history
behind it (`history_binding`), of whichever run. -/
namespace Wayfinder.Service.Handlers

open Js Envelope Tokens Hash
open Service.Crypto (sha256Hex)
open Ledger (TokenTransaction StateChange tokenTransactions head headStrings head_inj)

/-- A record of a token's history, as a change of its state. -/
def changeOf (P : Primitives) (token : TokenInstance) (tx : TokenTransaction) : StateChange :=
  { txId := slice tx.txId (lit "urn:uuid:tx-").length
    tokenId := tx.tokenId
    ownerDid := tx.toAccount.getD []
    claimsDigest := claimsDigestOf P token
    timestamp := tx.timestamp }

variable {P : Primitives} {E : Env}

/-- The commitment of a record is the next one after the commitment before it. -/
theorem nextCommitment_changeOf {token : TokenInstance} {tx : TokenTransaction}
    (h : Committed P (claimsDigestOf P token) tx) :
    Ledger.nextCommitment P ((changeOf P token tx).input (previousOf tx)) =
      tx.stateAfter.stateCommitment := by
  obtain ⟨txId, receiver, htx, hreceiver, hcommitment⟩ := h
  have hslice : slice tx.txId (lit "urn:uuid:tx-").length = txId := by rw [htx, slice_append]
  rw [hcommitment, StateChange.input, changeOf, hslice, hreceiver, Option.getD_some]

/-- Records that follow one another are a chain. -/
theorem head_follows {token : TokenInstance} (tx : TokenTransaction) (rest : List TokenTransaction)
    (hchain : (tx :: rest).IsChain Follows)
    (hcommitted : ∀ t ∈ tx :: rest, Committed P (claimsDigestOf P token) t) :
    head P (previousOf tx) ((tx :: rest).map (changeOf P token)) =
      (rest.getLastD tx).stateAfter.stateCommitment := by
  induction rest generalizing tx with
  | nil => exact nextCommitment_changeOf (hcommitted tx (List.mem_cons_self ..))
  | cons next rest ih =>
    obtain ⟨hfollows, hchain⟩ := List.isChain_cons_cons.mp hchain
    have hprevious : previousOf next = tx.stateAfter.stateCommitment := by
      rw [previousOf, hfollows.before, Option.getD_some]
    have hnext := ih next hchain fun t ht => hcommitted t (List.mem_cons_of_mem tx ht)
    rw [hprevious, ← nextCommitment_changeOf (hcommitted tx (List.mem_cons_self ..))] at hnext
    rw [List.getLastD_cons]
    exact hnext

theorem Replays.head_eq {token : TokenInstance} {genesis : TokenTransaction}
    {transfers : List TokenTransaction} (h : Replays P token genesis transfers) :
    token.state.stateCommitment =
      some (Ledger.head P [] ((genesis :: transfers).map (changeOf P token))) := by
  have hgenesis : previousOf genesis = [] := by rw [previousOf, h.minted.2]; rfl
  rw [h.head, ← head_follows genesis transfers h.chain h.committed, hgenesis]

/-- **The commitment of a token is the head of its history.** -/
theorem head_history (requests : List Request) (hfresh : E.FreshIds (after P E requests).draws)
    {id : Str} {token : TokenInstance}
    (hget : (after P E requests).tokens.byId.get id = some token) :
    token.state.stateCommitment = some
      (head P [] ((tokenTransactions (after P E requests).ledger id).map (changeOf P token))) := by
  obtain ⟨genesis, transfers, htransactions, hreplays⟩ :=
    (recorded_after requests hfresh).replays hget
  rw [htransactions]
  exact hreplays.head_eq

/-- **One commitment, one history.** Two tokens, of two runs or of one, with the same commitment
have the same changes behind them; or two of the strings hashed have one hash. -/
theorem history_binding (hP : P.DigestLength) {E₁ E₂ : Env} (requests₁ requests₂ : List Request)
    (hfresh₁ : E₁.FreshIds (after P E₁ requests₁).draws)
    (hfresh₂ : E₂.FreshIds (after P E₂ requests₂).draws) {id₁ id₂ : Str}
    {token₁ token₂ : TokenInstance}
    (hget₁ : (after P E₁ requests₁).tokens.byId.get id₁ = some token₁)
    (hget₂ : (after P E₂ requests₂).tokens.byId.get id₂ = some token₂)
    (h : token₁.state.stateCommitment = token₂.state.stateCommitment) :
    (tokenTransactions (after P E₁ requests₁).ledger id₁).map (changeOf P token₁) =
      (tokenTransactions (after P E₂ requests₂).ledger id₂).map (changeOf P token₂) ∨
      Collision (sha256Hex P) (headStrings P [] ((tokenTransactions
        (after P E₁ requests₁).ledger id₁).map (changeOf P token₁)) ++ headStrings P []
        ((tokenTransactions (after P E₂ requests₂).ledger id₂).map (changeOf P token₂))) := by
  rw [head_history requests₁ hfresh₁ hget₁, head_history requests₂ hfresh₂ hget₂,
    Option.some.injEq] at h
  by_cases hT : Collision (sha256Hex P) (headStrings P []
    ((tokenTransactions (after P E₁ requests₁).ledger id₁).map (changeOf P token₁)) ++ headStrings
    P [] ((tokenTransactions (after P E₂ requests₂).ledger id₂).map (changeOf P token₂)))
  · exact Or.inr hT
  · exact Or.inl (head_inj hP hT (List.subset_append_left _ _) (List.subset_append_right _ _) h)

end Wayfinder.Service.Handlers

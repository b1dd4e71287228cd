import Wayfinder.Service.Handlers.History
import Wayfinder.Service.Handlers.Sessions

/-! Who can move a token.

Only a transfer writes the owner of a token that is there (`owner_change`), and it asks for
the session of the owner; with the sessions of a run, that is an access token that the
owner's account was granted with (`moved_by_owner`). -/
namespace Wayfinder.Service.Handlers

open Js Envelope Credentials TokenClasses Tokens
open Ledger (TokenTransaction tokenTransactions)

variable {P : Primitives} {E : Env}

/-- The DID of a token's owner. -/
def ownerOf (w : World) (id : Str) : Option Str :=
  (w.tokens.byId.get id).bind fun token => token.ownerIdent.map Identity.id

theorem ownerOf_some {w : World} {id did : Str} (h : ownerOf w id = some did) :
    ∃ token, w.tokens.byId.get id = some token ∧ token.ownerIdent.map Identity.id = some did :=
  Option.bind_eq_some_iff.mp h

/-- What a step that moves a token from one owner to another is: a transfer by the account of
the old owner to the account of the new one, recorded once. -/
structure Transfers (w : World) (request : Request) (w' : World)
    (id fromDid toDid : Str) : Prop where
  transfer : ∃ payload account recipient toAddress, request.payload = .tokenTransact payload ∧
    payload.operation = lit "transfer" ∧
    payload.tokenId = some id ∧ payload.toAddress = some toAddress ∧
    tokenAccount w.accounts request.context = .ok (some account) ∧ account.did = fromDid ∧
    w.accounts.byAddress.get toAddress = some recipient ∧ recipient.did = toDid
  recorded : ∃ tx, tokenTransactions w'.ledger id = tokenTransactions w.ledger id ++ [tx] ∧
    tx.operation = .transfer ∧ tx.fromAccount = some fromDid ∧ tx.toAccount = some toDid

/-- **Only a transfer by its owner moves a token.** -/
theorem owner_change {w w' : World} {request : Request} {outcome : Outcome}
    (hchange : Change P E w request w' outcome) (hfresh : E.FreshIds w'.draws) (h : Recorded P E w)
    {id fromDid toDid : Str} (hfrom : ownerOf w id = some fromDid)
    (hto : ownerOf w' id = some toDid) (hne : fromDid ≠ toDid) :
    Transfers w request w' id fromDid toDid := by
  -- a token that a step leaves alone keeps its owner
  have hsame : ownerOf w' id = ownerOf w id → Transfers w request w' id fromDid toDid := by
    intro he
    rw [he, hfrom, Option.some.injEq] at hto
    exact absurd hto hne
  cases hchange with
  | quiet => exact hsame rfl
  | created => exact hsame rfl
  | issued => exact hsame rfl
  | revoked => exact hsame rfl
  | registered => exact hsame rfl
  | minted haccount hmint =>
    obtain ⟨tc, claim, m, log, _, _, hm, rfl, hbyId, rfl, rfl, _⟩ := mintToken_writes hmint
    have hdraws := lt_mintDraws m
    have hunborn :=
      (h.unborn hfresh (show w.draws ≤ m + 1 by omega) (Nat.lt_trans (by omega) hdraws)).1
    apply hsame
    obtain ⟨token, hget, _⟩ := ownerOf_some hfrom
    have hother : lit "urn:uuid:token-" ++ E.uuid (m + 1) ≠ id := by
      intro he
      rw [he, hget] at hunborn
      cases hunborn
    rw [ownerOf, hbyId]
    exact congrArg (Option.bind · _) (JsMap.get_set_ne _ _ hother)
  | @moved context payload account recipient movedId toAddress token haccount hoperation hid
      htoAddress hrecipient hget howner =>
    have hmoved : ∀ id', ownerOf { w with
        tokens :=
          (moveToken P E w.draws w.tokens w.ledger movedId token account.did recipient.did).1
        ledger :=
          (moveToken P E w.draws w.tokens w.ledger movedId token account.did recipient.did).2.1
        draws := w.draws + transferDraws + 1 + responseDraws } id' =
          if movedId = id' then some recipient.did else ownerOf w id' := by
      intro id'
      rw [ownerOf, moveToken_eq]
      show ((w.tokens.byId.set movedId _).get id').bind _ = _
      rw [JsMap.get_set]
      split
      · have hsome : (token.identities.find? (·.type == lit "owner")).isSome :=
          Option.isSome_of_mem (Option.map_eq_some_iff.mp howner).choose_spec.1
        exact ownerIdent_setOwner hsome
      · rfl
    by_cases he : movedId = id
    · subst he
      have hnew := hmoved movedId
      rw [if_pos rfl, hto, Option.some.injEq] at hnew
      obtain ⟨found, hfound, hold⟩ := ownerOf_some hfrom
      rw [hget, Option.some.injEq] at hfound
      rw [← hfound, howner, Option.some.injEq] at hold
      have hrecorded :=
        h.transactions (i := w.draws + 2) hfresh rfl ⟨by omega, lt_moveDraws _⟩ rfl movedId
      refine ⟨⟨payload, account, recipient, toAddress, rfl, hoperation, hid, htoAddress, haccount,
        hold, hrecipient, hnew.symm⟩, transferOf P E w.draws token account.did recipient.did, ?_,
        rfl, congrArg some hold, congrArg some hnew.symm⟩
      rw [hrecorded]
      exact congrArg _ (if_pos (h.tokenId hget))
    · exact hsame ((hmoved id).trans (if_neg he))

/-- A step moved a token by the session of its owner: the request carries an access token
that the owner's account was granted with, and names an account of the new owner. -/
structure MovedByOwner (P : Primitives) (E : Env) (pre : List Request) (request : Request)
    (id fromDid toDid : Str) :
    Prop where
  transfer : ∃ payload, request.payload = .tokenTransact payload ∧
    payload.operation = lit "transfer" ∧
    payload.tokenId = some id ∧ ∃ toAddress recipient, payload.toAddress = some toAddress ∧
      (after P E pre).accounts.byAddress.get toAddress = some recipient ∧
      recipient.address = toAddress ∧ recipient.did = toDid
  session : ∃ raw accessToken account,
    readProp? request.context (lit "authorization") = some (.str raw) ∧
    (raw = accessToken ∨ raw = lit "Bearer " ++ accessToken) ∧ Granted P E pre accessToken account ∧
    account.did = fromDid
  recorded : ∃ tx, tokenTransactions (after P E (pre ++ [request])).ledger id =
    tokenTransactions (after P E pre).ledger id ++ [tx] ∧ tx.operation = .transfer ∧
    tx.fromAccount = some fromDid ∧ tx.toAccount = some toDid

/-- **Only the owner's session moves a token**, in any step of any run. What the account
indexes hold is never rebound, and no two accounts have one DID. -/
theorem moved_by_owner (hb : P.Base58) (requests : List Request)
    (hids : E.FreshIds (after P E requests).draws)
    (hkeys : E.FreshKeys P (after P E requests).draws) :
    (∀ pre request post, requests = pre ++ request :: post → ∀ id fromDid toDid,
      ownerOf (after P E pre) id = some fromDid →
      ownerOf (after P E (pre ++ [request])) id = some toDid →
      fromDid ≠ toDid → MovedByOwner P E pre request id fromDid toDid) ∧
      (∀ pre post, requests = pre ++ post →
        KeepsAccounts (after P E pre).accounts (after P E requests).accounts) ∧
      ∀ a b x y, (after P E requests).accounts.byAddress.get a = some x →
        (after P E requests).accounts.byAddress.get b = some y → x.did = y.did → a = b := by
  refine ⟨?_, ?_, fun a b x y hx hy hdid =>
    (sessions_after hb requests hids hkeys).distinct hx hy hdid⟩
  · intro pre request post hrequests id fromDid toDid hfrom hto hne
    have hsplit : requests = (pre ++ [request]) ++ post := by simp [hrequests]
    have hle : (after P E (pre ++ [request])).draws ≤ (after P E requests).draws :=
      hsplit ▸ draws_le_append (pre ++ [request]) post
    have hlePre := Nat.le_trans (draws_le_append (P := P) (E := E) pre [request]) hle
    have hsessions := sessions_after hb pre (hids.mono hlePre) (hkeys.mono hlePre)
    obtain ⟨outcome, hchange, _⟩ := after_snoc_change (P := P) (E := E) pre request
    have htransfers :=
      owner_change hchange (hids.mono hle) (recorded_after pre (hids.mono hlePre)) hfrom hto hne
    obtain ⟨payload, account, recipient, toAddress, hpayload, hoperation, hid, htoAddress, haccount,
      rfl, hrecipient, hdid⟩ := htransfers.transfer
    obtain ⟨raw, accessToken, address, hraw, hbearer, htoken, hget⟩ := tokenAccount_some haccount
    obtain ⟨x, hx, hgranted⟩ := hsessions.granted htoken
    rw [hget, Option.some.injEq] at hx
    subst hx
    exact ⟨⟨payload, hpayload, hoperation, hid, toAddress, recipient, htoAddress, hrecipient,
      hsessions.address hrecipient, hdid⟩,
      ⟨raw, accessToken, account, hraw, hbearer, hgranted, rfl⟩, htransfers.recorded⟩
  · intro pre post hrequests
    subst hrequests
    exact keepsAccounts_after hb pre post hids hkeys

/-- Alice's session moved the deed to Bob. -/
theorem moved_by_owner_deed :
    MovedByOwner Reference.primitives Reference.env
      (deedBefore Reference.primitives Reference.env none ++ [mintRequest Reference.env])
      (moveRequest Reference.primitives Reference.env none) (newDeed Reference.primitives
        Reference.env none).id (aliceAccount Reference.primitives Reference.env).did
      (bobAccount Reference.primitives Reference.env).did := by
  have hminted := after_mint reliable_reference none
  obtain ⟨token, hget, _, howner⟩ := deed_moved reliable_reference none
  refine (moved_by_owner Reference.base58 (deedBefore Reference.primitives Reference.env none ++
    [mintRequest Reference.env, moveRequest Reference.primitives Reference.env none])
    (Reference.freshIds _) (Reference.freshKeys ?_)).1 _ _ []
    (by rw [List.append_assoc]; rfl) _ _ _ ?_ ?_ ?_
  · rw [after_move reliable_reference]
    decide
  · rw [hminted, ownerOf, deed_minted]
    rfl
  · rw [List.append_assoc, List.cons_append, List.nil_append, ownerOf, hget]
    exact howner
  · exact newAccount_did_ne Reference.base58 (Reference.freshKeys (n := 9) (by decide)) (by decide)
      (by decide) _ _

end Wayfinder.Service.Handlers

import Wayfinder.Service.Handlers.Titles
import Wayfinder.Service.Handlers.Versions

/-! What a run of the register says of a run of the service.

Who owns a token, what its history shows and what a wallet lists are read from the requests that
were accepted (`provenance`), and a token that somebody moved is not moved on by an account that did
not receive it since (`not_spent_twice`). -/
namespace Wayfinder.Service.Handlers

open Js Envelope Credentials TokenClasses Tokens
open Custody (Book Act Step Runs)
open Ledger (TokenTransaction tokenTransactions)

/-! ### Accepted requests -/

/-- Who received a token by a request, as the accounts of a world tell. -/
def receiverOf (w : World) (id : Str) (event : Request × Outcome) : Option Str :=
  match observe event.1 event.2 with
  | .issued accessToken minted =>
    if id = minted then (Store.getByToken w.accounts accessToken).map Store.Account.did else none
  | .moved _ moved toAddress =>
    if id = moved then (w.accounts.byAddress.get toAddress).map Store.Account.did else none
  | _ => none

theorem receiver_observe (w : World) (hw : Titled w) (id : Str) (event : Request × Outcome) :
    (book w hw).receiver id (observe event.1 event.2) = receiverOf w id event := by
  unfold receiverOf Book.receiver
  cases observe event.1 event.2 <;> rfl

variable {P : Primitives} {E : Env}

/-! ### Who owns what -/

/-- The receivers of a token are those of the accepted requests, in order. -/
theorem receivers_after (hb : P.Base58) (requests : List Request)
    (hids : E.FreshIds (after P E requests).draws)
    (hkeys : E.FreshKeys P (after P E requests).draws) (id : Str) :
    receivers (tokenTransactions (after P E requests).ledger id) =
      (history P E requests).filterMap (receiverOf (after P E requests) id) := by
  have hw := titled_after hb requests hids hkeys
  have hchain := (books_after hb requests hids hkeys hw).chain_eq id
  rw [acts, List.filterMap_map] at hchain
  refine hchain.trans (congrArg (fun f => (history P E requests).filterMap f) ?_)
  funext event
  exact receiver_observe _ hw id event

/-- The owner of a token is its last receiver. -/
theorem owner_after (hb : P.Base58) (requests : List Request)
    (hids : E.FreshIds (after P E requests).draws)
    (hkeys : E.FreshKeys P (after P E requests).draws) (id : Str) :
    ownerOf (after P E requests) id =
      ((history P E requests).filterMap (receiverOf (after P E requests) id)).getLast? := by
  rw [← receivers_after hb requests hids hkeys id,
    ← book_holder (titled_after hb requests hids hkeys) (recorded_after requests hids)]
  rfl

/-- **Ownership is what was accepted.** After every run, the owner of a token is the last
to whom an accepted request gave it; a history that is asked for shows the receivers of the accepted
requests in order; and the wallet of an account lists each token once that was last given to it, and
no other. -/
theorem provenance (hb : P.Base58) (requests : List Request)
    (hids : E.FreshIds (after P E requests).draws)
    (hkeys : E.FreshKeys P (after P E requests).draws) :
    (∀ id, ownerOf (after P E requests) id =
      ((history P E requests).filterMap (receiverOf (after P E requests) id)).getLast?) ∧
      (∀ context payload id list pagination, payload.chosen = some (.str id) →
        (handle P E (after P E requests) ⟨context, .tokenTransactionsList payload⟩).2.body =
          some (.tokenTransactions list pagination) →
        receivers list = (history P E requests).filterMap (receiverOf (after P E requests) id)) ∧
      ∀ context tokens pagination account,
        tokenAccount (after P E requests).accounts context = .ok (some account) →
        (handle P E (after P E requests) ⟨context, .tokenSearch⟩).2.body =
          some (.tokens tokens pagination) →
        (tokens.map TokenInstance.id).Nodup ∧ ∀ id, id ∈ tokens.map TokenInstance.id ↔
          ((history P E requests).filterMap (receiverOf (after P E requests) id)).getLast? =
            some account.did := by
  have hw := titled_after hb requests hids hkeys
  have hrecorded := recorded_after (P := P) requests hids
  refine ⟨owner_after hb requests hids hkeys, ?_, ?_⟩
  · intro context payload id list pagination hchosen hbody
    rw [← receivers_after hb requests hids hkeys]
    simp only [handle, tokenTransactionsList, hchosen] at hbody
    split at hbody
    · cases hbody
    · cases hbody
      rfl
  · intro context tokens pagination account haccount hbody
    have hholdings :=
      holdings_tokensForOwner hw hrecorded (holds_after (P := P) requests hids).indexed account.did
    simp only [handle, tokenSearch, withAccount, haccount] at hbody
    cases hbody
    refine ⟨hholdings.1, fun id => ?_⟩
    rw [hholdings.2, book_holder hw hrecorded, owner_after hb requests hids hkeys]

/-- The deed that was minted and moved is Bob's. -/
theorem provenance_deed :
    ((history Reference.primitives Reference.env
      (moveBefore Reference.primitives Reference.env)).filterMap (receiverOf
        (after Reference.primitives Reference.env (moveBefore Reference.primitives Reference.env))
        (newDeed Reference.primitives Reference.env none).id)).getLast? =
      some (bobAccount Reference.primitives Reference.env).did := by
  have hdraws : (after Reference.primitives Reference.env
      (moveBefore Reference.primitives Reference.env)).draws ≤ 256 := by
    rw [show after Reference.primitives Reference.env
      (moveBefore Reference.primitives Reference.env) = _ from
      after_move reliable_reference none]
    decide
  obtain ⟨token, hget, howner⟩ := deed_moveBefore reliable_reference
  refine ((provenance Reference.base58 (moveBefore Reference.primitives Reference.env)
    (Reference.freshIds _) (Reference.freshKeys hdraws)).1
    (newDeed Reference.primitives Reference.env none).id).symm.trans ?_
  rw [ownerOf, hget]
  exact howner

/-! ### No token is spent twice -/

/-- **A token is not spent twice.** Of two accepted transfers of a token, the session of the second
is of an account to whose address the first, or an accepted transfer between the two, moved it. -/
theorem not_spent_twice (hb : P.Base58) (requests : List Request)
    (hids : E.FreshIds (after P E requests).draws)
    (hkeys : E.FreshKeys P (after P E requests).draws) {pre mid post : List (Request × Outcome)}
    {first second : Request × Outcome} {accessToken accessToken' id toAddress toAddress' : Str}
    (hhistory : history P E requests = pre ++ first :: (mid ++ second :: post))
    (hfirst : Conveys first accessToken id toAddress)
    (hsecond : Conveys second accessToken' id toAddress') :
    ∃ account, Granted P E requests accessToken' account ∧
      ∃ event ∈ first :: mid, ∃ t, Conveys event t id account.address := by
  have hw := titled_after hb requests hids hkeys
  have hsessions := sessions_after hb requests hids hkeys
  have hruns := books_after hb requests hids hkeys hw
  rw [acts, hhistory, List.map_append, List.map_cons, List.map_append, List.map_cons,
    observe_moved.mpr hfirst, observe_moved.mpr hsecond] at hruns
  -- the session of the second transfer speaks for an account
  obtain ⟨p, hp⟩ := hruns.session_known (List.mem_append_right _ (List.mem_cons_of_mem _
    (List.mem_append_right _ (List.mem_cons_self ..))))
  obtain ⟨account, haccount, rfl⟩ := Option.map_eq_some_iff.mp hp
  obtain ⟨address, htoken, hget⟩ := getByToken_some haccount
  obtain ⟨x, hx, hgranted⟩ := hsessions.granted htoken
  rw [hget, Option.some.injEq] at hx
  subst hx
  obtain ⟨t, m, hmem, hparty⟩ := hruns.no_double_spend hp
  obtain ⟨y, hy, hdid⟩ := Option.map_eq_some_iff.mp hparty
  have hm : account.address = m := by rw [hsessions.distinct hy hget hdid, hsessions.address hget]
  subst hm
  refine ⟨account, hgranted, ?_⟩
  rw [← observe_moved.mpr hfirst,
    ← List.map_cons (f := fun event : Request × Outcome => observe event.1 event.2)] at hmem
  obtain ⟨event, hevent, hobserve⟩ := List.mem_map.mp hmem
  exact ⟨event, hevent, t, observe_moved.mp hobserve⟩

theorem returned_draws (h : Reliable P E) :
    (after P E (moveBefore P E ++ [returnRequest P E])).draws = 55 := by
  obtain ⟨token, hget, howner⟩ := deed_moveBefore h
  have hmove : after P E (moveBefore P E) = _ := after_move h none
  have hreturn : handle P E (after P E (moveBefore P E)) (returnRequest P E) = _ :=
    tokenTransact_succeeds (by rw [hmove]; exact bob_tokenAccount) rfl rfl rfl (by decide)
      (by rw [hmove]; exact aliceAccount_deedAccounts) hget howner
  rw [after, Machine.after_snoc]
  show (handle P E (after P E (moveBefore P E)) (returnRequest P E)).1.draws = 55
  rw [hreturn, hmove]
  rfl

theorem history_two (requests : List Request) (first second : Request) :
    history P E (requests ++ [first] ++ [second]) = history P E requests ++
      (first, (handle P E (after P E requests) first).2) ::
        ([] ++ [(second, (handle P E (after P E (requests ++ [first])) second).2)]) := by
  rw [history, Machine.history_snoc, Machine.history_snoc, List.append_assoc]
  rfl

theorem accessTokenOf_bearer (n : Nat) : accessTokenOf (bearer (Store.accessTokenAt E n)) =
    some (Store.accessTokenAt E n) := rfl

theorem deed_moves (h : Reliable P E) : Conveys (moveRequest P E none,
    (handle P E (after P E (deedBefore P E none ++ [mintRequest E])) (moveRequest P E none)).2)
    (Store.accessTokenAt E 5) (newDeed P E none).id (lit "bob") := by
  rw [handle_moveDeed h]
  exact ⟨_, deedSubmitted P E none, rfl, rfl, rfl, rfl, accessTokenOf_bearer 5, rfl⟩

theorem deed_returns (h : Reliable P E) : Conveys (returnRequest P E,
    (handle P E (after P E (moveBefore P E)) (returnRequest P E)).2)
    (Store.accessTokenAt E 11) (newDeed P E none).id (lit "alice") := by
  obtain ⟨n, context, submitted, transactionId, hreturn⟩ := handle_returnDeed h
  rw [hreturn]
  exact ⟨_, submitted, rfl, rfl, rfl, rfl, accessTokenOf_bearer 11, rfl⟩

/-- Bob gives the deed back, as Alice had given it to him. -/
theorem not_spent_twice_deed :
    ∃ account, Granted Reference.primitives Reference.env (moveBefore Reference.primitives
      Reference.env ++ [returnRequest Reference.primitives Reference.env])
      (Store.accessTokenAt Reference.env 11) account ∧
      ∃ event ∈ [(moveRequest Reference.primitives Reference.env none,
        (handle Reference.primitives Reference.env (after Reference.primitives Reference.env
          (deedBefore Reference.primitives Reference.env none ++ [mintRequest Reference.env]))
          (moveRequest Reference.primitives Reference.env none)).2)], ∃ t, Conveys event t
            (newDeed Reference.primitives Reference.env none).id account.address := by
  have hbefore : moveBefore Reference.primitives Reference.env =
      (deedBefore Reference.primitives Reference.env none ++ [mintRequest Reference.env]) ++
        [moveRequest Reference.primitives Reference.env none] := by
    rw [moveBefore, List.append_assoc, List.singleton_append]
  have hdraws : (after Reference.primitives Reference.env (moveBefore Reference.primitives
      Reference.env ++ [returnRequest Reference.primitives Reference.env])).draws ≤ 256 := by
    rw [returned_draws reliable_reference]
    decide
  have hreturns := deed_returns reliable_reference
  rw [hbefore] at hdraws hreturns ⊢
  exact not_spent_twice Reference.base58 _ (Reference.freshIds _) (Reference.freshKeys hdraws)
    (history_two _ _ _) (deed_moves reliable_reference) hreturns

end Wayfinder.Service.Handlers

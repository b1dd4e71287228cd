import Wayfinder.Service.Handlers.History

/-! State versions against the history.

A record of a mint carries version 1, and a record of a transfer version 2, whichever
transfer it is: the ledger is told the commitment before it and not the version. So the
versions of a token count its history as long as it was transferred at most once
(`version_counts_iff`). -/
namespace Wayfinder.Service.Handlers

open Js Envelope Credentials TokenClasses Tokens
open Ledger (TokenTransaction tokenTransactions)

/-- The token that an accepted transfer moved. -/
def movedOf : Request × Outcome → Option Str
  | (⟨_, .tokenTransact payload⟩, outcome) =>
    match outcome.body with
    | some (.submitted _) => payload.tokenId
    | _ => none
  | _ => none

/-- How many of the requests of a run transferred a token. -/
def transfers (P : Primitives) (E : Env) (id : Str) (requests : List Request) : Nat :=
  ((history P E requests).filterMap movedOf).count id

/-- The version of each record of a list is its position, counted from 1. -/
def Counts (list : List TokenTransaction) : Prop :=
  ∀ n tx, list[n]? = some tx → tx.stateAfter.stateVersion = some (n + 1)

/-- Version 1 and then version 2, as often as there are transfers. -/
structure Versioned (list : List TokenTransaction) (transfers : Nat) : Prop where
  length : list.length = transfers + 1
  genesis : ∀ tx, list[0]? = some tx → tx.stateAfter.stateVersion = some 1
  later : ∀ n tx, list[n + 1]? = some tx → tx.stateAfter.stateVersion = some 2

variable {P : Primitives} {E : Env}

theorem Versioned.mint {tx : TokenTransaction} (htx : tx.stateAfter.stateVersion = some 1) :
    Versioned [tx] 0 where
  length := rfl
  genesis := by
    intro tx' htx'
    cases htx'
    exact htx
  later := fun n _ htx' => by cases htx'

theorem Versioned.append {list : List TokenTransaction} {k : Nat} (h : Versioned list k)
    {tx : TokenTransaction} (htx : tx.stateAfter.stateVersion = some 2) :
    Versioned (list ++ [tx]) (k + 1) where
  length := by rw [List.length_append, h.length, List.length_singleton]
  genesis := by
    intro tx' htx'
    rw [List.getElem?_append_left (by rw [h.length]; omega)] at htx'
    exact h.genesis tx' htx'
  later := by
    intro n tx' htx'
    rw [List.getElem?_append] at htx'
    split at htx'
    · exact h.later n tx' htx'
    · rw [List.getElem?_singleton] at htx'
      split at htx'
      · cases htx'
        exact htx
      · cases htx'

/-- The versions count as far as the second record. -/
theorem Versioned.counts_iff {list : List TokenTransaction} {k : Nat} (h : Versioned list k) :
    Counts list ↔ k ≤ 1 := by
  have hlength := h.length
  refine ⟨fun hcounts => ?_, fun hk n tx htx => ?_⟩
  · by_contra hk
    have hthird : list[2]? = some list[2] := List.getElem?_eq_getElem (by omega)
    have hversion := hcounts 2 _ hthird
    rw [h.later 1 _ hthird] at hversion
    cases hversion
  · have hn : n < list.length := (List.getElem?_eq_some_iff.mp htx).1
    match n with
    | 0 => exact h.genesis tx htx
    | 1 => exact h.later 0 tx htx
    | n + 2 => omega

/-! ### Along a run -/

theorem movedOf_quiet {request : Request} {outcome : Outcome} (h : outcome.reports = false) :
    movedOf (request, outcome) = none := by
  obtain ⟨context, payload⟩ := request
  cases payload with
  | tokenTransact payload =>
    simp only [movedOf]
    split
    · next hbody =>
      rw [Outcome.reports, hbody] at h
      cases h
    · rfl
  | _ => rfl

theorem transfers_snoc {id : Str} {requests : List Request} {request : Request} {outcome : Outcome}
    (hhistory : history P E (requests ++ [request]) = history P E requests ++ [(request, outcome)]) :
    transfers P E id (requests ++ [request]) =
      transfers P E id requests + if movedOf (request, outcome) = some id then 1 else 0 := by
  rw [transfers, hhistory, List.filterMap_append, List.count_append, transfers]
  congr 1
  cases hmoved : movedOf (request, outcome) with
  | none => simp [hmoved]
  | some id' => simp [hmoved, List.count_cons]

/-- A token that is not there was never transferred; one that is there has the versions of its
transfers. -/
structure Counted (P : Primitives) (E : Env) (requests : List Request) : Prop where
  unborn : ∀ {id}, (after P E requests).tokens.byId.get id = none → transfers P E id requests = 0
  versioned : ∀ {id token}, (after P E requests).tokens.byId.get id = some token →
    Versioned (tokenTransactions (after P E requests).ledger id) (transfers P E id requests)

/-- A request that moves no token and mints none. -/
theorem Counted.quiet {requests : List Request} {request : Request} {outcome : Outcome}
    (h : Counted P E requests)
    (hhistory : history P E (requests ++ [request]) = history P E requests ++ [(request, outcome)])
    (hmoved : movedOf (request, outcome) = none)
    (htokens : (after P E (requests ++ [request])).tokens = (after P E requests).tokens)
    (hledger : (after P E (requests ++ [request])).ledger = (after P E requests).ledger) :
    Counted P E (requests ++ [request]) := by
  have htransfers : ∀ id, transfers P E id (requests ++ [request]) = transfers P E id requests := by
    intro id
    rw [transfers_snoc hhistory, hmoved]
    rfl
  refine ⟨fun hget => ?_, fun hget => ?_⟩
  · rw [htransfers]
    exact h.unborn (htokens ▸ hget)
  · rw [htransfers, hledger]
    exact h.versioned (htokens ▸ hget)

/-- A record that is written with its token: of a mint that opens a history, or of a transfer
that goes on with one. -/
theorem Counted.record {requests : List Request} {request : Request} {outcome : Outcome}
    (h : Counted P E requests)
    (hhistory : history P E (requests ++ [request]) = history P E requests ++ [(request, outcome)])
    {id : Str} {token : TokenInstance} {tx : TokenTransaction}
    (htokens : (after P E (requests ++ [request])).tokens.byId =
      (after P E requests).tokens.byId.set id token)
    (htransactions : ∀ id', tokenTransactions (after P E (requests ++ [request])).ledger id' =
      tokenTransactions (after P E requests).ledger id' ++ if id = id' then [tx] else [])
    (hmoved : ∀ id', movedOf (request, outcome) = some id' → id = id')
    (hversioned : Versioned (tokenTransactions (after P E requests).ledger id ++ [tx])
      (transfers P E id requests + if movedOf (request, outcome) = some id then 1 else 0)) :
    Counted P E (requests ++ [request]) := by
  have hother : ∀ {id'}, id ≠ id' →
      transfers P E id' (requests ++ [request]) = transfers P E id' requests := by
    intro id' hne
    rw [transfers_snoc hhistory, if_neg fun hid => hne (hmoved id' hid), Nat.add_zero]
  refine ⟨fun {id'} hget => ?_, fun {id' token'} hget => ?_⟩
  · rw [htokens, JsMap.get_set] at hget
    split at hget
    · cases hget
    · next hne =>
      rw [hother hne]
      exact h.unborn hget
  · rw [htokens, JsMap.get_set] at hget
    rw [htransactions]
    split at hget
    · next he =>
      subst he
      rw [if_pos rfl, transfers_snoc hhistory]
      exact hversioned
    · next hne =>
      rw [if_neg hne, List.append_nil, hother hne]
      exact h.versioned hget

theorem counted_after (requests : List Request) (hfresh : E.FreshIds (after P E requests).draws) :
    Counted P E requests := by
  refine run_induction (F := E.FreshIds)
    (fun hmn h => h.mono hmn) ⟨fun _ => rfl, fun hget => nomatch hget⟩ ?_ requests hfresh
  intro requests request outcome hchange hhistory hfresh h
  have hrecorded := recorded_after requests (hfresh.mono hchange.draws_le)
  generalize hw : after P E (requests ++ [request]) = w' at hchange hfresh
  cases hchange with
  | quiet _ hquiet => exact h.quiet hhistory (movedOf_quiet hquiet) (by rw [hw]) (by rw [hw])
  | created => exact h.quiet hhistory rfl (by rw [hw]) (by rw [hw])
  | issued => exact h.quiet hhistory rfl (by rw [hw]) (by rw [hw])
  | revoked => exact h.quiet hhistory rfl (by rw [hw]) (by rw [hw])
  | registered => exact h.quiet hhistory rfl (by rw [hw]) (by rw [hw])
  | @minted context payload account tokens ledger token next haccount hmint =>
    obtain ⟨tc, claim, m, log, _, _, hm, rfl, hbyId, rfl, rfl, _⟩ := mintToken_writes hmint
    have hdraws := lt_mintDraws m
    obtain ⟨hunborn, hnone⟩ := hrecorded.unborn hfresh
      (show (after P E requests).draws ≤ m + 1 by omega) (Nat.lt_trans (by omega) hdraws)
    have htransactions := hrecorded.transactions (i := m + 4) hfresh rfl ⟨by omega, hdraws⟩ rfl
    refine h.record hhistory (by rw [hw]; exact hbyId)
      (fun id => by rw [hw]; exact htransactions id) (fun _ hmoved => nomatch hmoved) ?_
    have hopened : tokenTransactions (after P E requests).ledger
      (newToken P E m tc claim (mintInput account.did payload)).id = [] := hnone
    have huncounted :
        transfers P E (newToken P E m tc claim (mintInput account.did payload)).id requests = 0 :=
      h.unborn hunborn
    rw [hopened, huncounted]
    exact Versioned.mint rfl
  | @moved context payload account recipient movedId toAddress token haccount hoperation hid hto
      hrecipient hget howner =>
    have htransactions := hrecorded.transactions (i := (after P E requests).draws + 2) hfresh rfl
      ⟨by omega, lt_moveDraws _⟩ rfl
    have htoken := hrecorded.tokenId hget
    refine h.record hhistory (by rw [hw]; rfl)
      (fun id => by rw [hw]; exact htoken ▸ htransactions id) (fun id hmoved => ?_) ?_
    · exact Option.some.inj (hid.symm.trans hmoved)
    · rw [if_pos]
      · exact (h.versioned hget).append rfl
      · exact hid

/-- **The versions of a token count its history exactly as long as it was transferred at most
once.** -/
theorem version_counts_iff (requests : List Request)
    (hfresh : E.FreshIds (after P E requests).draws) {id : Str} {token : TokenInstance}
    (hget : (after P E requests).tokens.byId.get id = some token) :
    Counts (tokenTransactions (after P E requests).ledger id) ↔ transfers P E id requests ≤ 1 :=
  ((counted_after requests hfresh).versioned hget).counts_iff

/-! ### A deed that comes back -/

section
variable (P E)

/-- Bob gives the deed back to Alice. -/
def returnRequest : Request :=
  ⟨bearer (Store.accessTokenAt E 11), .tokenTransact
    { operation := lit "transfer", tokenId := some (newDeed P E none).id,
      toAddress := some (lit "alice") }⟩

variable {P E}

theorem bob_tokenAccount : tokenAccount (deedAccounts P E) (bearer (Store.accessTokenAt E 11)) =
    .ok (some (bobAccount P E)) := by
  refine tokenAccount_succeeds rfl ?_ (show lit "bob" ≠ [] by decide)
    (JsMap.get_set_self _ _ _) bobAccount_deedAccounts
  exact List.append_ne_nil_of_left_ne_nil (by decide) _

theorem deed_moveBefore (h : Reliable P E) : ∃ token,
    (after P E (moveBefore P E)).tokens.byId.get (newDeed P E none).id = some token ∧
      token.ownerIdent.map Identity.id = some (bobAccount P E).did := by
  obtain ⟨token, hget, _, howner⟩ := deed_moved h none
  exact ⟨token, hget, howner⟩

/-- What the return of the deed is answered. -/
theorem handle_returnDeed (h : Reliable P E) : ∃ n context submitted transactionId,
    (handle P E (after P E (moveBefore P E)) (returnRequest P E)).2 =
      .answered (accepted E n context (.submitted submitted) transactionId) := by
  obtain ⟨token, hget, howner⟩ := deed_moveBefore h
  have haccounts : (after P E (moveBefore P E)).accounts = deedAccounts P E :=
    congrArg (fun w : World => w.accounts) (after_move h none)
  have hreturn : handle P E (after P E (moveBefore P E)) (returnRequest P E) = _ :=
    tokenTransact_succeeds (by rw [haccounts]; exact bob_tokenAccount) rfl rfl rfl (by decide)
      (by rw [haccounts]; exact aliceAccount_deedAccounts) hget howner
  exact ⟨_, _, _, _, congrArg Prod.snd hreturn⟩

/-- An accepted transfer is one more. -/
theorem transfers_accepted {id : Str} {requests : List Request} {request : Request}
    {payload : TransactRequest} {n : Nat} {context : Option Json} {submitted : Submitted}
    {transactionId : Str} (hpayload : request.payload = .tokenTransact payload)
    (hid : payload.tokenId = some id)
    (hanswer : (handle P E (after P E requests) request).2 =
      .answered (accepted E n context (.submitted submitted) transactionId)) :
    transfers P E id (requests ++ [request]) = transfers P E id requests + 1 := by
  obtain ⟨_, _⟩ := request
  subst hpayload
  rw [transfers_snoc (Machine.history_snoc _ _ _), if_pos]
  show movedOf (_, (handle P E (after P E requests) _).2) = some id
  rw [hanswer]
  exact hid

/-- In a run without transfers no token was transferred. -/
theorem transfers_unmoved {id : Str} {requests : List Request}
    (h : ∀ request ∈ requests, ∀ outcome, movedOf (request, outcome) = none) :
    transfers P E id requests = 0 := by
  have hmoved : (history P E requests).filterMap movedOf = [] := by
    refine List.filterMap_eq_nil_iff.mpr fun event hevent => ?_
    exact h event.1 (mem_requests hevent) event.2
  rw [transfers, hmoved]
  rfl

theorem transfers_moved (h : Reliable P E) :
    transfers P E (newDeed P E none).id (moveBefore P E) = 1 := by
  have hunmoved :
      transfers P E (newDeed P E none).id (deedBefore P E none ++ [mintRequest E]) = 0 := by
    refine transfers_unmoved fun request hrequest outcome => ?_
    rw [deedBefore] at hrequest
    simp only [List.cons_append, List.nil_append, List.mem_cons, List.not_mem_nil,
      or_false] at hrequest
    obtain rfl | rfl | rfl | rfl := hrequest <;> rfl
  have hbefore :
      moveBefore P E = (deedBefore P E none ++ [mintRequest E]) ++ [moveRequest P E none] := by
    rw [moveBefore, List.append_assoc, List.singleton_append]
  have hmove : transfers P E (newDeed P E none).id (_ ++ [moveRequest P E none]) = _ :=
    transfers_accepted rfl rfl (congrArg Prod.snd (handle_moveDeed h none))
  rw [hbefore, hmove, hunmoved]

/-- The deed has been transferred twice. -/
theorem transfers_returned (h : Reliable P E) :
    transfers P E (newDeed P E none).id (moveBefore P E ++ [returnRequest P E]) = 2 := by
  obtain ⟨_, _, _, _, hreturn⟩ := handle_returnDeed h
  rw [transfers_accepted rfl rfl hreturn, transfers_moved h]

end

/-- **The deed's third record has version 2.** -/
theorem returned_miscounts :
    ¬ Counts (tokenTransactions
      (after Reference.primitives Reference.env (moveBefore Reference.primitives Reference.env ++
        [returnRequest Reference.primitives Reference.env])).ledger
      (newDeed Reference.primitives Reference.env none).id) := by
  have hcounted := counted_after (P := Reference.primitives)
    (E := Reference.env) (moveBefore Reference.primitives Reference.env ++
      [returnRequest Reference.primitives Reference.env]) (Reference.freshIds _)
  have htwice := transfers_returned reliable_reference
  cases hget : (after Reference.primitives Reference.env (moveBefore Reference.primitives
    Reference.env ++ [returnRequest Reference.primitives Reference.env])).tokens.byId.get
    (newDeed Reference.primitives Reference.env none).id with
  | none =>
    rw [hcounted.unborn hget] at htwice
    cases htwice
  | some token =>
    rw [(hcounted.versioned hget).counts_iff]
    omega

/-- Before it comes back they count. -/
theorem version_counts_iff_deed :
    Counts (tokenTransactions (after Reference.primitives Reference.env
      (moveBefore Reference.primitives Reference.env)).ledger
      (newDeed Reference.primitives Reference.env none).id) := by
  obtain ⟨token, hget, _⟩ := deed_moveBefore reliable_reference
  refine (version_counts_iff (moveBefore Reference.primitives Reference.env)
    (Reference.freshIds _) hget).mpr ?_
  exact Nat.le_of_eq (transfers_moved reliable_reference)

end Wayfinder.Service.Handlers

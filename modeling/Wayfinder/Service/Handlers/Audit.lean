import Wayfinder.Service.Handlers.Bookkeeping
import Wayfinder.Service.Handlers.Titles

/-! The ledger is the list of what was accepted.

Whoever kept the requests of a run with their answers can write the ledger from them: one
transaction, one log and one leaf for each accepted mint and transfer, in the order of the answers,
and nothing else (`ledger_audited`). So a transfer that was the n-th to be accepted is proved at
leaf n. -/
namespace Wayfinder.Service.Handlers

open Js Envelope Credentials TokenClasses Tokens
open Ledger (Entry Operation TokenTransaction TransactionLog leafOf mintEntry transferEntry)

/-- What a transaction says, and who its log says initiated it. -/
structure Writing where
  operation : Operation
  tokenId : Str
  fromAccount : Option Str
  toAccount : Option Str
  initiator : Option Str

/-- The DID that an access token speaks for. -/
def didOfToken (w : World) (accessToken : Str) : Option Str :=
  (Store.getByToken w.accounts accessToken).map Store.Account.did

/-- What an accepted request has the ledger write, as the accounts of a world tell who is who. -/
def writingOf (w : World) (event : Request × Outcome) : Option Writing :=
  match observe event.1 event.2 with
  | .issued accessToken id =>
    some ⟨.mint, id, none, didOfToken w accessToken, didOfToken w accessToken⟩
  | .moved accessToken id toAddress =>
    some ⟨.transfer, id, didOfToken w accessToken,
      (w.accounts.byAddress.get toAddress).map Store.Account.did, didOfToken w accessToken⟩
  | _ => none

def writingOfEntry (entry : Entry) : Writing :=
  ⟨entry.tx.operation, entry.tx.tokenId, entry.tx.fromAccount, entry.tx.toAccount,
    some entry.log.initiator⟩

variable {P : Primitives} {E : Env}

/-- A request that reports no change writes nothing. -/
theorem writingOf_quiet {w : World} {event : Request × Outcome} (h : event.2.reports = false) :
    writingOf w event = none := by
  unfold writingOf
  split
  · next accessToken id hobserve =>
    obtain ⟨_, hid, _⟩ := observe_issued.mp hobserve
    rw [mintedId_of_quiet h] at hid
    cases hid
  · next accessToken id toAddress hobserve =>
    obtain ⟨_, _, _, _, _, _, _, hbody⟩ := observe_moved.mp hobserve
    rw [Outcome.reports, hbody] at h
    cases h
  · rfl

/-- Whom a session speaks for, it speaks for in every later world. -/
theorem didOfToken_keeps {w w' : World} (hw : Titled w) (hw' : Titled w')
    (h : KeepsAccounts w.accounts w'.accounts) {context : Option Json} {account : Store.Account}
    (haccount : tokenAccount w.accounts context = .ok (some account)) :
    ∃ accessToken, accessTokenOf context = some accessToken ∧
      didOfToken w' accessToken = some account.did := by
  have hspeaks := hw.tokenAccount context
  rw [haccount] at hspeaks
  obtain ⟨accessToken, haccess, hget⟩ := Option.bind_eq_some_iff.mp hspeaks.symm
  obtain ⟨address, htoken, hx⟩ := getByToken_some hget
  refine ⟨accessToken, haccess, ?_⟩
  rw [didOfToken, hw'.getByToken, h.byToken htoken, Option.bind_some, h.byAddress hx,
    Option.map_some]

/-- **A request adds to the journal what it writes.** -/
theorem writing_change {w w' last : World} {request : Request} {outcome : Outcome}
    {journal : List Entry} (hchange : Change P E w request w' outcome)
    (hfresh : E.FreshIds w'.draws) (hrecorded : Recorded P E w) (hw : Titled w)
    (hlast : Titled last) (hkeeps : KeepsAccounts w.accounts last.accounts)
    (h : Kept P E journal w) :
    ∃ more, Kept P E (journal ++ more) w' ∧
      more.map writingOfEntry = (writingOf last (request, outcome)).toList := by
  have hle := hchange.draws_le
  have hsame : w'.ledger = w.ledger → writingOf last (request, outcome) = none → ∃ more,
      Kept P E (journal ++ more) w' ∧
      more.map writingOfEntry = (writingOf last (request, outcome)).toList := by
    intro hledger hnone
    refine ⟨[], ?_, by rw [hnone]; rfl⟩
    rw [List.append_nil]
    exact h.mono hledger hle
  cases hchange with
  | quiet _ hquiet => exact hsame rfl (writingOf_quiet hquiet)
  | created => exact hsame rfl rfl
  | issued => exact hsame rfl rfl
  | revoked => exact hsame rfl rfl
  | registered => exact hsame rfl rfl
  | @minted context payload account tokens ledger token next haccount hmint =>
    obtain ⟨tc, claim, m, log, _, _, hm, rfl, _, rfl, rfl, rfl⟩ := mintToken_writes hmint
    have hdraws := lt_mintDraws m
    obtain ⟨accessToken, haccess, hdid⟩ := didOfToken_keeps hw hlast hkeeps haccount
    refine ⟨[mintEntry P E (m + 2) _], h.record hfresh rfl ⟨by omega, hdraws⟩ rfl rfl, ?_⟩
    rw [writingOf, observe_issued.mpr ⟨⟨payload, rfl⟩, rfl, haccess⟩]
    simp only [hdid]
    rfl
  | @moved context payload account recipient id toAddress token haccount hoperation hid hto
      hrecipient hget howner =>
    obtain ⟨accessToken, haccess, hdid⟩ := didOfToken_keeps hw hlast hkeeps haccount
    refine ⟨[transferEntry P E w.draws _],
      h.record hfresh rfl ⟨Nat.le_refl _, lt_moveDraws _⟩ rfl rfl, ?_⟩
    rw [writingOf, observe_moved.mpr ⟨payload, _, rfl, hoperation, hid, hto, haccess, rfl⟩]
    simp only [hdid, hkeeps.byAddress hrecipient]
    obtain rfl := hrecorded.tokenId hget
    rfl

/-- The journal of a part of a run is what its requests write. -/
theorem audited_after (hb : P.Base58) (pre post : List Request)
    (hids : E.FreshIds (after P E (pre ++ post)).draws)
    (hkeys : E.FreshKeys P (after P E (pre ++ post)).draws) :
    ∃ journal, Kept P E journal (after P E pre) ∧ journal.map writingOfEntry =
      (history P E pre).filterMap (writingOf (after P E (pre ++ post))) := by
  have hlast := titled_after hb (pre ++ post) hids hkeys
  induction pre using List.reverseRecOn generalizing post with
  | nil => exact ⟨[], kept_initial, rfl⟩
  | append_singleton pre request ih =>
    rw [List.append_assoc] at hids hkeys hlast ⊢
    obtain ⟨journal, hkept, hjournal⟩ := ih ([request] ++ post) hids hkeys hlast
    have hle :
        (after P E (pre ++ [request])).draws ≤ (after P E (pre ++ ([request] ++ post))).draws :=
      List.append_assoc pre [request] post ▸ draws_le_append (pre ++ [request]) post
    have hle' := Nat.le_trans (draws_le_append (P := P) (E := E) pre [request]) hle
    obtain ⟨outcome, hchange, hhistory⟩ := after_snoc_change (P := P) (E := E) pre request
    obtain ⟨more, hmore, hwriting⟩ :=
      writing_change hchange (hids.mono hle) (recorded_after pre (hids.mono hle'))
        (titled_after hb pre (hids.mono hle') (hkeys.mono hle')) hlast
        (keepsAccounts_after hb pre _ hids hkeys) hkept
    refine ⟨journal ++ more, hmore, ?_⟩
    rw [List.map_append, hjournal, hwriting, hhistory, List.filterMap_append, filterMap_singleton]

/-- A transaction is proved at its place in the journal. -/
theorem leafIndex_journal {journal more : List Entry} {entry : Entry} {s : Ledger.State}
    (h : Ledger.Books P (journal ++ entry :: more) s) :
    ∃ proof, Ledger.getProof P s entry.tx.txId = some proof ∧ proof.leafIndex = journal.length := by
  have hnodup := h.txId_nodup
  rw [List.map_append, List.map_cons, List.nodup_append] at hnodup
  have hbefore : ∀ other ∈ journal, other.tx.txId ≠ entry.tx.txId := fun other hother =>
    hnodup.2.2 _ (List.mem_map_of_mem hother) _ (List.mem_cons_self ..)
  have hfind : s.leaves.findIdx? (·.txId = entry.tx.txId) = some journal.length := by
    have hnone :
        (journal.map fun other => leafOf P other.tx).findIdx? (·.txId = entry.tx.txId) = none := by
      rw [List.findIdx?_eq_none_iff]
      intro leaf hleaf
      obtain ⟨other, hother, rfl⟩ := List.mem_map.mp hleaf
      exact decide_eq_false (hbefore other hother)
    rw [h.leaves, List.map_append, List.findIdx?_append, hnone, List.map_cons, List.findIdx?_cons,
      if_pos (by simp [leafOf])]
    simp
  exact ⟨_, by rw [Ledger.getProof, hfind], rfl⟩

/-- What the accepted requests of a run have the ledger write, in order. -/
def writings (P : Primitives) (E : Env) (requests : List Request) : List Writing :=
  (history P E requests).filterMap (writingOf (after P E requests))

/-- **The ledger is the list of what was accepted.** After every run, the stored transactions, the
initiators of the logs and the leaves are, in order, those of the accepted mints and transfers;
and the answer to a transfer names a transaction whose leaf stands after as many as were accepted
before it. -/
theorem ledger_audited (hb : P.Base58) (requests : List Request)
    (hids : E.FreshIds (after P E requests).draws)
    (hkeys : E.FreshKeys P (after P E requests).draws) :
    ((after P E requests).ledger.tokenTxById.values.map fun tx =>
        (tx.operation, tx.tokenId, tx.fromAccount, tx.toAccount)) =
      (writings P E requests).map (fun x => (x.operation, x.tokenId, x.fromAccount, x.toAccount)) ∧
    ((after P E requests).ledger.txLogs.values.map fun log => some log.initiator) =
      (writings P E requests).map Writing.initiator ∧
    (after P E requests).ledger.leaves =
      (after P E requests).ledger.tokenTxById.values.map (leafOf P) ∧
    ∀ pre request post payload submitted, requests = pre ++ request :: post →
      request.payload = .tokenTransact payload →
      (handle P E (after P E pre) request).2.body = some (.submitted submitted) →
      ∃ proof, Ledger.getProof P (after P E requests).ledger submitted.txId = some proof ∧
        proof.leafIndex =
          ((history P E pre).filterMap (writingOf (after P E requests))).length := by
  have haudited := audited_after (E := E) hb requests []
  simp only [List.append_nil] at haudited
  obtain ⟨journal, hkept, hjournal⟩ := haudited hids hkeys
  have hwritings : journal.map writingOfEntry = writings P E requests := hjournal
  refine ⟨?_, ?_, ?_, ?_⟩
  · rw [← hwritings, JsMap.values, hkept.books.tokenTxById, List.map_map, List.map_map,
      List.map_map]
    rfl
  · rw [← hwritings, JsMap.values, hkept.books.txLogs, List.map_map, List.map_map, List.map_map]
    rfl
  · rw [hkept.books.leaves, JsMap.values, hkept.books.tokenTxById, List.map_map, List.map_map]
    rfl
  · intro pre request post payload submitted hrequests hpayload hbody
    subst hrequests
    obtain ⟨journal, hpre, hlength⟩ := audited_after hb pre (request :: post) hids hkeys
    rw [← hlength, List.length_map]
    have hsplit : pre ++ request :: post = (pre ++ [request]) ++ post := by simp
    have hle : (after P E (pre ++ [request])).draws ≤ (after P E (pre ++ request :: post)).draws :=
      hsplit ▸ draws_le_append (pre ++ [request]) post
    have hle' := Nat.le_trans (draws_le_append (P := P) (E := E) pre [request]) hle
    obtain ⟨outcome, hchange, hhistory⟩ := after_snoc_change (P := P) (E := E) pre request
    obtain ⟨added, hadded, hsubmits⟩ :=
      kept_change hchange (hids.mono hle) (recorded_after pre (hids.mono hle')) hpre
    rw [outcome_eq hhistory] at hbody
    obtain ⟨entry, rfl, hsubmit⟩ := hsubmits submitted hbody
    obtain ⟨more, hmore⟩ := kept_append hadded post (hsplit ▸ hids)
    rw [← hsplit, List.append_assoc] at hmore
    obtain ⟨proof, hproof, hindex⟩ := leafIndex_journal hmore.books
    refine ⟨proof, ?_, hindex⟩
    rcases hsubmit.answered with ⟨_, _, hmint, _⟩ | ⟨_, _, hid⟩
    · rw [hpayload] at hmint
      cases hmint
    · rw [hid]
      exact hproof

/-- The deed that Alice mints and gives to Bob is the whole ledger. -/
theorem ledger_audited_deed :
    ((after Reference.primitives Reference.env
      (moveBefore Reference.primitives Reference.env)).ledger.tokenTxById.values.map
      fun tx => (tx.operation, tx.tokenId, tx.fromAccount, tx.toAccount)) = (writings
        Reference.primitives Reference.env (moveBefore Reference.primitives Reference.env)).map
      (fun x => (x.operation, x.tokenId, x.fromAccount, x.toAccount)) ∧
      ((after Reference.primitives Reference.env
        (moveBefore Reference.primitives Reference.env)).ledger.txLogs.values.map
        fun log => some log.initiator) = (writings Reference.primitives Reference.env
          (moveBefore Reference.primitives Reference.env)).map Writing.initiator ∧
      (after Reference.primitives Reference.env
        (moveBefore Reference.primitives Reference.env)).ledger.leaves =
        (after Reference.primitives Reference.env (moveBefore Reference.primitives
          Reference.env)).ledger.tokenTxById.values.map (leafOf Reference.primitives) ∧
      ∃ proof, Ledger.getProof Reference.primitives (after Reference.primitives Reference.env
        (moveBefore Reference.primitives Reference.env)).ledger
        (deedSubmitted Reference.primitives Reference.env none).txId = some proof ∧
        proof.leafIndex = ((history Reference.primitives Reference.env (deedBefore
          Reference.primitives Reference.env none ++ [mintRequest Reference.env])).filterMap
          (writingOf (after Reference.primitives Reference.env
            (moveBefore Reference.primitives Reference.env)))).length := by
  have hdraws : (after Reference.primitives Reference.env
      (moveBefore Reference.primitives Reference.env)).draws ≤ 256 := by
    rw [moveBefore, after_move reliable_reference]
    decide
  obtain ⟨htransactions, hinitiators, hleaves, hproofs⟩ :=
    ledger_audited Reference.base58 _ (Reference.freshIds _) (Reference.freshKeys hdraws)
  refine ⟨htransactions, hinitiators, hleaves, ?_⟩
  refine hproofs (deedBefore Reference.primitives Reference.env none ++ [mintRequest Reference.env])
    (moveRequest Reference.primitives Reference.env none) [] _ _ ?_ rfl ?_
  · rw [moveBefore, List.append_assoc, List.singleton_append]
  · rw [handle_moveDeed reliable_reference]
    rfl

end Wayfinder.Service.Handlers

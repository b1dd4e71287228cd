import Wayfinder.Service.Handlers.Bookkeeping

/-! Looking up what was accepted.

The answer to a mint or to a transfer names a transaction. A transfer names the one that the
ledger recorded, and from then on its log and a proof of it are found (`tracked_iff`). A
mint names a UUID of the handler's own, drawn after the ledger recorded under another:
nothing is ever found under it (`uuid_unknown`). -/
namespace Wayfinder.Service.Handlers

open Js Envelope
open Ledger (Entry)

variable {P : Primitives} {E : Env} {journal : List Entry}

/-- The answered id is of the transaction that the request recorded, and leads to its log and
to a proof however the run goes on. -/
def Tracked (P : Primitives) (E : Env) (pre : List Request) (request : Request)
    (submitted : Submitted) : Prop :=
  ∃ tx log, (after P E (pre ++ [request])).ledger = (after P E pre).ledger.append P tx log ∧
    tx.txId = submitted.txId ∧ request.payload.tokenOf submitted = some tx.tokenId ∧
    log.tokenTransactions = [⟨tx.tokenTxId, tx.tokenId, tx.operation⟩] ∧
    ∀ post, E.FreshIds (after P E (pre ++ [request] ++ post)).draws →
      Ledger.getTransaction (after P E (pre ++ [request] ++ post)).ledger submitted.txId =
        some log ∧
      (Ledger.getProof P (after P E (pre ++ [request] ++ post)).ledger submitted.txId).isSome

/-- A UUID is not a tag with a UUID behind it. -/
theorem uuid_ne_txId (huuid : E.UuidText) (m n : Nat) :
    E.uuid m ≠ lit "urn:uuid:tx-" ++ E.uuid n := by
  intro he
  have hmem : (117 : UInt16) ∈ E.uuid m := by
    rw [he]
    exact List.mem_append_left _ (show (117 : UInt16) ∈ lit "urn:uuid:tx-" by decide)
  have hunit := huuid m 117 hmem
  unfold IsHexDigit at hunit
  revert hunit
  decide

/-- The ledger holds nothing under a bare UUID. -/
theorem uuid_unknown (huuid : E.UuidText) {w : World} (h : Kept P E journal w) (n : Nat) :
    Ledger.getTransaction w.ledger (E.uuid n) = none ∧
      Ledger.getProof P w.ledger (E.uuid n) = none := by
  have hne : ∀ entry ∈ journal, entry.tx.txId ≠ E.uuid n := by
    intro entry hentry he
    obtain ⟨i, _, hi⟩ := h.txDrawn entry hentry
    exact uuid_ne_txId huuid n i (he.symm.trans hi)
  have hleaves : w.ledger.leaves.findIdx? (·.txId = E.uuid n) = none := by
    rw [List.findIdx?_eq_none_iff, h.books.leaves]
    intro leaf hleaf
    obtain ⟨entry, hentry, rfl⟩ := List.mem_map.mp hleaf
    exact decide_eq_false (hne entry hentry)
  refine ⟨?_, ?_⟩
  · cases hget : Ledger.getTransaction w.ledger (E.uuid n) with
    | none => rfl
    | some log =>
      obtain ⟨entry, hentry, hid, _⟩ := h.books.getLog_iff.mp hget
      exact absurd hid (hne entry hentry)
  · rw [Ledger.getProof, hleaves]

/-- What is accepted was recorded. -/
theorem submitted_recorded {pre : List Request} {request : Request} {n : Nat}
    {context : Option Json} {submitted : Submitted} {transactionId : Str}
    (hfresh : E.FreshIds (after P E (pre ++ [request])).draws)
    (hanswer : (handle P E (after P E pre) request).2 =
      .answered (accepted E n context (.submitted submitted) transactionId)) :
    ∃ journal entry, Kept P E (journal ++ [entry]) (after P E (pre ++ [request])) ∧
      Submits P E (after P E pre) (after P E (pre ++ [request])) request submitted entry := by
  have hpre := hfresh.mono (draws_le_append pre [request])
  obtain ⟨journal, hkept⟩ := kept_after pre hpre
  obtain ⟨outcome, hchange, hhistory⟩ := after_snoc_change (P := P) (E := E) pre request
  obtain ⟨more, hmore, hsubmits⟩ := kept_change hchange hfresh (recorded_after pre hpre) hkept
  rw [outcome_eq hhistory] at hanswer
  subst hanswer
  obtain ⟨entry, rfl, hsubmit⟩ := hsubmits submitted rfl
  exact ⟨journal, entry, hmore, hsubmit⟩

/-- **The id of an accepted transfer can be looked up, the id of an accepted mint never.** -/
theorem tracked_iff (huuid : E.UuidText) {pre : List Request} {request : Request} {n : Nat}
    {context : Option Json} {submitted : Submitted} {transactionId : Str}
    (hfresh : E.FreshIds (after P E (pre ++ [request])).draws)
    (hanswer : (handle P E (after P E pre) request).2 =
      .answered (accepted E n context (.submitted submitted) transactionId)) :
    Tracked P E pre request submitted ↔ ∃ payload, request.payload = .tokenTransact payload := by
  obtain ⟨journal, entry, hkept, hsubmit⟩ := submitted_recorded hfresh hanswer
  refine ⟨fun h => ?_, fun h => ?_⟩
  · obtain ⟨tx, log, _, _, _, _, hlookup⟩ := h
    have hget := (hlookup [] (by rwa [List.append_nil])).1
    rw [List.append_nil] at hget
    rcases hsubmit.answered with hmint | htransact
    · obtain ⟨payload, m, _, hid⟩ := hmint
      rw [hid, (uuid_unknown huuid hkept m).1] at hget
      cases hget
    · obtain ⟨payload, hpayload, _⟩ := htransact
      exact ⟨payload, hpayload⟩
  · obtain ⟨payload, hpayload⟩ := h
    have hid : submitted.txId = entry.tx.txId := by
      rcases hsubmit.answered with hmint | htransact
      · obtain ⟨payload', m, hpayload', _⟩ := hmint
        rw [hpayload] at hpayload'
        cases hpayload'
      · obtain ⟨_, _, hid⟩ := htransact
        exact hid
    refine ⟨entry.tx, entry.log, hsubmit.ledger, hid.symm, hsubmit.token, entry.refers,
      fun post hpost => ?_⟩
    obtain ⟨more, hmore⟩ := kept_append hkept post hpost
    have hentry : entry ∈ journal ++ [entry] ++ more :=
      List.mem_append_left _ (List.mem_append_right _ (List.mem_singleton_self _))
    rw [hid]
    exact ⟨hmore.books.getLog_iff.mpr ⟨entry, hentry, rfl, rfl⟩, hmore.books.getProof_isSome hentry⟩

/-- The deed is given to Bob: the answer's id can be looked up. -/
theorem tracked_iff_deed :
    Tracked Reference.primitives Reference.env (deedBefore Reference.primitives Reference.env
      none ++ [mintRequest Reference.env]) (moveRequest Reference.primitives Reference.env none)
      (deedSubmitted Reference.primitives Reference.env none) ↔ ∃ payload,
        (moveRequest Reference.primitives Reference.env none).payload = .tokenTransact payload :=
  tracked_iff Reference.uuidText (Reference.freshIds _)
    (congrArg Prod.snd (handle_moveDeed reliable_reference none))

theorem mint_unknown (h : Reliable P E) (huuid : E.UuidText)
    (hfresh : E.FreshIds (after P E (deedBefore P E none ++ [mintRequest E])).draws) :
    ∃ response submitted,
      (handle P E (after P E (deedBefore P E none)) (mintRequest E)).2 = .answered response ∧
      response.http = 202 ∧ response.context.status = .accepted ∧
      response.response = some (.submitted submitted) ∧ Ledger.getTransaction
        (after P E (deedBefore P E none ++ [mintRequest E])).ledger submitted.txId = none ∧
      Ledger.getProof P (after P E (deedBefore P E none ++ [mintRequest E])).ledger submitted.txId =
        none := by
  obtain ⟨journal, hkept⟩ := kept_after _ hfresh
  exact ⟨_, _, congrArg Prod.snd (handle_mintDeed h), rfl, rfl, rfl, uuid_unknown huuid hkept 30⟩

/-- Alice's mint is accepted, and the transaction it names is not on the ledger. -/
theorem mint_untracked :
    ∃ response submitted,
      (handle Reference.primitives Reference.env (after Reference.primitives Reference.env
        (deedBefore Reference.primitives Reference.env none)) (mintRequest Reference.env)).2 =
        .answered response ∧ response.http = 202 ∧ response.context.status = .accepted ∧
      response.response = some (.submitted submitted) ∧
      Ledger.getTransaction (after Reference.primitives Reference.env
        (deedBefore Reference.primitives Reference.env none ++ [mintRequest Reference.env])).ledger
        submitted.txId = none ∧
      Ledger.getProof Reference.primitives (after Reference.primitives Reference.env
        (deedBefore Reference.primitives Reference.env none ++ [mintRequest Reference.env])).ledger
        submitted.txId = none :=
  mint_unknown reliable_reference Reference.uuidText (Reference.freshIds _)

end Wayfinder.Service.Handlers

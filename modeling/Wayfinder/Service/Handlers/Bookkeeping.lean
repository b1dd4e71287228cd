import Wayfinder.Service.Handlers.History
import Wayfinder.Service.Ledger.Journal

/-! The books of a running service.

Every request that records adds one entry to the ledger's journal and every other one none
(`kept_change`), so at every moment of a run the stores of the ledger are the views of
one journal, which only grows (`ledger_oneToOne`). -/
namespace Wayfinder.Service.Handlers

open Js Envelope Credentials TokenClasses Tokens
open Ledger (Entry Books OneToOne Continues mintEntry transferEntry)

/-! ### The journal of a world -/

/-- The books of a world, and where the ids in them were drawn. -/
structure Kept (P : Primitives) (E : Env) (journal : List Entry) (w : World) : Prop where
  books : Books P journal w.ledger
  txDrawn : ∀ entry ∈ journal, Drawn E (lit "urn:uuid:tx-") w.draws entry.tx.txId
  recordDrawn : ∀ entry ∈ journal, Drawn E (lit "urn:uuid:tokentx-") w.draws entry.tx.tokenTxId

variable {P : Primitives} {E : Env} {journal : List Entry}

theorem kept_initial : Kept P E [] (service P E).initial where
  books := Ledger.books_empty
  txDrawn := fun _ h => absurd h List.not_mem_nil
  recordDrawn := fun _ h => absurd h List.not_mem_nil

theorem Kept.mono {w w' : World} (h : Kept P E journal w) (hledger : w'.ledger = w.ledger)
    (hdraws : w.draws ≤ w'.draws) : Kept P E journal w' where
  books := hledger ▸ h.books
  txDrawn := fun entry hentry => (h.txDrawn entry hentry).mono hdraws
  recordDrawn := fun entry hentry => (h.recordDrawn entry hentry).mono hdraws

/-- An entry whose ids are drawn now goes to the end of the journal. -/
theorem Kept.record {w w' : World} (h : Kept P E journal w) (hfresh : E.FreshIds w'.draws)
    {entry : Entry} {n : Nat} (hledger : w'.ledger = w.ledger.record P entry)
    (hdraws : w.draws ≤ n ∧ n + 2 < w'.draws) (htx : entry.tx.txId = lit "urn:uuid:tx-" ++ E.uuid n)
    (hrecord : entry.tx.tokenTxId = lit "urn:uuid:tokentx-" ++ E.uuid (n + 2)) :
    Kept P E (journal ++ [entry]) w' := by
  have hle : w.draws ≤ w'.draws := by omega
  have hlog : w.ledger.txLogs.get entry.tx.txId = none := by
    cases hget : w.ledger.txLogs.get entry.tx.txId with
    | none => rfl
    | some log =>
      obtain ⟨old, hold, hid, _⟩ := h.books.getLog_iff.mp hget
      exact absurd htx (hid ▸ (h.txDrawn old hold).ne hfresh hdraws.1 (by omega))
  have hnew : w.ledger.tokenTxById.get entry.tx.tokenTxId = none := by
    cases hget : w.ledger.tokenTxById.get entry.tx.tokenTxId with
    | none => rfl
    | some tx =>
      obtain ⟨old, hold, hid, _⟩ := h.books.getRecord_iff.mp hget
      exact absurd hrecord (hid ▸ (h.recordDrawn old hold).ne hfresh (by omega) (by omega))
  refine ⟨hledger ▸ h.books.append hlog hnew, fun e he => ?_, fun e he => ?_⟩
  · rcases List.mem_append.mp he with he | he
    · exact (h.txDrawn e he).mono hle
    · rw [List.mem_singleton.mp he]
      exact ⟨n, by omega, htx⟩
  · rcases List.mem_append.mp he with he | he
    · exact (h.recordDrawn e he).mono hle
    · rw [List.mem_singleton.mp he]
      exact ⟨n + 2, by omega, hrecord⟩

/-! ### What a request records -/

/-- The token that a request is about, as the request or its answer names it. -/
def Payload.tokenOf : Payload → Submitted → Option Str
  | .tokenMint _, submitted => submitted.tokenId
  | .tokenTransact payload, _ => payload.tokenId
  | _, _ => none

/-- A submission is recorded as an entry of its token. A transfer answers with the id of the
entry, a mint with one of its own. -/
structure Submits (P : Primitives) (E : Env) (w w' : World) (request : Request)
    (submitted : Submitted) (entry : Entry) : Prop where
  ledger : w'.ledger = w.ledger.record P entry
  token : request.payload.tokenOf submitted = some entry.tx.tokenId
  answered : (∃ payload n, request.payload = .tokenMint payload ∧ submitted.txId = E.uuid n) ∨
    ∃ payload, request.payload = .tokenTransact payload ∧ submitted.txId = entry.tx.txId

/-- A request that does not touch the ledger adds no entry. -/
theorem Kept.same {w w' : World} (h : Kept P E journal w) (hdraws : w.draws ≤ w'.draws)
    (hledger : w'.ledger = w.ledger) {request : Request} {outcome : Outcome}
    (hbody : ∀ submitted, outcome.body ≠ some (.submitted submitted)) :
    ∃ more, Kept P E (journal ++ more) w' ∧ ∀ submitted,
      outcome.body = some (.submitted submitted) →
      ∃ entry, more = [entry] ∧ Submits P E w w' request submitted entry := by
  refine ⟨[], ?_, fun submitted hs => absurd hs (hbody submitted)⟩
  rw [List.append_nil]
  exact h.mono hledger hdraws

/-- **Each submission adds one entry to the journal**, and no other request adds any. -/
theorem kept_change {w w' : World} {request : Request} {outcome : Outcome}
    (hchange : Change P E w request w' outcome) (hfresh : E.FreshIds w'.draws)
    (hrecorded : Recorded P E w) (h : Kept P E journal w) :
    ∃ more, Kept P E (journal ++ more) w' ∧ ∀ submitted,
      outcome.body = some (.submitted submitted) →
      ∃ entry, more = [entry] ∧ Submits P E w w' request submitted entry := by
  have hle := hchange.draws_le
  cases hchange with
  | quiet hdraws hquiet =>
    refine h.same hle rfl fun submitted hs => ?_
    rw [Outcome.reports, hs] at hquiet
    cases hquiet
  | created =>
    refine h.same hle rfl fun submitted hs => ?_
    cases hs
  | issued =>
    refine h.same hle rfl fun submitted hs => ?_
    cases hs
  | revoked =>
    refine h.same hle rfl fun submitted hs => ?_
    cases hs
  | registered =>
    refine h.same hle rfl fun submitted hs => ?_
    cases hs
  | @minted context payload account tokens ledger token next haccount hmint =>
    obtain ⟨tc, claim, m, log, _, _, hm, rfl, _, rfl, rfl, rfl⟩ := mintToken_writes hmint
    have hdraws := lt_mintDraws m
    refine ⟨[mintEntry P E (m + 2) _], h.record hfresh rfl ⟨by omega, hdraws⟩ rfl rfl, ?_⟩
    intro submitted hs
    cases hs
    exact ⟨_, rfl, rfl, rfl, .inl ⟨payload, _, rfl, rfl⟩⟩
  | @moved context payload account recipient id toAddress token haccount hoperation hid hto
      hrecipient hget howner =>
    refine ⟨[transferEntry P E w.draws _],
      h.record hfresh rfl ⟨Nat.le_refl _, lt_moveDraws _⟩ rfl rfl, ?_⟩
    intro submitted hs
    cases hs
    refine ⟨_, rfl, rfl, ?_, .inr ⟨payload, rfl, rfl⟩⟩
    rw [Payload.tokenOf, hid]
    exact congrArg some (hrecorded.tokenId hget).symm

theorem kept_step {w w' : World} {request : Request} {outcome : Outcome}
    (hchange : Change P E w request w' outcome) (hfresh : E.FreshIds w'.draws)
    (h : Recorded P E w ∧ ∃ more, Kept P E (journal ++ more) w) :
    Recorded P E w' ∧ ∃ more, Kept P E (journal ++ more) w' := by
  obtain ⟨hrecorded, more, hkept⟩ := h
  refine ⟨recorded_change hchange hfresh hrecorded, ?_⟩
  obtain ⟨added, hadded, _⟩ := kept_change hchange hfresh hrecorded hkept
  exact ⟨more ++ added, List.append_assoc journal more added ▸ hadded⟩

/-- A run has a journal. -/
theorem kept_after (requests : List Request) (hfresh : E.FreshIds (after P E requests).draws) :
    ∃ journal, Kept P E journal (after P E requests) :=
  (run_invariant (I := fun w => Recorded P E w ∧ ∃ more, Kept P E ([] ++ more) w)
    (fun hmn h => h.mono hmn) ⟨recorded_initial, [], kept_initial⟩ kept_step requests hfresh).2

/-- However a run goes on, its journal only grows. -/
theorem kept_append {pre : List Request} (h : Kept P E journal (after P E pre))
    (post : List Request) (hfresh : E.FreshIds (after P E (pre ++ post)).draws) :
    ∃ more, Kept P E (journal ++ more) (after P E (pre ++ post)) := by
  have hpre := recorded_after pre (hfresh.mono (draws_le_append pre post))
  refine (continue_invariant (I := fun w => Recorded P E w ∧ ∃ more, Kept P E (journal ++ more) w)
    (fun hmn h => h.mono hmn) kept_step pre post hfresh ⟨hpre, [], ?_⟩).2
  rwa [List.append_nil]

/-- **The stores of the ledger are in one-to-one correspondence, and append-only.** -/
theorem ledger_oneToOne (pre post : List Request)
    (hfresh : E.FreshIds (after P E (pre ++ post)).draws) :
    OneToOne P (after P E pre).ledger ∧
      Continues P (after P E pre).ledger (after P E (pre ++ post)).ledger := by
  obtain ⟨journal, hkept⟩ := kept_after pre (hfresh.mono (draws_le_append pre post))
  obtain ⟨more, hmore⟩ := kept_append hkept post hfresh
  exact ⟨hkept.books.oneToOne, hkept.books.continues hmore.books⟩

/-- The deed is minted, then given to Bob. -/
theorem ledger_oneToOne_deed :
    OneToOne Reference.primitives (after Reference.primitives Reference.env (deedBefore
      Reference.primitives Reference.env none ++ [mintRequest Reference.env])).ledger ∧
      Continues Reference.primitives (after Reference.primitives Reference.env
        (deedBefore Reference.primitives Reference.env none ++ [mintRequest Reference.env])).ledger
        (after Reference.primitives Reference.env
          (deedBefore Reference.primitives Reference.env none ++ [mintRequest Reference.env] ++
            [moveRequest Reference.primitives Reference.env none])).ledger :=
  ledger_oneToOne _ _ (Reference.freshIds _)

end Wayfinder.Service.Handlers

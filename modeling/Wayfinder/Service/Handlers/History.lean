import Wayfinder.Service.Handlers.Succeeds
import Wayfinder.Service.Ledger.Records

/-! The history of a token replays to the token.

A mint opens the history and every transfer goes on from its last record: the sender is the
last receiver, and the state before is the last state after. The token store and the
ledger are written one after the other, so what keeps them together is an invariant of
the whole service (`Recorded`): each token has a history that ends at its owner and at its
commitment, and nothing else has one. -/
namespace Wayfinder.Service.Handlers

open Js Envelope Credentials TokenClasses Tokens
open Ledger (TokenTransaction tokenTransactions keepsHistories_append tokenTransactions_append)

/-! ### Replaying a history -/

/-- The commitment before a transaction, none before a mint. -/
def previousOf (tx : TokenTransaction) : Str :=
  (tx.stateBefore.map Ledger.StateReference.stateCommitment).getD []

/-- A transaction goes on from the one before it. -/
structure Follows (last next : TokenTransaction) : Prop where
  sender : next.fromAccount = last.toAccount
  before : next.stateBefore.map Ledger.StateReference.stateCommitment =
    some last.stateAfter.stateCommitment
  previous : next.stateAfter.previousCommitment = some last.stateAfter.stateCommitment

/-- The commitment of a transaction is the one over its own fields and a claims digest. -/
def Committed (P : Primitives) (digest : Str) (tx : TokenTransaction) : Prop :=
  ∃ txId receiver, tx.txId = lit "urn:uuid:tx-" ++ txId ∧ tx.toAccount = some receiver ∧
    tx.stateAfter.stateCommitment = Ledger.nextCommitment P
      { previousCommitment := previousOf tx, txId, tokenId := tx.tokenId, ownerDid := receiver
        claimsDigest := digest, timestamp := tx.timestamp }

/-- A mint and the transfers after it replay to a token. -/
structure Replays (P : Primitives) (token : TokenInstance) (genesis : TokenTransaction)
    (transfers : List TokenTransaction) : Prop where
  minted : genesis.operation = .mint ∧ genesis.stateBefore = none
  moved : ∀ tx ∈ transfers, tx.operation = .transfer
  chain : (genesis :: transfers).IsChain Follows
  ofToken : ∀ tx ∈ genesis :: transfers, tx.tokenId = token.id
  committed : ∀ tx ∈ genesis :: transfers, Committed P (claimsDigestOf P token) tx
  owner : ∃ did, token.ownerIdent.map Identity.id = some did ∧
    (transfers.getLastD genesis).toAccount = some did
  head : token.state.stateCommitment = some (transfers.getLastD genesis).stateAfter.stateCommitment

variable {P : Primitives} {E : Env}

/-- A mint opens a history. -/
theorem replays_mint (n : Nat) {token : TokenInstance} {ownerDid : Str}
    (howner : token.ownerIdent.map Identity.id = some ownerDid) :
    Replays P (token.committedTo (mintOf P E n token ownerDid))
      (mintOf P E n token ownerDid) [] where
  minted := ⟨rfl, rfl⟩
  moved := fun tx htx => nomatch htx
  chain := List.isChain_singleton _
  ofToken := by
    intro tx htx
    rw [List.mem_singleton.mp htx]
    rfl
  committed := by
    intro tx htx
    rw [List.mem_singleton.mp htx]
    exact ⟨_, _, rfl, rfl, rfl⟩
  owner := ⟨ownerDid, howner, rfl⟩
  head := rfl

/-- A transfer by the owner goes on from the last record. -/
theorem replays_transfer {token : TokenInstance} {genesis : TokenTransaction}
    {transfers : List TokenTransaction} (h : Replays P token genesis transfers) (n : Nat)
    {fromDid : Str} (howner : token.ownerIdent.map Identity.id = some fromDid) (toDid now : Str) :
    Replays P (token.movedTo toDid (transferOf P E n token fromDid toDid).stateAfter.stateCommitment
      now) genesis (transfers ++ [transferOf P E n token fromDid toDid]) where
  minted := h.minted
  moved := by
    intro tx htx
    rcases List.mem_append.mp htx with htx | htx
    · exact h.moved tx htx
    · rw [List.mem_singleton.mp htx]
      rfl
  chain := by
    have hlast : (genesis :: transfers).getLast? = some (transfers.getLastD genesis) := by
      rw [List.getLast?_cons, List.getLastD_eq_getLast?]
    rw [← List.cons_append]
    refine List.isChain_append.mpr ⟨h.chain, List.isChain_singleton _, fun last hl next hn => ?_⟩
    have hl : last = transfers.getLastD genesis := by
      rw [hlast] at hl
      exact (Option.some.inj hl).symm
    have hn : next = transferOf P E n token fromDid toDid := (Option.some.inj hn).symm
    obtain ⟨did, hdid, hreceiver⟩ := h.owner
    rw [howner, Option.some.injEq] at hdid
    subst hl hn hdid
    have hprevious : token.state.stateCommitment.getD [] =
        (transfers.getLastD genesis).stateAfter.stateCommitment := by rw [h.head, Option.getD_some]
    exact ⟨hreceiver.symm, congrArg some hprevious, congrArg some hprevious⟩
  ofToken := by
    intro tx htx
    rcases List.mem_append.mp (List.cons_append ▸ htx) with htx | htx
    · exact h.ofToken tx htx
    · rw [List.mem_singleton.mp htx]
      rfl
  committed := by
    intro tx htx
    rcases List.mem_append.mp (List.cons_append ▸ htx) with htx | htx
    · exact h.committed tx htx
    · rw [List.mem_singleton.mp htx]
      exact ⟨_, _, rfl, rfl, rfl⟩
  owner := by
    refine ⟨toDid, ownerIdent_setOwner ?_, ?_⟩
    · exact Option.isSome_of_mem (Option.map_eq_some_iff.mp howner).choose_spec.1
    · rw [List.getLastD_concat]
      rfl
  head := by
    rw [List.getLastD_concat]
    rfl

/-! ### The invariant -/

/-- The token store and the ledger agree: every token has a history that replays to it, and
only tokens have one. -/
structure Recorded (P : Primitives) (E : Env) (w : World) : Prop where
  tokenId : ∀ {id token}, w.tokens.byId.get id = some token → token.id = id
  tokenDrawn : ∀ {id token}, w.tokens.byId.get id = some token →
    Drawn E (lit "urn:uuid:token-") w.draws id
  recordDrawn : ∀ {x tx}, w.ledger.tokenTxById.get x = some tx →
    Drawn E (lit "urn:uuid:tokentx-") w.draws x
  keeps : w.ledger.KeepsHistories
  opened : ∀ {id}, w.tokens.byId.get id = none → w.ledger.historyByToken.get id = none
  replays : ∀ {id token}, w.tokens.byId.get id = some token → ∃ genesis transfers,
    tokenTransactions w.ledger id = genesis :: transfers ∧ Replays P token genesis transfers

theorem recorded_initial : Recorded P E (service P E).initial where
  tokenId := fun h => nomatch h
  tokenDrawn := fun h => nomatch h
  recordDrawn := fun h => nomatch h
  keeps := fun h => nomatch h
  opened := fun _ => rfl
  replays := fun h => nomatch h

theorem Recorded.mono {w w' : World} (h : Recorded P E w) (htokens : w'.tokens = w.tokens)
    (hledger : w'.ledger = w.ledger) (hdraws : w.draws ≤ w'.draws) : Recorded P E w' where
  tokenId := fun hget => h.tokenId (htokens ▸ hget)
  tokenDrawn := fun hget => (h.tokenDrawn (htokens ▸ hget)).mono hdraws
  recordDrawn := fun hget => (h.recordDrawn (hledger ▸ hget)).mono hdraws
  keeps := hledger ▸ h.keeps
  opened := fun hget => hledger ▸ h.opened (htokens ▸ hget)
  replays := fun hget => by
    obtain ⟨genesis, transfers, htransactions, hreplays⟩ := h.replays (htokens ▸ hget)
    exact ⟨genesis, transfers, hledger ▸ htransactions, hreplays⟩

/-- A record is the last of its token's history, and of no other. -/
theorem Recorded.transactions {w w' : World} (h : Recorded P E w) (hfresh : E.FreshIds w'.draws)
    {tx : TokenTransaction} {log : Ledger.TransactionLog} {i : Nat}
    (hledger : w'.ledger = w.ledger.append P tx log) (hdraws : w.draws ≤ i ∧ i < w'.draws)
    (htxId : tx.tokenTxId = lit "urn:uuid:tokentx-" ++ E.uuid i) (id : Str) :
    tokenTransactions w'.ledger id = tokenTransactions w.ledger id ++ if tx.tokenId = id then [tx]
      else [] := by
  have hnew : w.ledger.tokenTxById.get tx.tokenTxId = none := by
    cases hget : w.ledger.tokenTxById.get tx.tokenTxId with
    | none => rfl
    | some old => exact absurd htxId ((h.recordDrawn hget).ne hfresh hdraws.1 hdraws.2)
  rw [hledger]
  exact tokenTransactions_append h.keeps log hnew id

/-- A record that is written with its token keeps the two in agreement. -/
theorem Recorded.record {w w' : World} (h : Recorded P E w) (hfresh : E.FreshIds w'.draws)
    {id : Str} {token : TokenInstance} {tx : TokenTransaction} {log : Ledger.TransactionLog}
    {i : Nat} (htokens : w'.tokens.byId = w.tokens.byId.set id token)
    (hledger : w'.ledger = w.ledger.append P tx log) (hdraws : w.draws ≤ i ∧ i < w'.draws)
    (htxId : tx.tokenTxId = lit "urn:uuid:tokentx-" ++ E.uuid i)
    (hid : token.id = id ∧ tx.tokenId = id) (hdrawn : Drawn E (lit "urn:uuid:token-") w'.draws id)
    (hreplays : ∃ genesis transfers, tokenTransactions w.ledger id ++ [tx] = genesis :: transfers ∧
      Replays P token genesis transfers) : Recorded P E w' := by
  have hle : w.draws ≤ w'.draws := by omega
  have htransactions := h.transactions hfresh hledger hdraws htxId
  have hget : ∀ id', w'.tokens.byId.get id' = if id = id' then some token
      else w.tokens.byId.get id' := by
    intro id'
    rw [htokens, JsMap.get_set]
  constructor
  · intro id' token' hget'
    rw [hget] at hget'
    split at hget'
    · next he =>
      cases hget'
      exact hid.1.trans he
    · exact h.tokenId hget'
  · intro id' token' hget'
    rw [hget] at hget'
    split at hget'
    · next he => exact he ▸ hdrawn
    · exact (h.tokenDrawn hget').mono hle
  · intro x tx' hget'
    have hget' : (w.ledger.tokenTxById.set tx.tokenTxId tx).get x = some tx' := by
      rw [hledger] at hget'
      exact hget'
    rw [JsMap.get_set] at hget'
    split at hget'
    · next he => exact ⟨i, hdraws.2, he ▸ htxId⟩
    · exact (h.recordDrawn hget').mono hle
  · exact hledger ▸ keepsHistories_append h.keeps tx log
  · intro id' hget'
    rw [hget] at hget'
    split at hget'
    · cases hget'
    · next hne =>
      rw [hledger]
      exact (JsMap.get_set_ne _ _ (hid.2 ▸ hne)).trans (h.opened hget')
  · intro id' token' hget'
    rw [hget] at hget'
    split at hget'
    · next he =>
      cases hget'
      subst he
      rw [htransactions, if_pos hid.2]
      exact hreplays
    · next hne =>
      rw [htransactions, if_neg (hid.2 ▸ hne), List.append_nil]
      exact h.replays hget'

/-- A token id that is drawn now is of no token and has no history yet. -/
theorem Recorded.unborn {w : World} (h : Recorded P E w) {n i : Nat} (hfresh : E.FreshIds n)
    (hi : w.draws ≤ i) (hn : i < n) :
    w.tokens.byId.get (lit "urn:uuid:token-" ++ E.uuid i) = none ∧
      tokenTransactions w.ledger (lit "urn:uuid:token-" ++ E.uuid i) = [] := by
  have hnone : w.tokens.byId.get (lit "urn:uuid:token-" ++ E.uuid i) = none := by
    cases hget : w.tokens.byId.get (lit "urn:uuid:token-" ++ E.uuid i) with
    | none => rfl
    | some token => exact absurd rfl ((h.tokenDrawn hget).ne hfresh hi hn)
  refine ⟨hnone, ?_⟩
  rw [tokenTransactions, h.opened hnone]
  rfl

/-- The id of a record is drawn within its step. -/
theorem lt_mintDraws (m : Nat) : m + 4 < m + 2 + Ledger.recordDraws + 1 + responseDraws := by
  show m + 4 < m + 2 + 7 + 1 + 2
  omega

theorem lt_moveDraws (n : Nat) : n + 2 < n + transferDraws + 1 + responseDraws := by
  show n + 2 < n + 8 + 1 + 2
  omega

theorem recorded_change {w w' : World} {request : Request} {outcome : Outcome}
    (hchange : Change P E w request w' outcome) (hfresh : E.FreshIds w'.draws)
    (h : Recorded P E w) :
    Recorded P E w' := by
  have hle := hchange.draws_le
  cases hchange with
  | quiet => exact h.mono rfl rfl hle
  | created => exact h.mono rfl rfl hle
  | issued => exact h.mono rfl rfl hle
  | revoked => exact h.mono rfl rfl hle
  | registered => exact h.mono rfl rfl hle
  | @minted context payload account tokens ledger token next haccount hmint =>
    obtain ⟨tc, claim, m, log, _, _, hm, rfl, hbyId, rfl, rfl, _⟩ := mintToken_writes hmint
    have hdraws := lt_mintDraws m
    have hunborn :=
      (h.unborn hfresh (show w.draws ≤ m + 1 by omega) (Nat.lt_trans (by omega) hdraws)).2
    refine h.record (i := m + 4) hfresh hbyId rfl ⟨by omega, hdraws⟩ rfl ⟨rfl, rfl⟩
      ⟨m + 1, Nat.lt_trans (by omega) hdraws, rfl⟩ ⟨_, [], ?_, replays_mint (m + 2) rfl⟩
    exact congrArg (· ++ [_]) hunborn
  | @moved context payload account recipient id toAddress token haccount hoperation hid hto
      hrecipient hget howner =>
    obtain ⟨genesis, transfers, htransactions, hreplays⟩ := h.replays hget
    have hid := h.tokenId hget
    refine h.record (i := w.draws + 2) hfresh rfl rfl ⟨by omega, lt_moveDraws _⟩ rfl ⟨hid,
      hid⟩ ((h.tokenDrawn hget).mono hle) ⟨genesis, transfers ++ [_], ?_,
        replays_transfer hreplays _ howner _ _⟩
    exact congrArg (· ++ [_]) htransactions

theorem recorded_after (requests : List Request) (hfresh : E.FreshIds (after P E requests).draws) :
    Recorded P E (after P E requests) :=
  run_invariant (fun hmn h => h.mono hmn) recorded_initial recorded_change requests hfresh

/-- Histories only grow. -/
theorem transactions_prefix {w w' : World} {request : Request} {outcome : Outcome}
    (hchange : Change P E w request w' outcome) (hfresh : E.FreshIds w'.draws) (h : Recorded P E w)
    (id : Str) :
    tokenTransactions w.ledger id <+: tokenTransactions w'.ledger id := by
  cases hchange with
  | quiet => exact List.prefix_rfl
  | created => exact List.prefix_rfl
  | issued => exact List.prefix_rfl
  | revoked => exact List.prefix_rfl
  | registered => exact List.prefix_rfl
  | minted haccount hmint =>
    obtain ⟨tc, claim, m, log, _, _, hm, rfl, hbyId, rfl, rfl, _⟩ := mintToken_writes hmint
    rw [h.transactions (i := m + 4) hfresh rfl ⟨by omega, lt_mintDraws m⟩ rfl]
    exact List.prefix_append _ _
  | @moved context payload account recipient id' toAddress token haccount hoperation hid hto
      hrecipient hget howner =>
    rw [h.transactions (i := w.draws + 2) hfresh rfl ⟨by omega, lt_moveDraws _⟩ rfl]
    exact List.prefix_append _ _

/-- **The history of every token replays to it.** -/
theorem tokenTransactions_replay (requests : List Request)
    (hfresh : E.FreshIds (after P E requests).draws) {id : Str} {token : TokenInstance}
    (hget : (after P E requests).tokens.byId.get id = some token) :
    ∃ genesis transfers, tokenTransactions (after P E requests).ledger id = genesis :: transfers ∧
      Replays P token genesis transfers :=
  (recorded_after requests hfresh).replays hget

/-- The deed after Alice gave it to Bob. -/
theorem tokenTransactions_replay_deed :
    ∃ token genesis transfers, (after Reference.primitives Reference.env
      (deedBefore Reference.primitives Reference.env none ++ [mintRequest Reference.env,
        moveRequest Reference.primitives Reference.env none])).tokens.byId.get
      (newDeed Reference.primitives Reference.env none).id = some token ∧
      tokenTransactions (after Reference.primitives Reference.env
        (deedBefore Reference.primitives Reference.env none ++ [mintRequest Reference.env,
          moveRequest Reference.primitives Reference.env none])).ledger
        (newDeed Reference.primitives Reference.env none).id = genesis :: transfers ∧
      Replays Reference.primitives token genesis transfers := by
  obtain ⟨token, hget, _⟩ := deed_moved reliable_reference none
  obtain ⟨genesis, transfers, htransactions, hreplays⟩ :=
    tokenTransactions_replay _ (Reference.freshIds _) hget
  exact ⟨_, genesis, transfers, hget, htransactions, hreplays⟩

end Wayfinder.Service.Handlers

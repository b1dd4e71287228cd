import Wayfinder.Service.Ledger.Records

/-! The ledger as one journal.

Three functions write the four stores of the ledger. What they keep is one list: the journal,
whose entries are a transaction with its log. Each store is a view of it (`Books`), a
record adds an entry at its end (`Books.append`), and so every entry has one log, one
stored transaction, one place in one history and one leaf (`Books.oneToOne`), which a longer
journal leaves where they are (`Books.continues`). -/
namespace Wayfinder.Service.Ledger

open Js Crypto

/-! ### Entries -/

/-- A transaction with the log that refers to it. -/
structure Entry where
  tx : TokenTransaction
  log : TransactionLog
  logged : log.txId = tx.txId
  refers : log.tokenTransactions = [⟨tx.tokenTxId, tx.tokenId, tx.operation⟩]
  /-- A transfer has a state before, a mint none. -/
  before : tx.stateBefore.isSome ↔ tx.operation = .transfer

/-- The id of an entry and what the log says. -/
def Entry.toLog (entry : Entry) : Str × TransactionLog := (entry.tx.txId, entry.log)

def Entry.toRecord (entry : Entry) : Str × TokenTransaction := (entry.tx.tokenTxId, entry.tx)

variable (P : Primitives) (E : Env)

/-- The entry that minting records. -/
def mintEntry (n : Nat) (input : MintRecord) : Entry where
  tx := mintTransaction P E n input
  log := newLog P E (n + 3) (mintTransaction P E n input).txId input.ownerDid
    (mintTransaction P E n input)
  logged := rfl
  refers := rfl
  before := iff_of_false Bool.false_ne_true (show ¬ Operation.mint = .transfer by decide)

/-- The entry that a transfer records. -/
def transferEntry (n : Nat) (input : TransferRecord) : Entry where
  tx := transferTransaction P E n input
  log := newLog P E (n + 3) (transferTransaction P E n input).txId input.fromDid
    (transferTransaction P E n input)
  logged := rfl
  refers := rfl
  before := iff_of_true rfl rfl

def State.record (s : State) (entry : Entry) : State := s.append P entry.tx entry.log

/-! ### The stores as views -/

/-- The four stores are the views of a journal. -/
structure Books (journal : List Entry) (s : State) : Prop where
  txLogs : s.txLogs.entries = journal.map Entry.toLog
  tokenTxById : s.tokenTxById.entries = journal.map Entry.toRecord
  historyByToken : ∀ id, (s.historyByToken.get id).getD [] =
    (journal.filter (·.tx.tokenId = id)).map (·.tx.tokenTxId)
  leaves : s.leaves = journal.map fun entry => leafOf P entry.tx

variable {P} {journal : List Entry} {s : State}

theorem books_empty : Books P [] .empty where
  txLogs := rfl
  tokenTxById := rfl
  historyByToken := fun _ => rfl
  leaves := rfl

/-- An entry with new ids goes to the end of every view. -/
theorem Books.append (h : Books P journal s) {entry : Entry}
    (hlog : s.txLogs.get entry.tx.txId = none)
    (hrecord : s.tokenTxById.get entry.tx.tokenTxId = none) :
    Books P (journal ++ [entry]) (s.record P entry) where
  txLogs := by
    show (s.txLogs.set entry.tx.txId entry.log).entries = _
    rw [JsMap.entries_set_new _ hlog, h.txLogs, List.map_append]
    rfl
  tokenTxById := by
    show (s.tokenTxById.set entry.tx.tokenTxId entry.tx).entries = _
    rw [JsMap.entries_set_new _ hrecord, h.tokenTxById, List.map_append]
    rfl
  historyByToken := by
    intro id
    show ((s.historyByToken.set entry.tx.tokenId _).get id).getD [] = _
    rw [JsMap.get_set, List.filter_append, List.map_append, ← h.historyByToken id]
    by_cases hid : entry.tx.tokenId = id
    · simp [hid]
    · simp [hid]
  leaves := by
    show s.leaves ++ [leafOf P entry.tx] = _
    rw [h.leaves, List.map_append]
    rfl

/-! ### Reading the journal from the stores -/

namespace Books

theorem txId_nodup (h : Books P journal s) : (journal.map (·.tx.txId)).Nodup := by
  have hn := s.txLogs.nodup
  rwa [h.txLogs, List.map_map] at hn

theorem tokenTxId_nodup (h : Books P journal s) : (journal.map (·.tx.tokenTxId)).Nodup := by
  have hn := s.tokenTxById.nodup
  rwa [h.tokenTxById, List.map_map] at hn

/-- An id is of one entry. -/
theorem entry_eq (h : Books P journal s) {a b : Entry} (ha : a ∈ journal) (hb : b ∈ journal)
    (he : a.tx.txId = b.tx.txId) : a = b :=
  List.inj_on_of_nodup_map h.txId_nodup ha hb he

theorem getLog_iff (h : Books P journal s) {txId : Str} {log : TransactionLog} :
    s.txLogs.get txId = some log ↔ ∃ entry ∈ journal, entry.tx.txId = txId ∧ entry.log = log := by
  rw [JsMap.get_eq_some, h.txLogs, List.mem_map]
  simp [Entry.toLog]

theorem getRecord_iff (h : Books P journal s) {x : Str} {tx : TokenTransaction} :
    s.tokenTxById.get x = some tx ↔ ∃ entry ∈ journal, entry.tx.tokenTxId = x ∧ entry.tx = tx := by
  rw [JsMap.get_eq_some, h.tokenTxById, List.mem_map]
  simp [Entry.toRecord]

/-- The transactions of a token are those of the journal, in its order. -/
theorem tokenTransactions_eq (h : Books P journal s) (id : Str) :
    tokenTransactions s id = (journal.filter (·.tx.tokenId = id)).map (·.tx) := by
  rw [tokenTransactions, h.historyByToken, List.filterMap_map, ← List.filterMap_eq_map]
  apply List.filterMap_congr
  intro entry hentry
  exact h.getRecord_iff.mpr ⟨entry, List.mem_of_mem_filter hentry, rfl, rfl⟩

/-- A transaction stands once in the history of its token, and in no other. -/
theorem count_history (h : Books P journal s) {entry : Entry} (hentry : entry ∈ journal)
    (id : Str) :
    ((s.historyByToken.get id).getD []).count entry.tx.tokenTxId = if id = entry.tx.tokenId then 1
      else 0 := by
  rw [h.historyByToken]
  have hsub : ((journal.filter (·.tx.tokenId = id)).map (·.tx.tokenTxId)).Sublist
      (journal.map (·.tx.tokenTxId)) := List.filter_sublist.map _
  split
  · next hid =>
    apply List.count_eq_one_of_mem (h.tokenTxId_nodup.sublist hsub)
    exact List.mem_map.mpr ⟨entry, List.mem_filter.mpr ⟨hentry, by simp [hid]⟩, rfl⟩
  · next hid =>
    apply List.count_eq_zero_of_not_mem
    intro hmem
    obtain ⟨other, hother, he⟩ := List.mem_map.mp hmem
    have : other = entry :=
      List.inj_on_of_nodup_map h.tokenTxId_nodup (List.mem_of_mem_filter hother) hentry he
    subst this
    have htoken : other.tx.tokenId = id := by simpa using List.of_mem_filter hother
    exact hid htoken.symm

/-- A transaction id has one leaf, the one of its transaction. -/
theorem filter_leaves (h : Books P journal s) {entry : Entry} (hentry : entry ∈ journal) :
    s.leaves.filter (·.txId = entry.tx.txId) = [leafOf P entry.tx] := by
  have hnodup : (s.leaves.map Leaf.txId).Nodup := by
    rw [h.leaves, List.map_map]
    exact h.txId_nodup
  have hmem : leafOf P entry.tx ∈ s.leaves := by
    rw [h.leaves]
    exact List.mem_map.mpr ⟨entry, hentry, rfl⟩
  obtain ⟨before, after, he⟩ := List.append_of_mem hmem
  rw [he, List.map_append, List.map_cons, List.nodup_append] at hnodup
  obtain ⟨_, hafter, hbefore⟩ := hnodup
  rw [he, List.filter_append, List.filter_cons_of_pos (by simp [leafOf])]
  have hnil : ∀ leaves : List Leaf, (∀ leaf ∈ leaves, leaf.txId ≠ entry.tx.txId) →
      leaves.filter (·.txId = entry.tx.txId) = [] := by
    intro leaves hne
    simpa using hne
  rw [hnil before, hnil after]
  · rfl
  · intro leaf hleaf hid
    exact (List.nodup_cons.mp hafter).1 (List.mem_map.mpr ⟨leaf, hleaf, hid⟩)
  · intro leaf hleaf hid
    exact hbefore _ (List.mem_map_of_mem hleaf) _ (List.mem_cons_self ..) hid

end Books

/-! ### One to one -/

variable (P)

/-- A log, the one transaction it refers to, and where that transaction stands. -/
structure Logs (s : State) (txId : Str) (log : TransactionLog) (tx : TokenTransaction) : Prop where
  ids : log.txId = txId ∧ tx.txId = txId
  refers : log.tokenTransactions = [⟨tx.tokenTxId, tx.tokenId, tx.operation⟩]
  stored : s.tokenTxById.get tx.tokenTxId = some tx
  -- no other stored transaction has the id
  unique : ∀ {x other}, s.tokenTxById.get x = some other → other.txId = txId → x = tx.tokenTxId
  once : ∀ id,
    ((s.historyByToken.get id).getD []).count tx.tokenTxId = if id = tx.tokenId then 1 else 0
  leaf : s.leaves.filter (·.txId = txId) = [⟨txId, sha256Hex P (canonical (leafData tx))⟩]
  before : tx.stateBefore.isSome ↔ tx.operation = .transfer

/-- The stores of the ledger are in one-to-one correspondence. -/
structure OneToOne (s : State) : Prop where
  logsCount : s.txLogs.entries.length = s.leaves.length
  recordsCount : s.tokenTxById.entries.length = s.leaves.length
  logs : ∀ {txId log}, s.txLogs.get txId = some log → ∃ tx, Logs P s txId log tx
  records : ∀ {x tx}, s.tokenTxById.get x = some tx → x = tx.tokenTxId ∧
    (s.txLogs.get tx.txId).isSome
  leaves : ∀ leaf ∈ s.leaves, (s.txLogs.get leaf.txId).isSome

/-- A later ledger keeps what an earlier one holds, and where it holds it. -/
structure Continues (s s' : State) : Prop where
  leaves : s.leaves <+: s'.leaves
  histories : ∀ id, (s.historyByToken.get id).getD [] <+: (s'.historyByToken.get id).getD []
  logs : ∀ {txId log}, s.txLogs.get txId = some log → s'.txLogs.get txId = some log
  records : ∀ {x tx}, s.tokenTxById.get x = some tx → s'.tokenTxById.get x = some tx
  transactions : ∀ id, tokenTransactions s id <+: tokenTransactions s' id
  proofs : ∀ {txId proof}, getProof P s txId = some proof →
    ∃ proof', getProof P s' txId = some proof' ∧
      proof'.leafHash = proof.leafHash ∧ proof'.leafIndex = proof.leafIndex

variable {P}

theorem Books.oneToOne (h : Books P journal s) : OneToOne P s where
  logsCount := by rw [h.txLogs, h.leaves, List.length_map, List.length_map]
  recordsCount := by rw [h.tokenTxById, h.leaves, List.length_map, List.length_map]
  logs := by
    intro txId log hlog
    obtain ⟨entry, hentry, rfl, rfl⟩ := h.getLog_iff.mp hlog
    refine ⟨entry.tx, ⟨entry.logged, rfl⟩, entry.refers,
      h.getRecord_iff.mpr ⟨entry, hentry, rfl, rfl⟩, ?_,
      h.count_history hentry, h.filter_leaves hentry, entry.before⟩
    intro x other hother hid
    obtain ⟨entry', hentry', rfl, rfl⟩ := h.getRecord_iff.mp hother
    rw [h.entry_eq hentry' hentry hid]
  records := by
    intro x tx hrecord
    obtain ⟨entry, hentry, rfl, rfl⟩ := h.getRecord_iff.mp hrecord
    exact ⟨rfl, Option.isSome_of_mem (h.getLog_iff.mpr ⟨entry, hentry, rfl, rfl⟩)⟩
  leaves := by
    intro leaf hleaf
    rw [h.leaves] at hleaf
    obtain ⟨entry, hentry, rfl⟩ := List.mem_map.mp hleaf
    exact Option.isSome_of_mem (h.getLog_iff.mpr ⟨entry, hentry, rfl, rfl⟩)

/-- A leaf is found at the place it has, whatever follows. -/
theorem getProof_prefix {s s' : State} (h : s.leaves <+: s'.leaves) {txId : Str}
    {proof : ProofDetails} (hproof : getProof P s txId = some proof) :
    ∃ proof', getProof P s' txId = some proof' ∧
      proof'.leafHash = proof.leafHash ∧ proof'.leafIndex = proof.leafIndex := by
  obtain ⟨more, hmore⟩ := h
  unfold getProof at hproof
  split at hproof
  · cases hproof
  · next i hi =>
    cases hproof
    have hlt : i < s.leaves.length := (List.findIdx?_eq_some_iff_getElem.mp hi).1
    have hi' : s'.leaves.findIdx? (·.txId = txId) = some i := by
      rw [← hmore, List.findIdx?_append, hi]
      rfl
    rw [getProof, hi']
    refine ⟨_, rfl, ?_, rfl⟩
    rw [← hmore, List.map_append, List.getD_append _ _ _ _ (by rwa [List.length_map])]

/-- A longer journal leaves every entry where it is. -/
theorem Books.continues {s' : State} {more : List Entry} (h : Books P journal s)
    (h' : Books P (journal ++ more) s') : Continues P s s' := by
  have hleaves : s.leaves <+: s'.leaves := by
    rw [h.leaves, h'.leaves, List.map_append]
    exact List.prefix_append _ _
  refine ⟨hleaves, fun id => ?_, fun hlog => ?_, fun hrecord => ?_, fun id => ?_,
    getProof_prefix hleaves⟩
  · rw [h.historyByToken, h'.historyByToken, List.filter_append, List.map_append]
    exact List.prefix_append _ _
  · obtain ⟨entry, hentry, hid, hl⟩ := h.getLog_iff.mp hlog
    exact h'.getLog_iff.mpr ⟨entry, List.mem_append_left _ hentry, hid, hl⟩
  · obtain ⟨entry, hentry, hid, hl⟩ := h.getRecord_iff.mp hrecord
    exact h'.getRecord_iff.mpr ⟨entry, List.mem_append_left _ hentry, hid, hl⟩
  · rw [h.tokenTransactions_eq, h'.tokenTransactions_eq, List.filter_append, List.map_append]
    exact List.prefix_append _ _

/-- Every entry has a proof. -/
theorem Books.getProof_isSome (h : Books P journal s) {entry : Entry} (hentry : entry ∈ journal) :
    (getProof P s entry.tx.txId).isSome := by
  have hfind : (s.leaves.findIdx? (·.txId = entry.tx.txId)).isSome := by
    rw [List.findIdx?_isSome, List.any_eq_true, h.leaves]
    exact ⟨leafOf P entry.tx, List.mem_map.mpr ⟨entry, hentry, rfl⟩, by simp [leafOf]⟩
  obtain ⟨i, hi⟩ := Option.isSome_iff_exists.mp hfind
  rw [getProof, hi]
  rfl

end Wayfinder.Service.Ledger

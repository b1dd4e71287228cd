import Wayfinder.Js.Map
import Wayfinder.Js.Stringify
import Wayfinder.Service.Crypto

/-! `ledger.ts`: the transaction log, the state-commitment chain and the Merkle proofs.

Fields whose type has one value only (`@type`, `status`, `proofProfile`, `proofStatus`,
`verification`) are left out of the records. A function that draws takes the index `n`
of its first draw and makes its draws in the order of the source. -/
namespace Wayfinder.Service.Ledger

open Js Crypto

/-! ### Records -/

structure StateReference where
  stateCommitment : Str
  previousCommitment : Option Str := none
  lastTxId : Option Str := none
  stateVersion : Option Nat := none

inductive Operation where
  | mint
  | transfer
deriving DecidableEq

def Operation.text : Operation → Str
  | .mint => lit "mint"
  | .transfer => lit "transfer"

inductive Role where
  | sender
  | receiver

structure Amount where
  amount : Str
  unit : Str

structure Participant where
  accountId : Str
  role : Role

/-- A state change of one token. -/
structure TokenTransaction where
  tokenTxId : Str
  txId : Str
  tokenId : Str
  operation : Operation
  fromAccount : Option Str := none
  toAccount : Option Str := none
  amount : Option Amount := none
  participants : List Participant
  stateBefore : Option StateReference := none
  stateAfter : StateReference
  timestamp : Str

structure TokenTransactionRef where
  tokenTxId : Str
  tokenId : Str
  operation : Operation

structure Timestamps where
  submitted : Str
  started : Str
  completed : Str
  finalized : Str

structure Anchor where
  chain : Str
  network : Str
  txHash : Str
  timestamp : Str

/-- The business transaction around one token transaction. -/
structure TransactionLog where
  txId : Str
  initiator : Str
  tokenTransactions : List TokenTransactionRef
  timestamps : Timestamps
  proofId : Str
  ledgerAnchors : List Anchor

inductive Direction where
  | left
  | right
deriving DecidableEq

structure ProofPathNode where
  hash : Str
  direction : Direction

structure ProofDetails where
  txId : Str
  leafHash : Str
  merkleRoot : Str
  proofPath : List ProofPathNode
  leafIndex : Nat

structure Leaf where
  txId : Str
  leafHash : Str

/-! ### Storage -/

structure State where
  txLogs : JsMap Str TransactionLog
  tokenTxById : JsMap Str TokenTransaction
  /-- The `tokenTxId`s of each token, oldest first. -/
  historyByToken : JsMap Str (List Str)
  leaves : List Leaf

def State.empty : State := ⟨.empty, .empty, .empty, []⟩

/-! ### Hashing -/

variable (P : Primitives) (E : Env)

def canonical (value : Json) : Str := stableText value

def hashPair (left right : Str) : Str := sha256Hex P (left ++ right)

structure CommitmentInput where
  previousCommitment : Str
  txId : Str
  tokenId : Str
  ownerDid : Str
  claimsDigest : Str
  timestamp : Str

def CommitmentInput.toJson (input : CommitmentInput) : Json :=
  .obj [(lit "previousCommitment", .str input.previousCommitment), (lit "txId", .str input.txId),
    (lit "tokenId", .str input.tokenId), (lit "ownerDid", .str input.ownerDid),
    (lit "claimsDigest", .str input.claimsDigest), (lit "timestamp", .str input.timestamp)]

/-- The commitment to a new state, over the commitment to the previous one. -/
def nextCommitment (input : CommitmentInput) : Str := sha256Hex P (canonical input.toJson)

def claimsDigest (claims : Option (List Json)) : Str :=
  sha256Hex P (canonical (.arr (claims.getD [])))

/-- Appends a leaf; its hash and its index. -/
def addLeaf (s : State) (txId : Str) (leafData : Json) : State × Str × Nat :=
  let leafHash := sha256Hex P (canonical leafData)
  ({ s with leaves := s.leaves ++ [⟨txId, leafHash⟩] }, leafHash, s.leaves.length)

/-! ### Recording -/

def anchorNow (n : Nat) : Anchor :=
  { chain := lit "wayfinder-standin"
    network := lit "devnet"
    txHash := lit "0x" ++ sha256Hex P (lit "anchor-" ++ E.uuid n)
    timestamp := E.now (n + 1) }

/-- The log of a token transaction. -/
def newLog (n : Nat) (txId initiator : Str) (tokenTx : TokenTransaction) : TransactionLog :=
  let now := E.now n
  { txId
    initiator
    tokenTransactions := [⟨tokenTx.tokenTxId, tokenTx.tokenId, tokenTx.operation⟩]
    timestamps := ⟨now, now, now, now⟩
    proofId := lit "urn:uuid:proof-" ++ E.uuid (n + 1)
    ledgerAnchors := [anchorNow P E (n + 2)] }

def buildLog (n : Nat) (s : State) (txId initiator : Str) (tokenTx : TokenTransaction) :
    State × TransactionLog :=
  let log := newLog P E n txId initiator tokenTx
  let hist := (s.historyByToken.get tokenTx.tokenId).getD []
  ({ s with
    txLogs := s.txLogs.set txId log
    tokenTxById := s.tokenTxById.set tokenTx.tokenTxId tokenTx
    historyByToken := s.historyByToken.set tokenTx.tokenId (hist ++ [tokenTx.tokenTxId]) }, log)

structure MintRecord where
  tokenId : Str
  ownerDid : Str
  claimsDigest : Str

structure TransferRecord where
  tokenId : Str
  fromDid : Str
  toDid : Str
  previousCommitment : Str
  claimsDigest : Str

structure Recorded where
  txId : Str
  stateCommitment : Str

/-- The transaction of a mint. -/
def mintTransaction (n : Nat) (input : MintRecord) : TokenTransaction :=
  let txId := E.uuid n
  let now := E.now (n + 1)
  let stateCommitment := nextCommitment P
    { previousCommitment := [], txId, tokenId := input.tokenId, ownerDid := input.ownerDid
      claimsDigest := input.claimsDigest, timestamp := now }
  { tokenTxId := lit "urn:uuid:tokentx-" ++ E.uuid (n + 2)
    txId := lit "urn:uuid:tx-" ++ txId
    tokenId := input.tokenId
    operation := .mint
    toAccount := some input.ownerDid
    participants := [⟨input.ownerDid, .receiver⟩]
    stateAfter := { stateCommitment, stateVersion := some 1 }
    timestamp := now }

def recordMint (n : Nat) (s : State) (input : MintRecord) : State × Recorded :=
  let tokenTx := mintTransaction P E n input
  let s := (buildLog P E (n + 3) s tokenTx.txId input.ownerDid tokenTx).1
  let s := (addLeaf P s tokenTx.txId (.obj [(lit "txId", .str tokenTx.txId),
    (lit "operation", .str (lit "mint")), (lit "tokenId", .str input.tokenId), (lit "stateAfter",
      .str tokenTx.stateAfter.stateCommitment), (lit "timestamp", .str tokenTx.timestamp)])).1
  (s, ⟨tokenTx.txId, tokenTx.stateAfter.stateCommitment⟩)

/-- The transaction of a transfer. -/
def transferTransaction (n : Nat) (input : TransferRecord) : TokenTransaction :=
  let txId := E.uuid n
  let now := E.now (n + 1)
  let stateCommitment := nextCommitment P
    { previousCommitment := input.previousCommitment, txId, tokenId := input.tokenId,
      ownerDid := input.toDid
      claimsDigest := input.claimsDigest, timestamp := now }
  let fullTxId := lit "urn:uuid:tx-" ++ txId
  { tokenTxId := lit "urn:uuid:tokentx-" ++ E.uuid (n + 2)
    txId := fullTxId
    tokenId := input.tokenId
    operation := .transfer
    fromAccount := some input.fromDid
    toAccount := some input.toDid
    amount := some ⟨lit "1", lit "token"⟩
    participants := [⟨input.fromDid, .sender⟩, ⟨input.toDid, .receiver⟩]
    stateBefore := some { stateCommitment := input.previousCommitment }
    stateAfter :=
      { stateCommitment, previousCommitment := some input.previousCommitment,
        lastTxId := some fullTxId
        stateVersion := some 2 }
    timestamp := now }

def recordTransfer (n : Nat) (s : State) (input : TransferRecord) : State × Recorded :=
  let tokenTx := transferTransaction P E n input
  let s := (buildLog P E (n + 3) s tokenTx.txId input.fromDid tokenTx).1
  let s := (addLeaf P s tokenTx.txId (.obj [(lit "txId", .str tokenTx.txId),
    (lit "operation", .str (lit "transfer")), (lit "tokenId", .str input.tokenId),
    (lit "stateBefore", .str input.previousCommitment), (lit "stateAfter",
      .str tokenTx.stateAfter.stateCommitment), (lit "timestamp", .str tokenTx.timestamp)])).1
  (s, ⟨tokenTx.txId, tokenTx.stateAfter.stateCommitment⟩)

/-- How many draws a record makes: three of its own, two of its log and two of the anchor. -/
def recordDraws : Nat := 7

/-! ### Queries -/

def getTransaction (s : State) (txId : Str) : Option TransactionLog := s.txLogs.get txId

def tokenTransactions (s : State) (tokenId : Str) : List TokenTransaction :=
  ((s.historyByToken.get tokenId).getD []).filterMap s.tokenTxById.get

/-! ### Merkle proofs -/

/-- The level above a level: the hash of each two neighbours, the last doubled when it
has none. -/
def nextLevel (cur : List Str) : List Str :=
  (List.range ((cur.length + 1) / 2)).map fun k =>
    let i := 2 * k
    let left := cur.getD i []
    let right := if i + 1 < cur.length then cur.getD (i + 1) [] else cur.getD i []
    hashPair P left right

@[simp] theorem nextLevel_length (cur : List Str) :
    (nextLevel P cur).length = (cur.length + 1) / 2 := by
  simp [nextLevel]

/-- The loop that pushes level after level. -/
def pushLevels (levels : List (List Str)) (cur : List Str) : List (List Str) :=
  if 1 < cur.length then pushLevels (levels ++ [nextLevel P cur]) (nextLevel P cur) else levels
termination_by cur.length
decreasing_by
  rw [nextLevel_length]
  omega

def merkleLevels (hashes : List Str) : List (List Str) :=
  if hashes.length = 0 then [[[]]] else pushLevels P [hashes] hashes

/-- `levels[levels.length - 1]![0]!` -/
def rootOf (levels : List (List Str)) : Str := (levels.getLastD []).getD 0 []

/-- The root of the tree over the leaves. -/
def merkleRoot (s : State) : Str := rootOf (merkleLevels P (s.leaves.map Leaf.leafHash))

/-- The loop over the levels below the root, from a position of the first. -/
def pathFrom (idx : Nat) : List (List Str) → List ProofPathNode
  | [] => []
  | level :: above =>
    let isRight := idx % 2 = 1
    let sibIdx := if isRight then idx - 1 else idx + 1
    let sibling := if sibIdx < level.length then level.getD sibIdx [] else level.getD idx []
    ⟨sibling, if isRight then .left else .right⟩ :: pathFrom (idx / 2) above

def getProof (s : State) (txId : Str) : Option ProofDetails :=
  match s.leaves.findIdx? (·.txId = txId) with
  | none => none
  | some leafIndex =>
    let levels := merkleLevels P (s.leaves.map Leaf.leafHash)
    some
      { txId
        leafHash := (s.leaves.map Leaf.leafHash).getD leafIndex []
        merkleRoot := rootOf levels
        proofPath := pathFrom leafIndex levels.dropLast
        leafIndex }

end Wayfinder.Service.Ledger

import Wayfinder.Service.Ledger
import Wayfinder.Service.TokenClasses
import Wayfinder.Service.TokenSchema

/-! `tokens.ts`: minting, the compliance hook, and transfers.

A token holds the verifiable credentials that it was minted with. The service's store
and the token share the object; nothing writes to it after it is signed, so it is a value
here. The ledger is a second state that minting and transferring pass on. -/
namespace Wayfinder.Service.Tokens

open Js Credentials TokenClasses

variable (P : Primitives) (E : Env)

/-! ### Tokens -/

structure Flags where
  transferable : Bool
  transactable : Bool
  locked : Bool
  revocable : Bool

/-- `name`, `symbol` and `decimals` come from open objects, so they are any value until
the schema is checked. -/
structure Metadata where
  tokenStandard : Str
  name : Json
  symbol : Json
  decimals : Json
  fungibility : Str
  tokenClass : Str
  status : Str
  flags : Flags
  createdAt : Str
  updatedAt : Str

structure Supply where
  totalSupply : Str
  circulatingSupply : Str

structure TokenState where
  status : Str
  effectiveFrom : Str
  supply : Supply
  stateCommitment : Option Str := none

structure TokenInstance where
  context : Str
  type : Str
  id : Str
  metadata : Metadata
  data : Fields
  claims : Option (List Vc)
  identities : List Identity
  state : TokenState

def Flags.toJson (flags : Flags) : Json :=
  .obj [(lit "transferable", .bool flags.transferable),
    (lit "transactable", .bool flags.transactable),
    (lit "locked", .bool flags.locked), (lit "revocable", .bool flags.revocable)]

def Metadata.toJson (metadata : Metadata) : Json :=
  .obj [(lit "tokenStandard", .str metadata.tokenStandard), (lit "name", metadata.name),
    (lit "symbol", metadata.symbol), (lit "decimals", metadata.decimals),
    (lit "fungibility", .str metadata.fungibility), (lit "tokenClass", .str metadata.tokenClass),
    (lit "status", .str metadata.status), (lit "flags", metadata.flags.toJson),
    (lit "createdAt", .str metadata.createdAt), (lit "updatedAt", .str metadata.updatedAt)]

def TokenState.toJson (state : TokenState) : Json :=
  .obj ([(lit "status", .str state.status), (lit "effectiveFrom", .str state.effectiveFrom),
    (lit "supply", .obj [(lit "totalSupply", .str state.supply.totalSupply),
      (lit "circulatingSupply", .str state.supply.circulatingSupply)])] ++
    state.stateCommitment.toList.map fun c => (lit "stateCommitment", .str c))

def TokenInstance.fields (token : TokenInstance) : Fields :=
  [(lit "@context", .str token.context), (lit "@type", .str token.type), (lit "id", .str token.id),
    (lit "metadata", token.metadata.toJson), (lit "data", .obj token.data)] ++
    (token.claims.toList.map fun claims => (lit "claims", .arr (claims.map Vc.toJson))) ++
    [(lit "identities", .arr (token.identities.map Identity.toJson)),
      (lit "state", token.state.toJson)]

def TokenInstance.toJson (token : TokenInstance) : Json := .obj token.fields

structure State where
  byId : JsMap Str TokenInstance
  /-- Owner DID to token ids. -/
  ownerToIds : JsMap Str (JsSet Str)

def State.empty : State := ⟨.empty, .empty⟩

/-- Adds a token to the set of an owner, which is made when it is not there. -/
def addTo (index : JsMap Str (JsSet Str)) (ownerDid tokenId : Str) : JsMap Str (JsSet Str) :=
  index.set ownerDid (((index.get ownerDid).getD .empty).add tokenId)

/-- Takes a token out of the set of an owner, if there is one. -/
def removeFrom (index : JsMap Str (JsSet Str)) (ownerDid tokenId : Str) : JsMap Str (JsSet Str) :=
  match index.get ownerDid with
  | none => index
  | some ids => index.set ownerDid (ids.delete tokenId)

/-- The digest of what a token carries. -/
def claimsDigestOf (token : TokenInstance) : Str :=
  Ledger.claimsDigest P (token.claims.map fun claims => claims.map Vc.toJson)

/-! ### Minting -/

structure MintInput where
  tokenClass : Str
  ownerDid : Str
  initialSupply : Str
  name : Option Json := none
  data : Option Fields := none

inductive MintCode where
  | classNotFound
  | complianceCheckFailed
deriving DecidableEq

def MintCode.text : MintCode → Str
  | .classNotFound => lit "CLASS_NOT_FOUND"
  | .complianceCheckFailed => lit "COMPLIANCE_CHECK_FAILED"

/-- What minting answers, with the draw that comes next: the token, and the token store and
the ledger after it, or a refusal. -/
inductive MintResult where
  | ok (tokens : State) (ledger : Ledger.State) (token : TokenInstance) (next : Nat)
  | refused (code : MintCode) (message : Str) (next : Nat)

/-- What the compliance hook decides, with the draw that comes next. -/
inductive Gate where
  | passed (claim : Option Vc) (next : Nat)
  | refused (next : Nat)

/-- The compliance hook: a class that requires KYC asks the owner for a valid credential,
and keeps its first claim. -/
def complianceHook (n : Nat) (credentials : Credentials.State) (tc : TokenClass) (ownerDid : Str) :
    Except Thrown Gate :=
  if tc.requiresKYC then do
    match ← validCredentialFor P E n credentials ownerDid with
    | (none, next) => return .refused next
    | (some credential, next) => return .passed credential.claims.head? next
  else .ok (.passed none n)

/-- The token before it is recorded, from the draws `n` and `n + 1`. -/
def newToken (n : Nat) (tc : TokenClass) (claim : Option Vc) (input : MintInput) : TokenInstance :=
  let now := E.now n
  { context := lit "https://finternet-io.github.io/specs/schemas/token/v1/context.jsonld"
    type := lit "Token"
    id := lit "urn:uuid:token-" ++ E.uuid (n + 1)
    metadata :=
      { tokenStandard := tc.tokenStandard
        name := orElse input.name (.str tc.name)
        symbol := orElse (getField tc.metadata (lit "symbol")) (.str (lit "TKN"))
        decimals := orElse (getField tc.metadata (lit "decimals")) (.num .zero)
        fungibility :=
          if truthy (getField tc.metadata (lit "fungible")) then lit "fungible"
            else lit "nonFungible"
        tokenClass := tc.tokenClass
        status := lit "active"
        flags := { transferable := true, transactable := true, locked := false, revocable := false }
        createdAt := now
        updatedAt := now }
    data := input.data.getD []
    claims := claim.map fun vc => [vc]
    identities :=
      [⟨(tc.identities.head?.map ClassIdentity.id).getD (issuerInfo P E).did, lit "issuer"⟩,
        ⟨input.ownerDid, lit "owner"⟩]
    state :=
      { status := lit "active", effectiveFrom := now
        supply := ⟨input.initialSupply, input.initialSupply⟩ } }

def validateToken (token : Json) : Bool :=
  Schema.validate P.validFormat TokenSchema.tokenSchema token

def TokenInstance.withCommitment (token : TokenInstance) (stateCommitment : Str) : TokenInstance :=
  { token with state := { token.state with stateCommitment := some stateCommitment } }

/-- Stores a token and records its mint from the draw `n` on; the token's state then holds
the opening commitment. -/
def storeMinted (n : Nat) (s : State) (ledger : Ledger.State) (ownerDid : Str)
    (token : TokenInstance) :
    State × Ledger.State × TokenInstance :=
  let (ledger, recorded) :=
    Ledger.recordMint P E n ledger ⟨token.id, ownerDid, claimsDigestOf P token⟩
  let token := token.withCommitment recorded.stateCommitment
  (⟨s.byId.set token.id token, addTo s.ownerToIds ownerDid token.id⟩, ledger, token)

def mintToken (n : Nat) (credentials : Credentials.State) (classes : TokenClasses.State) (s : State)
    (ledger : Ledger.State) (input : MintInput) : Except Thrown MintResult := do
  match getTokenClass classes input.tokenClass with
  | none =>
    return .refused .classNotFound (lit "Unknown token class '" ++ input.tokenClass ++ lit "'") n
  | some tc =>
    match ← complianceHook P E n credentials tc input.ownerDid with
    | .refused next =>
      return .refused .complianceCheckFailed (lit "Minting a '" ++ tc.tokenClass ++
        lit "' token requires a valid KYC credential; " ++ lit "holder " ++ input.ownerDid ++
        lit " holds none. Issue (and don't revoke) a credential first.") next
    | .passed claim n =>
      let token := newToken P E n tc claim input
      if validateToken P token.toJson then
        let (s, ledger, token) := storeMinted P E (n + 2) s ledger input.ownerDid token
        return .ok s ledger token (n + 2 + Ledger.recordDraws)
      else
        throw (.error (lit "minted token failed schema validation: " ++
          P.errorsText TokenSchema.tokenSchema token.toJson))

/-! ### Queries -/

def getToken (s : State) (id : Str) : Option TokenInstance := s.byId.get id

def tokensForOwner (s : State) (ownerDid : Str) : List TokenInstance :=
  match s.ownerToIds.get ownerDid with
  | none => []
  | some ids => ids.items.filterMap s.byId.get

/-! ### Transferring -/

/-- `identities.find((i) => i.type === 'owner')` -/
def TokenInstance.ownerIdent (token : TokenInstance) : Option Identity :=
  token.identities.find? (·.type == lit "owner")

/-- Writes the DID of the first owner identity. -/
def setOwner (toDid : Str) : List Identity → List Identity
  | [] => []
  | i :: rest => if i.type == lit "owner" then ⟨toDid, i.type⟩ :: rest else i :: setOwner toDid rest

structure TransferInput where
  /-- Not required by the schema of the request. -/
  tokenId : Option Str
  fromDid : Str
  toDid : Str

inductive TransferCode where
  | tokenNotFound
  | notOwner
deriving DecidableEq

def TransferCode.text : TransferCode → Str
  | .tokenNotFound => lit "TOKEN_NOT_FOUND"
  | .notOwner => lit "NOT_OWNER"

inductive TransferResult where
  | ok (tokens : State) (ledger : Ledger.State) (txId : Str) (token : TokenInstance)
  | refused (code : TransferCode) (message : Str)

/-- How many draws a transfer makes: the record's, and the time of the update. -/
def transferDraws : Nat := Ledger.recordDraws + 1

/-- The token in new hands. -/
def TokenInstance.movedTo (token : TokenInstance)
    (toDid stateCommitment now : Str) : TokenInstance :=
  { token with
    identities := setOwner toDid token.identities
    state := { token.state with stateCommitment := some stateCommitment }
    metadata := { token.metadata with updatedAt := now } }

/-- Moves a token that the sender owns: records the transfer and writes the owner, the
commitment and the index. -/
def moveToken (n : Nat) (s : State) (ledger : Ledger.State) (id : Str) (token : TokenInstance)
    (fromDid toDid : Str) : State × Ledger.State × Str × TokenInstance :=
  let (ledger, recorded) := Ledger.recordTransfer P E n ledger
    ⟨token.id, fromDid, toDid, token.state.stateCommitment.getD [], claimsDigestOf P token⟩
  let moved := token.movedTo toDid recorded.stateCommitment (E.now (n + Ledger.recordDraws))
  (⟨s.byId.set id moved, addTo (removeFrom s.ownerToIds fromDid token.id) toDid token.id⟩, ledger,
    recorded.txId, moved)

def transferToken (n : Nat) (s : State) (ledger : Ledger.State)
    (input : TransferInput) : TransferResult :=
  let shown := input.tokenId.getD (lit "undefined")
  match input.tokenId.bind fun id => (s.byId.get id).map fun token => (id, token) with
  | none => .refused .tokenNotFound (lit "No token '" ++ shown ++ lit "'")
  | some (id, token) =>
    if token.ownerIdent.map Identity.id ≠ some input.fromDid then
      .refused .notOwner (lit "Caller does not own token '" ++ shown ++ lit "'")
    else
      let (s, ledger, txId, token) := moveToken P E n s ledger id token input.fromDid input.toDid
      .ok s ledger txId token

end Wayfinder.Service.Tokens

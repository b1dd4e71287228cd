import Wayfinder.Js.Map
import Wayfinder.Js.Stringify
import Wayfinder.Service.Crypto
import Wayfinder.Service.CredentialSchema

/-! `credentials.ts`: issuing, verifying and revoking credentials.

What the service issues has a type of its own; what a client presents is any JSON
value, and `verifyCredential` reads it as it comes. The two meet in `toJson`. -/
namespace Wayfinder.Service.Credentials

open Js Crypto

variable (P : Primitives) (E : Env)

/-! ### The issuer -/

/-- The keys of the issuer are the first draw of the service. -/
def issuerKeys : Keypair := generateKeypair P E 0

structure IssuerInfo where
  did : Str
  name : Str

def issuerInfo : IssuerInfo :=
  ⟨(didKeyFromPublicKey P (issuerKeys P E).publicKey).did, lit "Wayfinder KYC (stand-in issuer)"⟩

def issuerVerificationMethod : Str := (issuerInfo P E).did ++ lit "#key-1"

/-! ### Credentials -/

structure VcProof where
  type : Str
  created : Str
  verificationMethod : Str
  proofPurpose : Str
  proofValue : Str

def VcProof.toJson (proof : VcProof) : Json :=
  .obj [(lit "type", .str proof.type), (lit "created", .str proof.created),
    (lit "verificationMethod", .str proof.verificationMethod),
    (lit "proofPurpose", .str proof.proofPurpose), (lit "proofValue", .str proof.proofValue)]

/-- A verifiable credential. -/
structure Vc where
  id : Str
  context : List Str
  type : List Str
  issuer : Str
  issuanceDate : Str
  validFrom : Str
  validUntil : Str
  credentialSubject : Fields
  credentialStatus : Fields
  credentialSchema : Fields
  proof : Option VcProof := none

/-- The fields but the proof. -/
def Vc.claimFields (vc : Vc) : Fields :=
  [(lit "id", .str vc.id), (lit "@context", .arr (vc.context.map .str)),
    (lit "type", .arr (vc.type.map .str)),
    (lit "issuer", .str vc.issuer), (lit "issuanceDate", .str vc.issuanceDate),
    (lit "validFrom", .str vc.validFrom), (lit "validUntil", .str vc.validUntil),
    (lit "credentialSubject", .obj vc.credentialSubject),
    (lit "credentialStatus", .obj vc.credentialStatus),
    (lit "credentialSchema", .obj vc.credentialSchema)]

def Vc.fields (vc : Vc) : Fields :=
  vc.claimFields ++ vc.proof.toList.map fun proof => (lit "proof", proof.toJson)

def Vc.toJson (vc : Vc) : Json := .obj vc.fields

structure Identity where
  id : Str
  type : Str

def Identity.toJson (identity : Identity) : Json :=
  .obj [(lit "id", .str identity.id), (lit "type", .str identity.type)]

/-- A credential token: the wrapper around a verifiable credential. -/
structure CredentialToken where
  context : Str
  type : Str
  id : Str
  metadata : Fields
  claims : List Vc
  identities : List Identity
  state : Fields

def CredentialToken.toJson (credential : CredentialToken) : Json :=
  .obj [(lit "@context", .str credential.context), (lit "@type", .str credential.type),
    (lit "id", .str credential.id), (lit "metadata", .obj credential.metadata),
    (lit "claims", .arr (credential.claims.map Vc.toJson)),
    (lit "identities", .arr (credential.identities.map Identity.toJson)),
    (lit "state", .obj credential.state)]

/-- The credentials by id, in the order of issuance. -/
abbrev State := JsMap Str CredentialToken

/-! ### Signing -/

def canonical (value : Json) : Str := stableText value

/-- The hash that the issuer signs: of the credential without its `proof`. -/
def vcSigningHash (vc : Json) : Str :=
  sha256Hex P (canonical (.obj (dropField vc.spread (lit "proof"))))

def issuerPublicKeyFor (verificationMethod : Str) : Except Thrown Bytes :=
  let did := splitHead verificationMethod 35
  let multibase := removeFirst (lit "did:key:") did
  publicKeyFromMultibase P multibase

def validateCredential (credential : Json) : Bool :=
  Schema.validate P.validFormat CredentialSchema.credentialSchema credential

/-! ### Issuing -/

structure IssueInput where
  holderDid : Str
  credentialType : Option Json := none
  verificationLevel : Option Json := none
  subject : Option Json := none

/-- The credential before it is signed, from the draws `n` to `n + 3`. -/
def unsignedVc (n : Nat) (input : IssueInput) : Vc :=
  let now := E.now n
  { id := lit "urn:uuid:vc-" ++ E.uuid (n + 3)
    context := [lit "https://www.w3.org/2018/credentials/v1",
      lit "https://finternet-io.github.io/specs/schemas/credential/v1/context.jsonld"]
    type := [lit "VerifiableCredential", lit "KYCCredential", lit "IdentityCredential"]
    issuer := (issuerInfo P E).did
    issuanceDate := now
    validFrom := now
    validUntil := Date.toISOString (E.clock (n + 1) + oneYear)
    credentialSubject :=
      assignFields [(lit "id", .str input.holderDid)] ((orElse input.subject (.obj [])).spread)
    credentialStatus :=
      [(lit "id",
        .str (lit "urn:finternet:standin:status:" ++ (lit "urn:uuid:cred-" ++ E.uuid (n + 2)))),
        (lit "type", .str (lit "StatusList2021Entry")),
        (lit "statusPurpose", .str (lit "revocation")), (lit "statusListIndex", .str (lit "0")),
        (lit "statusListCredential", .str (lit "urn:finternet:standin:status-list"))]
    credentialSchema :=
      [(lit "id", .str (lit
          "https://finternet-io.github.io/specs/schemas/credential/v1/credential.schema.json")),
        (lit "type", .str (lit "JsonSchema"))] }

/-- The proof that the issuer puts on a credential. -/
def proofOf (n : Nat) (proofValue : Str) : VcProof :=
  { type := lit "Ed25519Signature2020"
    created := E.now n
    verificationMethod := issuerVerificationMethod P E
    proofPurpose := lit "assertionMethod"
    proofValue }

/-- The credential token around a signed credential. -/
def wrap (n : Nat) (input : IssueInput) (levelText : Str) (vc : Vc) : CredentialToken :=
  let now := E.now n
  let oneYear := Date.toISOString (E.clock (n + 1) + oneYear)
  { context := lit "https://finternet-io.github.io/specs/schemas/credential/v1/context.jsonld"
    type := lit "CredentialToken"
    id := lit "urn:uuid:cred-" ++ E.uuid (n + 2)
    metadata :=
      [(lit "tokenStandard", .arr [.str (lit "UNITS-SBT"), .str (lit "W3C-VC-2.0")]),
        (lit "name", .str (lit "KYC Verification (" ++ levelText ++ lit ")")),
        (lit "symbol", .str (lit "KYC")), (lit "fungibility", .str (lit "nonFungible")),
        (lit "decimals", .num .zero),
        (lit "credentialType", orElse input.credentialType (.str (lit "kycVerification"))),
        (lit "verificationLevel", orElse input.verificationLevel (.str (lit "enhanced"))),
        (lit "status", .str (lit "active")),
        (lit "flags", .obj [(lit "transferable", .bool false), (lit "divisible", .bool false),
          (lit "revocable", .bool true), (lit "burnable", .bool false)]),
        (lit "createdAt", .str now), (lit "updatedAt", .str now)]
    claims := [vc]
    identities :=
      [⟨(issuerInfo P E).did, lit "issuer"⟩, ⟨input.holderDid, lit "subject"⟩,
        ⟨input.holderDid, lit "holder"⟩]
    state :=
      [(lit "status", .str (lit "active")), (lit "balance", .str (lit "1")),
        (lit "effectiveFrom", .str now), (lit "effectiveUntil", .str oneYear)] }

def issueCredential (n : Nat) (s : State) (input : IssueInput) :
    Except Thrown (State × CredentialToken) := do
  let vc := unsignedVc P E n input
  let proofValue ← signHashHex P (issuerKeys P E).privateKey (vcSigningHash P vc.toJson)
  let levelText ← toText (orElse input.verificationLevel (.str (lit "enhanced")))
  let credential := wrap P E n input levelText { vc with proof := some (proofOf P E n proofValue) }
  if validateCredential P credential.toJson then
    return (s.set credential.id credential, credential)
  else
    throw (.error (lit "issued credential failed schema validation: " ++
      P.errorsText CredentialSchema.credentialSchema credential.toJson))

/-- How many draws an issuance makes. -/
def issueDraws : Nat := 4

/-! ### Verifying -/

structure Checks where
  schemaValid : Bool
  signatureValid : Bool
  notRevoked : Bool
  notExpired : Bool

def Checks.valid (checks : Checks) : Bool :=
  checks.schemaValid && checks.signatureValid && checks.notRevoked && checks.notExpired

structure VerificationResult where
  valid : Bool
  checks : Checks
  issuer : Json
  reason : Option Str

/-- Whether the signature in `proof` verifies. What is not a string has no `split` and
is no hex: both throw, and what is thrown is caught. -/
def verifyVcSignature (vc : Json) : Bool :=
  let proof := vc.prop (lit "proof")
  if !truthy proof then false
  else
    match readProp? proof (lit "verificationMethod"), readProp? proof (lit "proofValue") with
    | some (.str verificationMethod), some (.str proofValue) =>
      match issuerPublicKeyFor P verificationMethod with
      | .ok pub => verifyHashHex P pub (vcSigningHash P vc) proofValue
      | .error _ => false
    | _, _ => false

/-- `store.get(id)`: the keys of the store are strings. -/
def getCredential (s : State) (id : Option Json) : Option CredentialToken :=
  match id with
  | some (.str id) => s.get id
  | _ => none

/-- `Date.now() < until`, where a credential that names no instant never ends. -/
def beforeEnd (n : Nat) (validUntil : Option Json) : Except Thrown Bool :=
  if truthy validUntil then do
    let text ← toText? validUntil
    return match P.dateParse text with
      | none => false
      | some instant => E.clock n < instant
  else .ok true

/-- The status that counts: the store's where it knows the id, else the presented one. -/
def statusOf (s : State) (credential : Json) : Except Thrown (Option Json) :=
  match getCredential s (credential.prop (lit "id")) with
  | some stored => .ok (getField stored.state (lit "status"))
  | none => readProp (credential.prop (lit "state")) (lit "status")

def reasonOf (checks : Checks) : Option Str :=
  if checks.valid then none
  else if !checks.signatureValid then
    some (lit "issuer signature does not verify (credential tampered or wrong issuer)")
  else if !checks.notRevoked then some (lit "credential has been revoked by the issuer")
  else if !checks.notExpired then some (lit "credential has expired")
  else some (lit "credential failed schema validation")

/-- `status !== 'revoked'` -/
def isRevoked (status : Option Json) : Bool :=
  match status with
  | some (.str s) => s == lit "revoked"
  | _ => false

/-- The verdict on a presented credential; the clock is read at the draw `n`. -/
def verifyCredential (n : Nat) (s : State) (credential : Json) :
    Except Thrown VerificationResult := do
  let vc ← readFirst (credential.prop (lit "claims"))
  let schemaValid := validateCredential P credential
  let signatureValid := match vc with
    | some vc => vc.truthy && verifyVcSignature P vc
    | none => false
  let status ← statusOf s credential
  let notExpired ← beforeEnd P E n (readProp? vc (lit "validUntil"))
  let checks : Checks := ⟨schemaValid, signatureValid, !isRevoked status, notExpired⟩
  return {
    valid := checks.valid
    checks
    issuer := orElse (readProp? vc (lit "issuer")) (.str (issuerInfo P E).did)
    reason := reasonOf checks }

/-! ### Holding and revoking -/

/-- Whether a DID is the holder of a credential. -/
def CredentialToken.heldBy (credential : CredentialToken) (holderDid : Str) : Bool :=
  credential.identities.any fun i => i.type == lit "holder" && i.id == holderDid

def credentialsForHolder (s : State) (holderDid : Str) : List CredentialToken :=
  s.values.filter (·.heldBy holderDid)

/-- `find`: the first credential that verifies, and the next draw. Each verification
reads the clock anew. -/
def findValid (n : Nat) (s : State) :
    List CredentialToken → Except Thrown (Option CredentialToken × Nat)
  | [] => .ok (none, n)
  | credential :: rest => do
    let result ← verifyCredential P E n s credential.toJson
    if result.valid then return (some credential, n + 1) else findValid (n + 1) s rest

def validCredentialFor (n : Nat) (s : State) (holderDid : Str) :
    Except Thrown (Option CredentialToken × Nat) :=
  findValid P E n s (credentialsForHolder s holderDid)

/-- The credential once revoked. -/
def CredentialToken.revoked (credential : CredentialToken) : CredentialToken :=
  { credential with
    state := setField credential.state (lit "status") (.str (lit "revoked"))
    metadata := setField credential.metadata (lit "status") (.str (lit "deprecated")) }

def revokeCredential (s : State) (id : Option Json) : Option (State × CredentialToken) :=
  match id with
  | some (.str id) =>
    match s.get id with
    | none => none
    | some credential => some (s.set id credential.revoked, credential.revoked)
  | _ => none

end Wayfinder.Service.Credentials

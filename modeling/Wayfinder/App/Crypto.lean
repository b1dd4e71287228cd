import Wayfinder.Service.Ledger

/-! `crypto.ts` of the browser: what verifies without the server.

The functions are the browser's own, written apart from the service's. -/
namespace Wayfinder.App.Crypto

open Js Service.Ledger

variable (P : Primitives)

/-- SHA-256 of the UTF-8 text, in hex. -/
def sha256Hex (message : Str) : Str := bytesToHex (P.sha256 (utf8Encode message))

/-- The public key of a multibase text. -/
def publicKeyFromMultibase (publicKeyMultibase : Str) : Except Thrown Bytes :=
  if !startsWith publicKeyMultibase (lit "z") then
    .error (.error (lit "expected base58btc multibase starting with \"z\""))
  else
    match P.base58Decode (slice publicKeyMultibase 1) with
    | none => .error .library
    | some decoded =>
      if decoded[0]? ≠ some 0xed ∨ decoded[1]? ≠ some 0x01 then
        .error (.error (lit "not an Ed25519 multicodec public key"))
      else .ok (decoded.drop 2)

/-- Whether a signature of a hash verifies; malformed hex does not. -/
def verifyHashHex (publicKey : Bytes) (hashHex signatureHex : Str) : Bool :=
  match hexToBytes signatureHex, hexToBytes hashHex with
  | some signature, some hash => P.ed25519Verify signature hash publicKey
  | _, _ => false

/-- The multibase form of the key of a `did:key`. -/
def multibaseFromDid (did : Str) : Str :=
  if startsWith did (lit "did:key:") then slice did (lit "did:key:").length else did

/-- The text that the issuer signed the hash of. -/
def canonicalJson (value : Json) : Str := stableText value

/-- Whether the issuer's signature of a claim verifies, from the claim alone. -/
def verifyEmbeddedCredential (claim : Fields) : Bool :=
  let proof := getField claim (lit "proof")
  let withoutProof := dropField claim (lit "proof")
  if !truthy (readProp? proof (lit "verificationMethod")) || !truthy
    (readProp? proof (lit "proofValue")) then
    false
  else
    -- what is not a string has no `split` and is no hex; both throw and are caught
    match readProp? proof (lit "verificationMethod"), readProp? proof (lit "proofValue") with
    | some (.str verificationMethod), some (.str proofValue) =>
      let did := splitHead verificationMethod 35
      match publicKeyFromMultibase P (multibaseFromDid did) with
      | .ok publicKey =>
        verifyHashHex P publicKey (sha256Hex P (canonicalJson (.obj withoutProof))) proofValue
      | .error _ => false
    | _, _ => false

/-- A leaf hash combined with each sibling of a path in turn. -/
def foldMerkleProof (leafHash : Str) (path : List ProofPathNode) : Str :=
  path.foldl (fun h node =>
    if node.direction = .left then sha256Hex P (node.hash ++ h)
      else sha256Hex P (h ++ node.hash)) leafHash

end Wayfinder.App.Crypto

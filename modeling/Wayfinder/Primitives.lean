import Wayfinder.Js.Schema
import Wayfinder.Js.Date

/-! What the service and the browser take from outside the repository.

`Primitives` are the functions of the libraries: SHA-256 and Ed25519 of noble, base58
of scure, the format checks and error texts of ajv, and `Date.parse`. Nothing is assumed
of them but what a theorem names: each assumption below is a property of its own. `Env`
is what a run draws, in the order it draws it: random UUIDs, random private keys and
readings of the clock. -/
namespace Wayfinder

open Js

structure Primitives where
  sha256 : Bytes → Bytes
  /-- The public key of a private key. -/
  getPublicKey : Bytes → Bytes
  /-- `ed.sign(message, privateKey)` -/
  ed25519Sign : Bytes → Bytes → Bytes
  /-- `ed.verify(signature, message, publicKey)`; `false` also where it throws, as both
  callers catch. -/
  ed25519Verify : Bytes → Bytes → Bytes → Bool
  base58Encode : Bytes → Str
  /-- `none` where it throws. -/
  base58Decode : Str → Option Bytes
  /-- The format checks of ajv-formats. -/
  validFormat : Format → Str → Bool
  /-- `ajv.errorsText(validate.errors)` after a schema refused a value. -/
  errorsText : Schema → Json → Str
  /-- `Date.parse`; `none` for `NaN`. -/
  dateParse : Str → Option Int
  /-- The message of the `TypeError` that coercing an object to a string throws. -/
  typeErrorText : Str
  /-- The message of an error that a library throws. -/
  libraryErrorText : Str

namespace Primitives
variable (P : Primitives)

/-- SHA-256 returns 32 bytes. -/
def DigestLength : Prop := ∀ m, (P.sha256 m).length = 32

/-- Ed25519: `verify` accepts what `sign` made, keys have 32 bytes and signatures 64. -/
structure Ed25519 : Prop where
  verify_sign : ∀ m k, k.length = 32 →
    P.ed25519Verify (P.ed25519Sign m k) m (P.getPublicKey k) = true
  publicKey_length : ∀ k, k.length = 32 → (P.getPublicKey k).length = 32
  signature_length : ∀ m k, (P.ed25519Sign m k).length = 64

/-- Ed25519 taken as unforgeable: what verifies under a public key was signed with its
private key, and signatures of two keys differ. -/
structure Unforgeable : Prop where
  signed : ∀ s m k, P.ed25519Verify s m k = true → ∃ p, P.getPublicKey p = k ∧ P.ed25519Sign m p = s
  signer : ∀ m m' p q, P.ed25519Sign m p = P.ed25519Sign m' q → P.getPublicKey p = P.getPublicKey q

/-- A signature that verifies has 64 bytes. -/
def SignatureLength : Prop := ∀ s m k, P.ed25519Verify s m k = true → s.length = 64

/-- A character of the base58 alphabet. -/
def IsBase58 (u : UInt16) : Prop :=
  u ∈ lit "123456789ABCDEFGHJKLMNPQRSTUVWXYZabcdefghijkmnopqrstuvwxyz"

/-- base58: decoding inverts encoding, and encodings are over the alphabet. -/
structure Base58 : Prop where
  decode_encode : ∀ b, P.base58Decode (P.base58Encode b) = some b
  alphabet : ∀ b, ∀ u ∈ P.base58Encode b, IsBase58 u

/-- base58: what decodes is the encoding of what it decodes to. -/
def Base58Exact : Prop := ∀ t b, P.base58Decode t = some b → P.base58Encode b = t

/-- `Date.parse` reads what `toISOString` printed. -/
def DateParse : Prop :=
  ∀ t, t ≤ Date.lastInstant → P.dateParse (Date.toISOString t) = some (t : Int)

/-- ajv-formats: what `toISOString` prints is a date-time; URIs are URI references, and so are
the DID of a key and the id of a token. -/
structure Formats : Prop where
  dateTime : ∀ t, t ≤ Date.lastInstant → P.validFormat .dateTime (Date.toISOString t) = true
  uri : ∀ t, P.validFormat .uri t = true → P.validFormat .uriReference t = true
  did : ∀ t, (∀ u ∈ t, IsBase58 u) → P.validFormat .uriReference (lit "did:key:z" ++ t) = true
  tokenId : ∀ t, (∀ u ∈ t, IsHexDigit u ∨ u = 45) →
    P.validFormat .uriReference (lit "urn:uuid:token-" ++ t) = true

/-- ajv-formats: the names that the service writes into a credential are URIs. -/
structure Uris : Prop where
  fixed : ∀ t ∈ [lit "https://finternet-io.github.io/specs/schemas/credential/v1/context.jsonld",
    lit "https://finternet-io.github.io/specs/schemas/credential/v1/credential.schema.json",
    lit "urn:finternet:standin:status-list"], P.validFormat .uri t = true
  numbered : ∀ name ∈
    [lit "urn:uuid:cred-", lit "urn:uuid:vc-", lit "urn:finternet:standin:status:urn:uuid:cred-"],
    ∀ t, (∀ u ∈ t, IsHexDigit u ∨ u = 45) → P.validFormat .uri (name ++ t) = true
  did : ∀ t, (∀ u ∈ t, IsBase58 u) → P.validFormat .uri (lit "did:key:z" ++ t) = true
  method : ∀ t, (∀ u ∈ t, IsBase58 u) →
    P.validFormat .uri (lit "did:key:z" ++ t ++ lit "#key-1") = true

/-- The message of what was thrown, `(e as Error).message`. -/
def message : Thrown → Str
  | .error m => m
  | .typeError => P.typeErrorText
  | .library => P.libraryErrorText

end Primitives

/-- `365 * 24 * 3600 * 1000` -/
def oneYear : Nat := 365 * 24 * 3600 * 1000

/-- What a run draws, by the order of the draws. The clock stands at least a year before
the year 10000, and private keys have 32 bytes. -/
structure Env where
  /-- `randomUUID()` -/
  uuid : Nat → Str
  /-- `Date.now()` -/
  clock : Nat → Nat
  /-- `ed.utils.randomPrivateKey()` -/
  privateKey : Nat → Bytes
  clock_le : ∀ n, clock n + oneYear ≤ Date.lastInstant
  privateKey_length : ∀ n, (privateKey n).length = 32

namespace Env
variable (E : Env)

/-- No UUID is drawn twice in the first `n` draws. -/
def FreshIds (n : Nat) : Prop := ∀ i j, i < n → j < n → E.uuid i = E.uuid j → i = j

/-- A UUID is written in hex digits and hyphens. -/
def UuidText : Prop := ∀ n, ∀ u ∈ E.uuid n, IsHexDigit u ∨ u = 45

/-- No key pair is drawn twice in the first `n` draws. -/
def FreshKeys (P : Primitives) (n : Nat) : Prop :=
  ∀ i j, i < n → j < n → P.getPublicKey (E.privateKey i) = P.getPublicKey (E.privateKey j) → i = j

variable {E} in
theorem FreshIds.mono {m n : Nat} (h : E.FreshIds n) (hmn : m ≤ n) : E.FreshIds m :=
  fun i j hi hj he => h i j (Nat.lt_of_lt_of_le hi hmn) (Nat.lt_of_lt_of_le hj hmn) he

variable {E} in
theorem FreshKeys.mono {P : Primitives} {m n : Nat} (h : E.FreshKeys P n)
    (hmn : m ≤ n) : E.FreshKeys P m :=
  fun i j hi hj he => h i j (Nat.lt_of_lt_of_le hi hmn) (Nat.lt_of_lt_of_le hj hmn) he

/-- `new Date().toISOString()` -/
def now (n : Nat) : Str := Date.toISOString (E.clock n)

end Env

end Wayfinder

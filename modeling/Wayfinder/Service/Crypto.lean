import Wayfinder.Primitives

/-! `crypto.ts` of the service: Ed25519 keys, `did:key` and signatures over hashes. -/
namespace Wayfinder.Service.Crypto

open Js

variable (P : Primitives)

/-- The multicodec tag of an Ed25519 public key. -/
def ED25519_PUB_MULTICODEC : Bytes := [0xed, 0x01]

structure Keypair where
  privateKey : Bytes
  publicKey : Bytes

def generateKeypair (E : Env) (n : Nat) : Keypair :=
  ⟨E.privateKey n, P.getPublicKey (E.privateKey n)⟩

structure DidKey where
  did : Str
  publicKeyMultibase : Str

/-- A public key as a `did:key` and in multibase form. -/
def didKeyFromPublicKey (publicKey : Bytes) : DidKey :=
  let prefixed := ED25519_PUB_MULTICODEC ++ publicKey
  let publicKeyMultibase := lit "z" ++ P.base58Encode prefixed
  ⟨lit "did:key:" ++ publicKeyMultibase, publicKeyMultibase⟩

/-- The public key of a multibase text. -/
def publicKeyFromMultibase (publicKeyMultibase : Str) : Except Thrown Bytes :=
  if !startsWith publicKeyMultibase (lit "z") then
    .error (.error (lit "expected base58btc multibase starting with \"z\""))
  else
    match P.base58Decode (slice publicKeyMultibase 1) with
    | none => .error .library
    | some decoded =>
      if decoded[0]? ≠ some 0xed ∨ decoded[1]? ≠ some 0x01 then
        .error (.error (lit "not an Ed25519 multicodec public key"))
      else .ok (decoded.drop ED25519_PUB_MULTICODEC.length)

/-- SHA-256 of the UTF-8 text, in hex. -/
def sha256Hex (message : Str) : Str := bytesToHex (P.sha256 (utf8Encode message))

/-- The signature of a hash, in hex. -/
def signHashHex (privateKey : Bytes) (hashHex : Str) : Except Thrown Str :=
  match hexToBytes hashHex with
  | none => .error .library
  | some hash => .ok (bytesToHex (P.ed25519Sign hash privateKey))

/-- Whether a signature of a hash verifies; malformed hex does not. -/
def verifyHashHex (publicKey : Bytes) (hashHex signatureHex : Str) : Bool :=
  match hexToBytes signatureHex, hexToBytes hashHex with
  | some signature, some hash => P.ed25519Verify signature hash publicKey
  | _, _ => false

/-! ### Hashes -/

/-- A SHA-256 hash in hex: 64 lower-case digits. -/
structure IsHash (h : Str) : Prop where
  length : h.length = 64
  digits : ∀ u ∈ h, IsHexDigit u

theorem IsHash.ne_nil {h : Str} (hh : IsHash h) : h ≠ [] :=
  List.ne_nil_of_length_pos (by rw [hh.length]; decide)

variable {P}

theorem sha256Hex_isHash (hP : P.DigestLength) (m : Str) : IsHash (sha256Hex P m) :=
  ⟨by rw [sha256Hex, bytesToHex_length, hP], bytesToHex_digits _⟩

/-! ### Keys and signatures -/

/-- A public key is read back from its multibase form. -/
theorem publicKeyFromMultibase_didKey (hb : P.Base58) (k : Bytes) :
    publicKeyFromMultibase P (didKeyFromPublicKey P k).publicKeyMultibase = .ok k := by
  have hz : startsWith (didKeyFromPublicKey P k).publicKeyMultibase (lit "z") = true :=
    startsWith_append (lit "z") _
  have hs : slice (didKeyFromPublicKey P k).publicKeyMultibase 1 =
      P.base58Encode (ED25519_PUB_MULTICODEC ++ k) := slice_append (lit "z") _
  rw [publicKeyFromMultibase, hz, hs, hb.decode_encode]
  simp [ED25519_PUB_MULTICODEC]

/-- **Only the multibase form of a key is read as that key.** Nothing asks how long the key is. -/
theorem publicKeyFromMultibase_iff (hb : P.Base58) (hexact : P.Base58Exact) {s : Str} {k : Bytes} :
    publicKeyFromMultibase P s = .ok k ↔ s = (didKeyFromPublicKey P k).publicKeyMultibase := by
  refine ⟨fun h => ?_, fun h => h ▸ publicKeyFromMultibase_didKey hb k⟩
  unfold publicKeyFromMultibase at h
  split at h
  · cases h
  · next hz =>
    rw [Bool.not_eq_true, Bool.not_eq_false'] at hz
    obtain ⟨rest, rfl⟩ := List.isPrefixOf_iff_prefix.mp hz
    rw [show slice (lit "z" ++ rest) 1 = rest from slice_append (lit "z") rest] at h
    split at h
    · cases h
    · next decoded hdecoded =>
      split at h
      · cases h
      · next hprefix =>
        rw [not_or, not_not, not_not] at hprefix
        obtain ⟨hfirst, hsecond⟩ := hprefix
        rw [Except.ok.injEq] at h
        have hsplit : decoded = ED25519_PUB_MULTICODEC ++ k := by
          match decoded, hfirst, hsecond, h with
          | u :: v :: bytes, hfirst, hsecond, h =>
            obtain rfl : u = 0xed := Option.some.inj hfirst
            obtain rfl : v = 0x01 := Option.some.inj hsecond
            exact congrArg (ED25519_PUB_MULTICODEC ++ ·) h
        show lit "z" ++ rest = lit "z" ++ P.base58Encode (ED25519_PUB_MULTICODEC ++ k)
        rw [← hsplit, hexact rest decoded hdecoded]

theorem startsWith_did (k : Bytes) :
    startsWith (didKeyFromPublicKey P k).did (lit "did:") = true := by
  show startsWith (lit "did:" ++ (lit "key:" ++ (didKeyFromPublicKey P k).publicKeyMultibase))
    (lit "did:") = true
  exact startsWith_append _ _

/-- Different keys have different DIDs. -/
theorem didKey_injective (hb : P.Base58) {k k' : Bytes}
    (h : (didKeyFromPublicKey P k).did = (didKeyFromPublicKey P k').did) : k = k' := by
  have hm : (didKeyFromPublicKey P k).publicKeyMultibase =
      (didKeyFromPublicKey P k').publicKeyMultibase :=
    List.append_cancel_left h
  have := publicKeyFromMultibase_didKey hb k
  rw [hm, publicKeyFromMultibase_didKey hb k', Except.ok.injEq] at this
  exact this.symm

/-- A hash is always signed, and what is signed verifies. -/
theorem signHashHex_sha256Hex (privateKey : Bytes) (m : Str) : ∃ signature,
    signHashHex P privateKey (sha256Hex P m) = .ok (bytesToHex signature) ∧
      signature = P.ed25519Sign (P.sha256 (utf8Encode m)) privateKey := by
  refine ⟨_, ?_, rfl⟩
  rw [signHashHex, sha256Hex, hexToBytes_bytesToHex]

theorem verifyHashHex_sha256Hex (publicKey signature : Bytes) (m : Str) :
    verifyHashHex P publicKey (sha256Hex P m) (bytesToHex signature) =
      P.ed25519Verify signature (P.sha256 (utf8Encode m)) publicKey := by
  rw [verifyHashHex, sha256Hex, hexToBytes_bytesToHex, hexToBytes_bytesToHex]

end Wayfinder.Service.Crypto

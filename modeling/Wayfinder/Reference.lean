import Wayfinder.Primitives
import Wayfinder.Js.Number
import Wayfinder.Reference.Sha256
import Wayfinder.Reference.Base58

/-! Primitives on which every assumption holds.

SHA-256, base58 and the ISO texts are the functions themselves. Ed25519 is stood for by
a scheme that keeps its interface: a signature is the public key followed by a hash of the
key and the message, so it verifies under that key and under no other. -/
namespace Wayfinder.Reference

open Js

/-- A private key brought to 32 bytes. -/
def keyOf (privateKey : Bytes) : Bytes := (privateKey ++ List.replicate 32 0).take 32

theorem keyOf_length (k : Bytes) : (keyOf k).length = 32 := by
  rw [keyOf, List.length_take, List.length_append, List.length_replicate]
  omega

theorem keyOf_of_length {k : Bytes} (h : k.length = 32) : keyOf k = k := by
  rw [keyOf, ← h, List.take_left']
  rfl

/-- The signature of a message under a key. -/
def stamp (key message : Bytes) : Bytes := key ++ Sha256.sha256 (key ++ message)

def primitives : Primitives where
  sha256 := Sha256.sha256
  getPublicKey := keyOf
  ed25519Sign := fun message privateKey => stamp (keyOf privateKey) message
  ed25519Verify := fun signature message publicKey =>
    publicKey.length == 32 && signature == stamp publicKey message
  base58Encode := Base58.encode
  base58Decode := Base58.decode
  validFormat := fun _ _ => true
  errorsText := fun _ _ => lit "data is invalid"
  dateParse := fun s => (Date.parseISO s).map Int.ofNat
  typeErrorText := lit "Cannot convert object to primitive value"
  libraryErrorText := lit "invalid input"

theorem digestLength : primitives.DigestLength := Sha256.sha256_length

theorem ed25519 : primitives.Ed25519 where
  verify_sign := by
    intro m k _
    show ((keyOf k).length == 32 && stamp (keyOf k) m == stamp (keyOf k) m) = true
    rw [keyOf_length, beq_self_eq_true, beq_self_eq_true, Bool.and_self]
  publicKey_length := fun k _ => keyOf_length k
  signature_length := by
    intro m k
    show (keyOf k ++ Sha256.sha256 _).length = 64
    rw [List.length_append, keyOf_length, Sha256.sha256_length]

theorem unforgeable : primitives.Unforgeable where
  signed := by
    intro s m k h
    have h : (k.length == 32 && s == stamp k m) = true := h
    rw [Bool.and_eq_true, beq_iff_eq, beq_iff_eq] at h
    refine ⟨k, keyOf_of_length h.1, ?_⟩
    show stamp (keyOf k) m = s
    rw [keyOf_of_length h.1, h.2]
  signer := by
    intro m m' p q h
    exact (List.append_inj h ((keyOf_length p).trans (keyOf_length q).symm)).1

theorem base58 : primitives.Base58 where
  decode_encode := Base58.decode_encode
  alphabet := Base58.encode_alphabet

theorem signatureLength : primitives.SignatureLength := by
  intro s m k h
  have h : (k.length == 32 && s == stamp k m) = true := h
  rw [Bool.and_eq_true, beq_iff_eq, beq_iff_eq] at h
  rw [h.2, stamp, List.length_append, h.1, Sha256.sha256_length]

theorem base58Exact : primitives.Base58Exact := fun _ _ => Base58.encode_decode

theorem dateParse : primitives.DateParse := by
  intro t ht
  show (Date.parseISO (Date.toISOString t)).map Int.ofNat = some (t : Int)
  rw [Date.parseISO_toISOString ht]
  rfl

theorem formats : primitives.Formats where
  dateTime := fun _ _ => rfl
  uri := fun _ _ => rfl
  did := fun _ _ => rfl
  tokenId := fun _ _ => rfl

theorem uris : primitives.Uris where
  fixed := fun _ _ => rfl
  numbered := fun _ _ _ _ => rfl
  did := fun _ _ => rfl
  method := fun _ _ => rfl

/-! ### Draws -/

/-- A UUID that ends in the number of the draw. -/
def uuid (n : Nat) : Str := lit "00000000-0000-4000-8000-" ++ natText n

/-- The first reading is 2025-01-01, each later one a second on. -/
def clock (n : Nat) : Nat := min (1735689600000 + 1000 * n) (Date.lastInstant - oneYear)

/-- A private key that ends in the number of the draw. -/
def privateKey (n : Nat) : Bytes := List.replicate 31 0 ++ [n.toUInt8]

def env : Env where
  uuid := uuid
  clock := clock
  privateKey := privateKey
  clock_le := by
    intro n
    have : clock n ≤ Date.lastInstant - oneYear := Nat.min_le_right ..
    have h : oneYear ≤ Date.lastInstant := by decide
    omega
  privateKey_length := fun n => rfl

/-- Less than a year passes in a thousand draws. -/
theorem env_clock {m n : Nat} (h : n ≤ m + 1000) : env.clock n < env.clock m + oneYear := by
  show min _ _ < min _ _ + 365 * 24 * 3600 * 1000
  omega

theorem natText_injective {m n : Nat} (h : natText m = natText n) : m = n := by
  rw [← natText_value m, h, natText_value]

theorem freshIds (n : Nat) : env.FreshIds n :=
  fun _ _ _ _ he => natText_injective (List.append_cancel_left he)

theorem uuidText : env.UuidText := by
  intro n u hu
  rcases List.mem_append.mp hu with hu | hu
  · have hall : (lit "00000000-0000-4000-8000-").all fun v => 48 ≤ v && v ≤ 57 || v == 45 := by
      decide
    have hunit := List.all_eq_true.mp hall u hu
    simp only [Bool.or_eq_true, Bool.and_eq_true, decide_eq_true_eq, beq_iff_eq] at hunit
    exact hunit.imp_left .inl
  · exact .inl (.inl (natText_digits n u hu))

/-- The keys of the first 256 draws differ. -/
theorem freshKeys {n : Nat} (hn : n ≤ 256) : env.FreshKeys primitives n := by
  intro i j hi hj he
  have he : keyOf (privateKey i) = keyOf (privateKey j) := he
  rw [keyOf_of_length rfl, keyOf_of_length rfl] at he
  have hu : i.toUInt8 = j.toUInt8 := (List.cons.inj (List.append_cancel_left he)).1
  have := congrArg UInt8.toNat hu
  rw [Nat.toUInt8, UInt8.toNat_ofNat_of_lt' (show i < 256 by omega),
    UInt8.toNat_ofNat_of_lt' (show j < 256 by omega)] at this
  exact this

end Wayfinder.Reference

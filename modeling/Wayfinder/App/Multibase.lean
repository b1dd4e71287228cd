import Wayfinder.App.Embedded
import Wayfinder.Reference

/-! Which texts are read as keys.

A key of 32 bytes is read back from its multibase form by the service and by the browser,
and what either reads as a key is the multibase form of what it reads. Neither asks for 32
bytes, so a text is read as a key although it is none where it is the form of bytes of
another length (`multibase_exact_iff`), the empty ones among them (`prefix_alone_read`). -/
namespace Wayfinder.App.Crypto

open Js
open Service.Crypto (didKeyFromPublicKey publicKeyFromMultibase_iff)

/-- What a decoder reads from a text is a key of 32 bytes whose multibase form it is. -/
def ReadsKeys (P : Primitives) (decode : Str → Except Thrown Bytes) (s : Str) : Prop :=
  ∀ k, decode s = .ok k → k.length = 32 ∧ s = (didKeyFromPublicKey P k).publicKeyMultibase

variable {P : Primitives}

theorem readsKeys_iff (hb : P.Base58) (hexact : P.Base58Exact) {s : Str} :
    ReadsKeys P (publicKeyFromMultibase P) s ↔ ∀ k,
      s = (didKeyFromPublicKey P k).publicKeyMultibase → k.length = 32 := by
  refine forall_congr' fun k => ?_
  rw [publicKeyFromMultibase_eq, publicKeyFromMultibase_iff hb hexact]
  exact ⟨fun h hs => (h hs).1, fun h hs => ⟨h hs, hs⟩⟩

/-- **The decoders invert the encoder on keys, and accept no more than its image exactly at the
texts that are not the form of bytes of another length.** -/
theorem multibase_exact_iff (hb : P.Base58) (hexact : P.Base58Exact) :
    (∀ k : Bytes, k.length = 32 →
      Service.Crypto.publicKeyFromMultibase P (didKeyFromPublicKey P k).publicKeyMultibase =
        .ok k ∧ publicKeyFromMultibase P (didKeyFromPublicKey P k).publicKeyMultibase = .ok k ∧
      multibaseFromDid (didKeyFromPublicKey P k).did =
        (didKeyFromPublicKey P k).publicKeyMultibase) ∧ ∀ s : Str,
          (ReadsKeys P (Service.Crypto.publicKeyFromMultibase P) s ∧
            ReadsKeys P (publicKeyFromMultibase P) s) ↔
          ∀ k, s = (didKeyFromPublicKey P k).publicKeyMultibase → k.length = 32 := by
  have hread := fun k => Service.Crypto.publicKeyFromMultibase_didKey hb k
  refine ⟨fun k _ => ⟨hread k, ?_, multibaseFromDid_did k⟩, fun s => ?_⟩
  · rw [publicKeyFromMultibase_eq]
    exact hread k
  · rw [← publicKeyFromMultibase_eq, and_self]
    exact readsKeys_iff hb hexact

/-- The prefix of a key with no key behind it. -/
theorem prefix_multibase :
    (didKeyFromPublicKey Reference.primitives []).publicKeyMultibase = lit "zK36" := by
  decide +kernel

/-- **The text `zK36` is read as a key without bytes.** -/
theorem prefix_alone_read :
    ¬ ReadsKeys Reference.primitives (publicKeyFromMultibase Reference.primitives)
      (lit "zK36") := by
  intro hreads
  have hlength :=
    (readsKeys_iff Reference.base58 Reference.base58Exact).mp hreads [] prefix_multibase.symm
  cases hlength

/-- The key of 32 zeros is read back, and from its form nothing else is read. -/
theorem multibase_exact_iff_zeros :
    publicKeyFromMultibase Reference.primitives (didKeyFromPublicKey Reference.primitives
      (List.replicate 32 0)).publicKeyMultibase = .ok (List.replicate 32 0) ∧
      ReadsKeys Reference.primitives (publicKeyFromMultibase Reference.primitives)
        (didKeyFromPublicKey Reference.primitives (List.replicate 32 0)).publicKeyMultibase := by
  obtain ⟨hkeys, htexts⟩ := multibase_exact_iff Reference.base58 Reference.base58Exact
  have hzeros := (hkeys (List.replicate 32 0) List.length_replicate).2.1
  refine ⟨hzeros, ((htexts _).mpr fun k hk => ?_).2⟩
  rw [hk, publicKeyFromMultibase_eq, Service.Crypto.publicKeyFromMultibase_didKey Reference.base58,
    Except.ok.injEq] at hzeros
  rw [hzeros, List.length_replicate]

end Wayfinder.App.Crypto

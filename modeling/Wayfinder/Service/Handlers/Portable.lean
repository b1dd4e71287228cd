import Wayfinder.App.Embedded
import Wayfinder.Service.Handlers.Gate

/-! A gated token in the browser.

What the issuer signed is embedded in the token and travels as JSON, where keys may change
their order and infinities become `null`. The browser hashes the claim by its own canonical text,
which sees neither, so it accepts the claim of every gated token, in every later state. -/
namespace Wayfinder.Service.Handlers

open Js Credentials TokenClasses Tokens
open App.Crypto (verifyEmbeddedCredential)

variable {P : Primitives} {E : Env}

/-- The one claim of a token, after JSON transport. -/
theorem claims_sameText {token : TokenInstance} {vc : Vc} (hclaims : token.claims = some [vc])
    {j : Json} (hj : SameText token.toJson j) :
    ∃ claim, j.prop (lit "claims") = some (.arr [.obj claim]) ∧
      SameText vc.toJson (.obj claim) := by
  have hfield : getField token.fields (lit "claims") = some (.arr [vc.toJson]) := by
    rw [TokenInstance.fields, hclaims]
    rfl
  obtain ⟨fields, rfl⟩ := SameText.obj_left hj
  obtain ⟨sent, hsent, he⟩ := SameText.getField_some hj hfield
  obtain ⟨items, rfl, hitems⟩ := he.arr_left
  obtain ⟨item, rest, hitem, hrest, rfl⟩ := List.forall₂_cons_left_iff.mp hitems
  obtain rfl := List.forall₂_nil_left_iff.mp hrest
  obtain ⟨claim, rfl⟩ := SameText.obj_left hitem
  exact ⟨claim, hsent, hitem⟩

/-- **A gated token is verified by the browser alone**, in every state after its mint and
whatever JSON transport does to it. -/
theorem embedded_verifies (he : P.Ed25519) (hb : P.Base58) (requests : List Request)
    (hfresh : E.FreshIds (after P E requests).draws) {id : Str} {token : TokenInstance}
    {tc : TokenClass} (hget : (after P E requests).tokens.byId.get id = some token)
    (htc : (after P E requests).tokenclasses.get token.metadata.tokenClass = some tc)
    (hkyc : tc.requiresKYC = true) {j : Json} (hj : SameText token.toJson j) :
    ∃ claim, j.prop (lit "claims") = some (.arr [.obj claim]) ∧
      verifyEmbeddedCredential P claim = true := by
  obtain ⟨holderDid, credential, hauthorised⟩ :=
    (gated_after requests hfresh).authorised hget htc hkyc
  obtain ⟨n, input, hclaims, _⟩ := hauthorised.claim hfresh
  obtain ⟨claim, hclaim, hequiv⟩ := claims_sameText hclaims hj
  exact ⟨claim, hclaim, App.Crypto.verifyEmbeddedCredential_congr hequiv
    (App.Crypto.verifyEmbeddedCredential_issued he hb n input)⟩

/-- The deed that Alice gave to Bob verifies. -/
theorem embedded_verifies_deed :
    ∃ token claim, (after Reference.primitives Reference.env
      (deedBefore Reference.primitives Reference.env none ++ [mintRequest Reference.env,
        moveRequest Reference.primitives Reference.env none])).tokens.byId.get
      (newDeed Reference.primitives Reference.env none).id = some token ∧
      token.toJson.prop (lit "claims") = some (.arr [.obj claim]) ∧
      verifyEmbeddedCredential Reference.primitives claim = true := by
  obtain ⟨token, hget, hclass, _⟩ := deed_moved reliable_reference none
  obtain ⟨claim, hclaim, hverifies⟩ := embedded_verifies Reference.ed25519 Reference.base58
    _ (Reference.freshIds _) hget hclass rfl (SameText.refl _)
  exact ⟨_, claim, hget, hclaim, hverifies⟩

end Wayfinder.Service.Handlers

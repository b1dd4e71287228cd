import Wayfinder.Service.Handlers.Registry

/-! Addresses and token classes go to the first who asks well.

An address is taken once a well-formed request for it was made, whoever made it; a class is once a
request for it with its three texts was made, or from the start. Nothing is given back, so what
`accountCreate`, `checkAvailability` and `tokenClassRegister` answer is decided by the requests
before (`first_come`). -/
namespace Wayfinder.Service.Handlers

open Js Envelope TokenClasses

variable {P : Primitives} {E : Env}

/-- A well-formed request for an address. -/
def ClaimsAddress (request : Request) (address : Str) : Prop :=
  isFinternetAddress address = true ∧
    ∃ payload, request.payload = .accountCreate payload ∧ payload.address = address

/-- A request for a class with all that is required. -/
def ClaimsClass (request : Request) (tokenClass : Str) : Prop :=
  ∃ payload, request.payload = .tokenClassRegister payload ∧ payload.tokenClass = tokenClass ∧
    tokenClass ≠ [] ∧ payload.tokenStandard ≠ [] ∧ payload.name ≠ []

theorem isSome_get_set {κ ν : Type} [DecidableEq κ] (m : JsMap κ ν) (k k' : κ) (v : ν) :
    ((m.set k v).get k').isSome ↔ (m.get k').isSome ∨ k = k' := by
  rw [JsMap.get_set]
  split
  · next he => simp [he]
  · next he => simp [he]

theorem address_step (w : World) (request : Request) (address : Str) :
    ((handle P E w request).1.accounts.byAddress.get address).isSome ↔
      (w.accounts.byAddress.get address).isSome ∨ ClaimsAddress request address := by
  have hchange := handle_change (P := P) (E := E) w request
  generalize hhandle : handle P E w request = result at hchange ⊢
  obtain ⟨w', outcome⟩ := result
  -- a request that writes no account makes no claim that is not met already
  have hsame : outcome.reports = false ∨ (∀ payload, request.payload ≠ .accountCreate payload) →
      ClaimsAddress request address → (w.accounts.byAddress.get address).isSome := by
    rintro hquiet ⟨haddress, payload, hpayload, rfl⟩
    refine Option.isSome_iff_ne_none.mpr fun hfree => ?_
    obtain ⟨context, _⟩ := request
    cases hpayload
    rw [accountCreate_succeeds context payload haddress hfree] at hhandle
    cases hhandle
    rcases hquiet with hquiet | hquiet
    · cases hquiet
    · exact hquiet payload rfl
  cases hchange with
  | @created context payload haddress hfree =>
    refine (isSome_get_set w.accounts.byAddress payload.address address _).trans (or_congr_right ?_)
    constructor
    · rintro rfl
      exact ⟨haddress, payload, rfl, rfl⟩
    · rintro ⟨_, payload', hpayload, rfl⟩
      cases hpayload
      rfl
  | quiet _ hquiet => exact ⟨.inl, fun h => h.elim id (hsame (.inl hquiet))⟩
  | _ => exact ⟨.inl, fun h => h.elim id (hsame (.inr fun _ h => nomatch h))⟩

theorem accountCreate_accepted (w : World) (context : Option Json)
    (payload : Store.RegistrationRequest) :
    (handle P E w ⟨context, .accountCreate payload⟩).2.body.isSome ↔
      isFinternetAddress payload.address = true ∧
      ¬ (w.accounts.byAddress.get payload.address).isSome := by
  simp only [handle, accountCreate]
  split
  · next hmalformed =>
    constructor
    · intro h
      cases h
    · intro h
      simp [h.1] at hmalformed
  · next haddress =>
    split
    · next htaken =>
      constructor
      · intro h
        cases h
      · exact fun h => absurd htaken h.2
    · next htaken => exact ⟨fun _ => ⟨by simpa using haddress, htaken⟩, fun _ => rfl⟩

theorem tokenClassRegister_accepted (w : World) (context : Option Json)
    (payload : RegisterTokenClassInput) :
    (handle P E w ⟨context, .tokenClassRegister payload⟩).2.body.isSome ↔
      (payload.tokenClass ≠ [] ∧ payload.tokenStandard ≠ [] ∧ payload.name ≠ []) ∧
      ¬ (w.tokenclasses.get payload.tokenClass).isSome := by
  simp only [handle, tokenClassRegister]
  split
  · next hmissing =>
    constructor
    · intro h
      cases h
    · intro h
      simp [h.1] at hmissing
  · next hcomplete =>
    have hcomplete : payload.tokenClass ≠ [] ∧ payload.tokenStandard ≠ [] ∧ payload.name ≠ [] := by
      simpa [and_assoc] using hcomplete
    split
    · next hexists =>
      constructor
      · intro h
        cases h
      · exact fun h => absurd hexists h.2
    · next hexists => exact ⟨fun _ => ⟨hcomplete, hexists⟩, fun _ => rfl⟩

theorem class_step (w : World) (request : Request) (tokenClass : Str) :
    ((handle P E w request).1.tokenclasses.get tokenClass).isSome ↔
      (w.tokenclasses.get tokenClass).isSome ∨ ClaimsClass request tokenClass := by
  obtain ⟨context, payload⟩ := request
  by_cases hregister : ∃ input, payload = .tokenClassRegister input
  · obtain ⟨input, rfl⟩ := hregister
    have hclaims : ClaimsClass ⟨context, .tokenClassRegister input⟩ tokenClass ↔
        input.tokenClass = tokenClass ∧ input.tokenClass ≠ [] ∧ input.tokenStandard ≠ [] ∧
        input.name ≠ [] := by
      constructor
      · rintro ⟨payload, hpayload, rfl, h⟩
        cases hpayload
        exact ⟨rfl, h⟩
      · rintro ⟨rfl, h⟩
        exact ⟨input, rfl, rfl, h⟩
    have haccepted := tokenClassRegister_accepted (P := P) (E := E) w context input
    rw [hclaims]
    rcases register_step (P := P) (E := E) w context input with ⟨hbody, hsame⟩ | ⟨hbody, _, hset⟩
    · rw [hsame]
      refine ⟨.inl, fun h => h.elim id fun hasked => ?_⟩
      obtain ⟨rfl, hcomplete⟩ := hasked
      by_contra htaken
      exact absurd (haccepted.mpr ⟨hcomplete, htaken⟩) (by rw [hbody]; exact Bool.false_ne_true)
    · rw [hset, isSome_get_set]
      refine or_congr_right ⟨fun he => ⟨he, (haccepted.mp hbody).1⟩, fun h => h.1⟩
  · have hother : ∀ input, payload ≠ .tokenClassRegister input := fun input he =>
      hregister ⟨input, he⟩
    rw [(handle_change w ⟨context, payload⟩).tokenclasses hother]
    exact ⟨.inl, fun h => h.elim id fun ⟨input, hinput, _⟩ => absurd hinput (hother input)⟩

/-- An address is taken once it was asked for. -/
theorem address_after (requests : List Request) (address : Str) :
    ((after P E requests).accounts.byAddress.get address).isSome ↔
      ∃ request ∈ requests, ClaimsAddress request address := by
  have h := Machine.taken_after (M := service P E) (fun w address =>
    (w.accounts.byAddress.get address).isSome = true) address_step requests address
  rw [h]
  exact or_iff_right Bool.false_ne_true

/-- A class is in the registry from the start, or once it was asked for. -/
theorem class_after (requests : List Request) (tokenClass : Str) :
    ((after P E requests).tokenclasses.get tokenClass).isSome ↔
      tokenClass = lit "PROP-DEED" ∨ ∃ request ∈ requests, ClaimsClass request tokenClass := by
  have h := Machine.taken_after (M := service P E) (fun w tokenClass =>
    (w.tokenclasses.get tokenClass).isSome = true) class_step requests tokenClass
  rw [h]
  refine or_congr_left ((isSome_get_set _ _ _ _).trans ?_)
  constructor
  · rintro (h | h)
    · cases h
    · exact h.symm
  · intro h
    exact .inr h.symm

/-- **The first who asks well is served.** After every run, an account is created exactly when its
address is well-formed and no request of the run was a well-formed one for it, and
`checkAvailability` says so; a class is registered exactly when its three texts are there, it is not
the one the service starts with, and no request of the run had asked for it with all three. -/
theorem first_come (requests : List Request) (context : Option Json) :
    (∀ payload, (handle P E (after P E requests) ⟨context, .accountCreate payload⟩).2.body.isSome ↔
      isFinternetAddress payload.address = true ∧ ∀ request ∈ requests,
        ¬ ClaimsAddress request payload.address) ∧ (∀ address, ∃ available,
          (handle P E (after P E requests) ⟨context, .checkAvailability address⟩).2.body =
            some (.availability available) ∧
          (available = true ↔ ∀ request ∈ requests, ¬ ClaimsAddress request address)) ∧ ∀ payload,
            (handle P E (after P E requests) ⟨context, .tokenClassRegister payload⟩).2.body.isSome ↔
            (payload.tokenClass ≠ [] ∧ payload.tokenStandard ≠ [] ∧ payload.name ≠ []) ∧
            payload.tokenClass ≠ lit "PROP-DEED" ∧ ∀ request ∈ requests,
              ¬ ClaimsClass request payload.tokenClass := by
  refine ⟨fun payload => ?_, fun address => ⟨_, rfl, ?_⟩, fun payload => ?_⟩
  · rw [accountCreate_accepted, address_after]
    simp only [not_exists, not_and]
  · show (!Store.addressTaken _ _) = true ↔ _
    rw [Bool.not_eq_true', ← Bool.not_eq_true, Store.addressTaken, JsMap.has, address_after]
    simp only [not_exists, not_and]
  · rw [tokenClassRegister_accepted, class_after, not_or, not_exists]
    simp only [not_and, ne_eq]

end Wayfinder.Service.Handlers

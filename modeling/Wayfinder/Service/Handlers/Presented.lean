import Wayfinder.Service.Handlers.Revocation

/-! When a presented credential gets a verdict.

The schema is one check among four and stops nothing: the other three go on to read a
value that may have any shape. Three of their reads can throw, and `Readable` says when none
does (`verifyCredential_total`). A verdict that is given says what the schema says. -/
namespace Wayfinder.Service

open Js

namespace Credentials

variable {P : Primitives} {E : Env}

/-- What verification reads of a presented value is there to be read. -/
structure Readable (s : State) (credential : Json) : Prop where
  /-- `credential.claims[0]` -/
  claims : nullish (credential.prop (lit "claims")) = false
  /-- `(stored ?? credential).state.status` -/
  state : (getCredential s (credential.prop (lit "id"))).isSome = true ∨
    nullish (credential.prop (lit "state")) = false
  /-- `Date.parse(vc.validUntil)`: what is no string is made one. -/
  validUntil : ∀ claim, (credential.prop (lit "claims")).bind Json.first = some claim →
    ∀ instant, claim.prop (lit "validUntil") = some instant → instant.truthy = true →
      ∃ text, toText instant = .ok text

theorem readFirst_ok {v : Option Json} {claim : Option Json} :
    readFirst v = .ok claim ↔ nullish v = false ∧ v.bind Json.first = claim := by
  match v with
  | none => simp [readFirst, nullish]
  | some j => cases j <;> simp [readFirst, nullish]

theorem readProp_total {v : Option Json} (k : Str) :
    (∃ j, readProp v k = .ok j) ↔ nullish v = false := by
  match v with
  | none => simp [readProp, nullish]
  | some j => cases j <;> simp [readProp, nullish]

theorem statusOf_total {s : State} {credential : Json} :
    (∃ status, statusOf s credential = .ok status) ↔
      (getCredential s (credential.prop (lit "id"))).isSome = true ∨
      nullish (credential.prop (lit "state")) = false := by
  unfold statusOf
  cases getCredential s (credential.prop (lit "id")) with
  | none => simpa using readProp_total (lit "status")
  | some stored => simp

theorem beforeEnd_total (n : Nat) {validUntil : Option Json} :
    (∃ notExpired, beforeEnd P E n validUntil = .ok notExpired) ↔
      ∀ instant, validUntil = some instant → instant.truthy = true → ∃ text,
        toText instant = .ok text := by
  cases validUntil with
  | none => simp [beforeEnd, truthy]
  | some instant =>
    cases htruthy : instant.truthy with
    | false => simp [beforeEnd, truthy, htruthy]
    | true =>
      cases htext : toText instant <;>
        simp [beforeEnd, truthy, htruthy, toText?, htext, bind, Except.bind, pure, Except.pure]

/-- **A verdict is given exactly on what can be read.** -/
theorem verifyCredential_total (n : Nat) (s : State) (credential : Json) :
    (∃ result, verifyCredential P E n s credential = .ok result) ↔ Readable s credential := by
  refine ⟨fun h => ?_, fun h => ?_⟩
  · obtain ⟨result, h⟩ := h
    obtain ⟨vc, status, notExpired, hfirst, hstatus, hend, _⟩ := verifyCredential_ok.mp h
    obtain ⟨hclaims, hvc⟩ := readFirst_ok.mp hfirst
    refine ⟨hclaims, statusOf_total.mp ⟨status, hstatus⟩, fun claim hclaim => ?_⟩
    rw [hvc] at hclaim
    rw [hclaim] at hend
    exact (beforeEnd_total n).mp ⟨notExpired, hend⟩
  · obtain ⟨status, hstatus⟩ := statusOf_total.mpr h.state
    have hend : ∃ notExpired, beforeEnd P E n
        (readProp? ((credential.prop (lit "claims")).bind Json.first) (lit "validUntil")) =
        .ok notExpired := by
      refine (beforeEnd_total n).mpr ?_
      cases hfirst : (credential.prop (lit "claims")).bind Json.first with
      | none => exact fun instant hinstant => nomatch hinstant
      | some claim => exact h.validUntil claim hfirst
    obtain ⟨notExpired, hend⟩ := hend
    exact ⟨_, verifyCredential_ok.mpr ⟨_, status, notExpired, readFirst_ok.mpr ⟨h.claims, rfl⟩,
      hstatus, hend, rfl⟩⟩

/-- What the schema refuses is not valid. -/
theorem verdict_of_misfit {n : Nat} {s : State} {credential : Json} {result : VerificationResult}
    (h : verifyCredential P E n s credential = .ok result)
    (hschema : validateCredential P credential = false) :
    result.checks.schemaValid = false ∧ result.valid = false := by
  obtain ⟨_, _, _, _, _, _, rfl⟩ := verifyCredential_ok.mp h
  exact ⟨hschema, by simp [Checks.valid, checksOf, hschema]⟩

end Credentials

namespace Handlers

open Credentials

variable {P : Primitives} {E : Env}

/-- **A presented object gets a verdict exactly when it is readable**, and one that does not
fit the schema gets the verdict that says so. -/
theorem verdict_iff_readable (requests : List Request) (context payload : Option Json)
    {fields : Fields}
    (hpresented : readProp payload (lit "credential") = .ok (some (.obj fields))) :
    (∃ result, (handle P E (after P E requests) ⟨context, .credentialVerify payload⟩).2.body =
      some (.verdict result) ∧ (validateCredential P (.obj fields) = false →
        result.checks.schemaValid = false ∧ result.valid = false)) ↔
      Readable (after P E requests).credentials (.obj fields) := by
  simp only [credentialVerify_object hpresented]
  rw [← verifyCredential_total (P := P) (E := E) (after P E requests).draws]
  refine ⟨fun h => ?_, fun h => ?_⟩
  · obtain ⟨result, hverify, _⟩ := h
    exact ⟨result, hverify⟩
  · obtain ⟨result, hverify⟩ := h
    exact ⟨result, hverify, verdict_of_misfit hverify⟩

/-- An object with claims and a state gets a verdict, of whatever kind they are. -/
theorem verdict_iff_readable_bare :
    ∃ result,
      (handle Reference.primitives Reference.env (after Reference.primitives Reference.env [])
        ⟨none, .credentialVerify (some (.obj [(lit "credential",
          .obj [(lit "claims", .bool true), (lit "state", .bool true)])]))⟩).2.body =
        some (.verdict result) ∧ (validateCredential Reference.primitives
          (.obj [(lit "claims", .bool true), (lit "state", .bool true)]) = false →
          result.checks.schemaValid = false ∧ result.valid = false) :=
  (verdict_iff_readable [] none (some (.obj [(lit "credential", .obj [(lit "claims", .bool true),
    (lit "state", .bool true)])])) rfl).mpr ⟨rfl, .inr rfl, fun _ hclaim => nomatch hclaim⟩

/-- **An object without claims is answered with a `TypeError`**, where nothing was issued yet. -/
theorem empty_threw :
    readProp (some (.obj [(lit "credential", .obj [])])) (lit "credential") = .ok (some (.obj [])) ∧
      (handle Reference.primitives Reference.env (after Reference.primitives Reference.env [])
        ⟨none, .credentialVerify (some (.obj [(lit "credential", .obj [])]))⟩).2 =
        .threw .typeError :=
  ⟨rfl, rfl⟩

end Handlers

end Wayfinder.Service

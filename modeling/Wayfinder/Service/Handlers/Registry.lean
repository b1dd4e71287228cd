import Wayfinder.Service.Handlers.Holdings
import Wayfinder.Service.Handlers.Succeeds
import Wayfinder.Service.Tokens.Usable

/-! The registry of a run: which of its classes can be used.

The registry holds the class that the service starts with and one class for each accepted
registration, in order (`registry_after`). A registration is accepted whatever its open
objects hold, so all classes are usable where every accepted registration is sound, and one
that is not leaves a class that nobody can mint of (`longSymbol_unusable`). -/
namespace Wayfinder.Service.Handlers

open Js Envelope TokenClasses Tokens

/-! ### The registry -/

/-- The payload of a registration that was accepted. -/
def registrationOfEvent (event : Request × Outcome) : Option RegisterTokenClassInput :=
  match event.1.payload with
  | .tokenClassRegister payload => if event.2.body.isSome then some payload else none
  | _ => none

variable (P : Primitives) (E : Env)

/-- The accepted registrations of a run. -/
def registrations (requests : List Request) : List RegisterTokenClassInput :=
  (history P E requests).filterMap registrationOfEvent

/-- The classes of a registry are the first one and those of a list of registrations. -/
def Registers (registry : TokenClasses.State)
    (registrations : List RegisterTokenClassInput) : Prop :=
  ∃ rest, registry.entries = ((propDeed P E).tokenClass, propDeed P E) :: rest ∧
    List.Forall₂ (fun payload entry => ∃ n,
      entry = (payload.tokenClass, newTokenClass P E n payload)) registrations rest

variable {P E}

theorem Registers.register {registry : TokenClasses.State}
    {registrations : List RegisterTokenClassInput} (h : Registers P E registry registrations)
    {payload : RegisterTokenClassInput} (hnew : registry.get payload.tokenClass = none) (n : Nat) :
    Registers P E (registry.set payload.tokenClass (newTokenClass P E n payload))
      (registrations ++ [payload]) := by
  obtain ⟨rest, hentries, hrest⟩ := h
  refine ⟨rest ++ [(payload.tokenClass, newTokenClass P E n payload)], ?_, ?_⟩
  · rw [JsMap.entries_set_new _ hnew, hentries]
    rfl
  · exact List.rel_append hrest (.cons ⟨n, rfl⟩ .nil)

/-- A registration that is answered with a class added it; any other left the registry. -/
theorem register_step (w : World) (context : Option Json) (payload : RegisterTokenClassInput) :
    ((handle P E w ⟨context, .tokenClassRegister payload⟩).2.body = none ∧
      (handle P E w ⟨context, .tokenClassRegister payload⟩).1.tokenclasses = w.tokenclasses) ∨
    ((handle P E w ⟨context, .tokenClassRegister payload⟩).2.body.isSome ∧
      w.tokenclasses.get payload.tokenClass = none ∧
      (handle P E w ⟨context, .tokenClassRegister payload⟩).1.tokenclasses =
        w.tokenclasses.set payload.tokenClass (newTokenClass P E w.draws payload)) := by
  simp only [handle, tokenClassRegister]
  split
  · exact .inl ⟨rfl, rfl⟩
  · split
    · exact .inl ⟨rfl, rfl⟩
    · next hexists =>
      refine .inr ⟨rfl, ?_, rfl⟩
      simpa [tokenClassExists, JsMap.has] using hexists

/-- A request other than a registration leaves the registry. -/
theorem Change.tokenclasses {w w' : World} {request : Request} {outcome : Outcome}
    (h : Change P E w request w' outcome)
    (hother : ∀ payload, request.payload ≠ .tokenClassRegister payload) :
    w'.tokenclasses = w.tokenclasses := by
  cases h with
  | registered => exact absurd rfl (hother _)
  | _ => rfl

theorem registry_after (requests : List Request) :
    Registers P E (after P E requests).tokenclasses (registrations P E requests) := by
  refine run_induction (P := P) (E := E) (F := fun _ => True) (I := fun requests =>
    Registers P E (after P E requests).tokenclasses (registrations P E requests))
      (fun _ _ => trivial) ⟨[], rfl, .nil⟩ ?_ requests trivial
  intro requests request outcome hchange hhistory _ h
  have hregistrations : registrations P E (requests ++ [request]) =
      registrations P E requests ++ (registrationOfEvent (request, outcome)).toList := by
    rw [registrations, hhistory, List.filterMap_append, filterMap_singleton]
    rfl
  rw [hregistrations]
  obtain ⟨context, payload⟩ := request
  by_cases hregister : ∃ input, payload = .tokenClassRegister input
  · obtain ⟨input, rfl⟩ := hregister
    have houtcome := outcome_eq hhistory
    have hafter : after P E (requests ++ [⟨context, .tokenClassRegister input⟩]) =
      (handle P E (after P E requests) ⟨context, .tokenClassRegister input⟩).1 :=
      Machine.after_snoc _ _ _
    rcases register_step (P := P) (E := E) (after P E requests) context input with
      ⟨hbody, hclasses⟩ | ⟨hbody, hnew, hclasses⟩
    · rw [houtcome] at hbody
      have hnone : registrationOfEvent (⟨context, .tokenClassRegister input⟩, outcome) = none := by
        simp [registrationOfEvent, hbody]
      rw [hafter, hclasses, hnone, Option.toList_none, List.append_nil]
      exact h
    · rw [houtcome] at hbody
      have hsome :
          registrationOfEvent (⟨context, .tokenClassRegister input⟩, outcome) = some input := by
        simp [registrationOfEvent, hbody]
      rw [hafter, hclasses, hsome]
      exact h.register hnew _
  · have hother : ∀ input, payload ≠ .tokenClassRegister input := fun input he =>
      hregister ⟨input, he⟩
    have hnone : registrationOfEvent (⟨context, payload⟩, outcome) = none := by
      unfold registrationOfEvent
      split
      · next input he => exact absurd he (hother input)
      · rfl
    rw [hchange.tokenclasses hother, hnone, Option.toList_none, List.append_nil]
    exact h

/-- An accepted registration was a request of the run. -/
theorem mem_registrations {requests : List Request} {payload : RegisterTokenClassInput}
    (h : payload ∈ registrations P E requests) :
    ∃ context, ⟨context, .tokenClassRegister payload⟩ ∈ requests := by
  obtain ⟨⟨⟨context, sent⟩, outcome⟩, hevent, hpayload⟩ := List.mem_filterMap.mp h
  unfold registrationOfEvent at hpayload
  split at hpayload
  · next input hsent =>
    split at hpayload
    · cases hpayload
      refine ⟨context, ?_⟩
      have hmem := mem_requests hevent
      rwa [show (⟨context, .tokenClassRegister payload⟩ : Request) =
        ⟨context, sent⟩ by rw [← hsent]]
    · cases hpayload
  · cases hpayload

/-! ### Which classes can be used -/

/-- **The registry holds usable classes when every accepted registration is sound.** In a run
whose registrations satisfy the schema of their request: and where somebody can qualify for
a gated class at all, only then. -/
theorem registry_usable (hformats : P.Formats) (hbase : P.Base58) (huuid : E.UuidText)
    (requests : List Request)
    (hvalid : ∀ context payload, ⟨context, .tokenClassRegister payload⟩ ∈ requests →
      payload.Valid P) :
    ((∀ payload ∈ registrations P E requests, sound P payload = true) →
      ∀ name tc, (after P E requests).tokenclasses.get name = some tc → Usable P E tc) ∧
      (SomeoneQualifies P E →
        (∀ name tc, (after P E requests).tokenclasses.get name = some tc → Usable P E tc) →
        ∀ payload ∈ registrations P E requests, sound P payload = true) := by
  obtain ⟨rest, hentries, hrest⟩ := registry_after (P := P) (E := E) requests
  have hpayload : ∀ payload ∈ registrations P E requests, payload.Valid P := by
    intro payload hmem
    obtain ⟨context, hrequest⟩ := mem_registrations hmem
    exact hvalid context payload hrequest
  refine ⟨fun hsound name tc hget => ?_, fun hsomeone husable payload hmem => ?_⟩
  · have hentry := JsMap.get_eq_some.mp hget
    rw [hentries] at hentry
    rcases List.mem_cons.mp hentry with he | hmem
    · cases he
      exact propDeed_usable hformats hbase huuid
    · obtain ⟨payload, hpayloadMem, n, he⟩ := exists_partner hrest.flip hmem
      cases he
      exact newTokenClass_usable hformats hbase huuid n (hpayload payload hpayloadMem)
        (hsound payload hpayloadMem)
  · obtain ⟨entry, hentry, n, rfl⟩ := exists_partner hrest hmem
    have hget : (after P E requests).tokenclasses.get payload.tokenClass =
        some (newTokenClass P E n payload) := by
      rw [JsMap.get_eq_some, hentries]
      exact List.mem_cons_of_mem _ hentry
    exact sound_of_usable hformats hbase huuid hsomeone (hpayload payload hmem) (husable _ _ hget)

/-- A registration with a symbol of its own. -/
def artClass : RegisterTokenClassInput :=
  { tokenClass := lit "ART", tokenStandard := lit "UNITS-NFT", name := lit "Art"
    schema := some [(lit "type", .str (lit "object"))]
    metadata := some [(lit "fungible", .bool false), (lit "symbol", .str (lit "ART"))] }

/-- One class is registered. -/
theorem registry_usable_art :
    ((∀ payload ∈ registrations Reference.primitives Reference.env
      [⟨none, .tokenClassRegister artClass⟩], sound Reference.primitives payload = true) →
      ∀ name tc, (after Reference.primitives Reference.env
        [⟨none, .tokenClassRegister artClass⟩]).tokenclasses.get name = some tc →
        Usable Reference.primitives Reference.env tc) ∧
      (SomeoneQualifies Reference.primitives Reference.env → (∀ name tc, (after Reference.primitives
        Reference.env [⟨none, .tokenClassRegister artClass⟩]).tokenclasses.get name = some tc →
        Usable Reference.primitives Reference.env tc) →
        ∀ payload ∈ registrations Reference.primitives Reference.env
          [⟨none, .tokenClassRegister artClass⟩], sound Reference.primitives payload = true) := by
  apply registry_usable Reference.formats Reference.base58 Reference.uuidText
  intro context payload h
  cases List.mem_singleton.mp h
  exact ⟨rfl, by decide⟩

/-! ### A class that nobody can mint of -/

/-- Alice, once she has her credential, qualifies. -/
theorem someoneQualifies (h : Reliable P E) : SomeoneQualifies P E :=
  ⟨20, (deedWorld P E none).credentials, (aliceAccount P E).did, aliceCredential P E none, 21,
    h.format _ _, alice_validCredential h (by decide)⟩

/-- The same with a symbol of eleven letters. -/
def longSymbol : RegisterTokenClassInput :=
  { artClass with
    metadata := some [(lit "fungible", .bool false), (lit "symbol", .str (lit "MASTERPIECE"))] }

/-- The registration is valid and accepted, and its class is in the registry and not usable. -/
theorem longSymbol_unusable : longSymbol.Valid Reference.primitives ∧
    ∃ tc, (after Reference.primitives Reference.env
      [⟨none, .tokenClassRegister longSymbol⟩]).tokenclasses.get (lit "ART") = some tc ∧
      ¬ Usable Reference.primitives Reference.env tc := by
  have hvalid : longSymbol.Valid Reference.primitives := ⟨rfl, by decide⟩
  refine ⟨hvalid, newTokenClass Reference.primitives Reference.env 2 longSymbol, rfl,
    fun husable => ?_⟩
  have hsound := sound_of_usable Reference.formats Reference.base58 Reference.uuidText
    (someoneQualifies reliable_reference) hvalid husable
  cases hsound

end Wayfinder.Service.Handlers

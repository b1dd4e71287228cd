import Wayfinder.Service.Credentials.Issued
import Wayfinder.Service.TokenClassSchema
import Wayfinder.Service.Tokens.Minted

/-! Whether a token class can be used: served as the specification has it, and minted of.

A registration is checked against the schema of its request, in which `metadata` and `schema`
are open objects. What they hold is asked for later, by the schema of the class when it is
served and by the schema of the token when it is minted. `sound` is what these ask of a
registration, and it is all they ask (`newTokenClass_usable`, `sound_of_usable`). -/
namespace Wayfinder.Service

open Js Credentials

namespace TokenClasses

/-! ### Classes and registrations as they are served -/

def ClassIdentity.toJson (identity : ClassIdentity) : Json :=
  .obj ([(lit "id", .str identity.id), (lit "type", .str identity.type)] ++
    identity.roles.toList.map fun roles => (lit "roles", .arr (roles.map .str)))

def TokenClass.fields (tc : TokenClass) : Fields :=
  [(lit "tokenClass", .str tc.tokenClass),
    (lit "tokenStandard", .str tc.tokenStandard), (lit "name", .str tc.name)] ++
    (tc.description.toList.map fun description => (lit "description", .str description)) ++
    [(lit "status", .str (lit "active")), (lit "schema", .obj tc.schema), (lit "identities",
      .arr (tc.identities.map ClassIdentity.toJson)), (lit "metadata", .obj tc.metadata)]

def TokenClass.toJson (tc : TokenClass) : Json := .obj tc.fields

def RegisterTokenClassInput.fields (input : RegisterTokenClassInput) : Fields :=
  [(lit "tokenClass", .str input.tokenClass), (lit "tokenStandard", .str input.tokenStandard),
    (lit "name", .str input.name)] ++ (input.description.toList.map fun description =>
      (lit "description", .str description)) ++ (input.schema.toList.map fun schema =>
        (lit "schema", .obj schema)) ++ (input.identities.toList.map fun identities =>
          (lit "identities", .arr (identities.map ClassIdentity.toJson))) ++
    (input.metadata.toList.map fun metadata => (lit "metadata", .obj metadata))

def RegisterTokenClassInput.toJson (input : RegisterTokenClassInput) : Json := .obj input.fields

/-- A request that passes the validator. Its metadata is an object, so no key stands twice. -/
structure RegisterTokenClassInput.Valid (P : Primitives)
    (input : RegisterTokenClassInput) : Prop where
  schema :
    Schema.validate P.validFormat TokenClassSchema.registerTokenClassRequest input.toJson = true
  keys : ((input.metadata.getD []).map Prod.fst).Nodup

/-- What the open objects of a registration have to hold. -/
def metadataAsked : Schema :=
  .record [] [("fungible", .boolean), ("decimals", TokenClassSchema.decimals),
    ("category", .string), ("tags", .arrayOf .string),
    ("symbol", .oneOf [.type .null, .all [.string, .minLength 1, .maxLength 10]])]

def sound (P : Primitives) (input : RegisterTokenClassInput) : Bool :=
  Schema.validate P.validFormat TokenClassSchema.instanceSchema (.obj (input.schema.getD [])) &&
    Schema.validate P.validFormat metadataAsked (.obj (input.metadata.getD []))

variable {P : Primitives} {E : Env}

/-! ### What is served -/

/-- `{ fungible: true, ...metadata, createdAt, updatedAt }` -/
theorem getField_metadata {n : Nat} {input : RegisterTokenClassInput}
    (hkeys : ((input.metadata.getD []).map Prod.fst).Nodup) {k : Str}
    (hcreated : lit "createdAt" ≠ k) (hupdated : lit "updatedAt" ≠ k) :
    getField (newTokenClass P E n input).metadata k =
      (getField (input.metadata.getD []) k).or (getField [(lit "fungible", .bool true)] k) := by
  have htimes : getField [(lit "createdAt", Json.str (E.now n)),
      (lit "updatedAt", .str (E.now n))] k = none := by
    simp [hcreated, hupdated]
  rw [newTokenClass, getField_assignFields _ _ _ htimes, getField_assignFields_or _ hkeys]

theorem getField_times (n : Nat) (input : RegisterTokenClassInput) {k : Str}
    (hk : k = lit "createdAt" ∨ k = lit "updatedAt") :
    getField (newTokenClass P E n input).metadata k = some (.str (E.now n)) := by
  have hkeys : (([(lit "createdAt", Json.str (E.now n)), (lit "updatedAt", .str (E.now n))] :
      Fields).map Prod.fst).Nodup := by
    show [lit "createdAt", lit "updatedAt"].Nodup
    decide
  rw [newTokenClass, getField_assignFields_or _ hkeys]
  rcases hk with rfl | rfl
  · rfl
  · rfl

theorem did_uriReference (hformats : P.Formats) (hbase : P.Base58) (k : Bytes) :
    P.validFormat .uriReference (Crypto.didKeyFromPublicKey P k).did = true :=
  hformats.did _ (hbase.alphabet _)

theorem now_dateTime (hformats : P.Formats) (E : Env) (n : Nat) :
    P.validFormat .dateTime (E.now n) = true :=
  hformats.dateTime _ (Nat.le_trans (Nat.le_add_right _ _) (E.clock_le n))

/-- A valid request names identities that the class can be served with; so does the default. -/
theorem identities_valid {n : Nat} {input : RegisterTokenClassInput} (hformats : P.Formats)
    (hbase : P.Base58) (h : input.Valid P) :
    Schema.validate P.validFormat (.arrayOf TokenClassSchema.identity)
      (.arr ((newTokenClass P E n input).identities.map ClassIdentity.toJson)) = true := by
  have hschema := h.schema
  obtain ⟨tokenClass, tokenStandard, name, description, schema, identities, metadata⟩ := input
  cases identities with
  | some identities =>
    refine Schema.record_field hschema (k := "identities") (by simp) ?_
    cases description <;> cases schema <;> rfl
  | none =>
    rw [Schema.validate_arrayOf]
    show (Schema.validate _ TokenClassSchema.identity _ && true) = true
    rw [Bool.and_true]
    apply Schema.record_intro rfl
    have hid : Schema.validate P.validFormat (.stringOf .uriReference)
        (.str (issuerInfo P E).did) = true := by
      rw [Schema.validate_stringOf]
      exact did_uriReference hformats hbase _
    simp only [List.forall_mem_cons, List.not_mem_nil, false_imp_iff, implies_true, and_true]
    exact ⟨hid, rfl, rfl⟩

/-- The class of a valid registration is served as specified when its open objects hold what is
asked of them. -/
theorem validate_tokenClass {n : Nat} {input : RegisterTokenClassInput} (hformats : P.Formats)
    (hbase : P.Base58) (h : input.Valid P) :
    Schema.validate P.validFormat TokenClassSchema.tokenClass (newTokenClass P E n input).toJson =
      true ↔ Schema.validate P.validFormat TokenClassSchema.instanceSchema
        (.obj (newTokenClass P E n input).schema) = true ∧
      Schema.validate P.validFormat TokenClassSchema.classMetadata
        (.obj (newTokenClass P E n input).metadata) = true := by
  have hidentities := identities_valid (E := E) (n := n) hformats hbase h
  generalize newTokenClass P E n input = tc at hidentities ⊢
  obtain ⟨tokenClass, tokenStandard, name, description, schema, identities, metadata⟩ := tc
  refine ⟨fun hvalid => ⟨?_, ?_⟩, fun hvalid => ?_⟩
  · refine Schema.record_field hvalid (k := "schema") (by simp) ?_
    cases description <;> rfl
  · refine Schema.record_field hvalid (k := "metadata") (by simp) ?_
    cases description <;> rfl
  · apply Schema.record_intro
    · cases description <;> rfl
    · simp only [List.forall_mem_cons, List.not_mem_nil, false_imp_iff, implies_true, and_true]
      cases description with
      | none => exact ⟨rfl, rfl, rfl, rfl, rfl, hvalid.1, hidentities, rfl, hvalid.2⟩
      | some description => exact ⟨rfl, rfl, rfl, rfl, rfl, hvalid.1, hidentities, rfl, hvalid.2⟩

end TokenClasses

namespace Tokens

open TokenClasses

variable {P : Primitives} {E : Env}

/-! ### What is minted -/

theorem proof_valid {proof : VcProof}
    (h : Schema.validate P.validFormat CredentialSchema.proof proof.toJson = true) :
    Schema.validate P.validFormat TokenSchema.proof proof.toJson = true := by
  apply Schema.record_intro rfl
  simp only [List.forall_mem_cons, List.not_mem_nil, false_imp_iff, implies_true, and_true]
  have hcreated :
      Schema.validate P.validFormat CredentialSchema.dateTime (.str proof.created) = true :=
    Schema.record_field h (k := "created") (by simp) rfl
  have hmethod :
      Schema.validate P.validFormat CredentialSchema.uri (.str proof.verificationMethod) = true :=
    Schema.record_field h (k := "verificationMethod") (by simp) rfl
  exact ⟨rfl, hcreated, hmethod, rfl, rfl⟩

theorem subject_valid (hformats : P.Formats) {subject : Fields}
    (h : Schema.validate P.validFormat CredentialSchema.credentialSubject (.obj subject) = true) :
    Schema.validate P.validFormat (.record ["id"] [("id", TokenSchema.uriReference)])
      (.obj subject) = true := by
  have hrequired := Schema.record_required h (k := "id") (by simp)
  obtain ⟨id, hid⟩ := Option.isSome_iff_exists.mp hrequired
  have huri : Schema.validate P.validFormat CredentialSchema.uri id = true :=
    Schema.record_field h (k := "id") (by simp) hid
  have hreference : Schema.validate P.validFormat TokenSchema.uriReference id = true := by
    rw [CredentialSchema.uri, Schema.stringOf, Schema.validate_all, List.all_cons,
      Bool.and_eq_true] at huri
    obtain ⟨text, rfl⟩ := Schema.hasType_string huri.1
    rw [TokenSchema.uriReference, Schema.validate_stringOf]
    exact hformats.uri text (by simpa [Schema.validate, Schema.onString] using huri.2)
  apply Schema.record_intro
  · simp [hid]
  · simp [hid, hreference]

/-- The schema of credentials asks of a claim all that the schema of tokens does. -/
theorem claim_valid (hformats : P.Formats) {vc : Vc}
    (h : Schema.validate P.validFormat CredentialSchema.verifiableCredential vc.toJson = true) :
    Schema.validate P.validFormat TokenSchema.claim vc.toJson = true := by
  have hid : Schema.validate P.validFormat CredentialSchema.uri (.str vc.id) = true :=
    Schema.record_field h (k := "id") (by simp) rfl
  have hissuer : Schema.validate P.validFormat (.oneOf [CredentialSchema.uri,
    .record ["id"] [("id", CredentialSchema.uri), ("name", .string)]]) (.str vc.issuer) = true :=
    Schema.record_field h (k := "issuer") (by simp) rfl
  have hdate :
      Schema.validate P.validFormat CredentialSchema.dateTime (.str vc.issuanceDate) = true :=
    Schema.record_field h (k := "issuanceDate") (by simp) rfl
  have hsubject : Schema.validate P.validFormat CredentialSchema.credentialSubject
      (.obj vc.credentialSubject) = true :=
    Schema.record_field h (k := "credentialSubject") (by simp) rfl
  rw [Schema.validate_oneOf_left rfl, CredentialSchema.uri, Schema.validate_stringOf] at hissuer
  have hreference :
      Schema.validate P.validFormat TokenSchema.uriReference (.str vc.issuer) = true := by
    rw [TokenSchema.uriReference, Schema.validate_stringOf]
    exact hformats.uri _ hissuer
  have htexts (texts : List Str) : Schema.validate P.validFormat
      (.oneOf [.string, .arrayOf .string]) (.arr (texts.map .str)) = true := by
    rw [Schema.validate_oneOf_right rfl]
    exact Schema.validate_strings texts
  obtain ⟨id, context, type, issuer, issuanceDate, validFrom, validUntil, subject, status, schema,
    proof⟩ := vc
  apply Schema.record_intro
  · cases proof <;> rfl
  · simp only [List.forall_mem_cons, List.not_mem_nil, false_imp_iff, implies_true, and_true]
    refine ⟨hid, htexts context, htexts type, hreference, hdate, ?_, ?_,
      subject_valid hformats hsubject, ?_, ?_⟩
    · cases proof <;> rfl
    · cases proof <;> rfl
    · cases proof with
      | none => rfl
      | some proof =>
        have hproof : Schema.validate P.validFormat
          (.oneOf [CredentialSchema.proof, .arrayOf CredentialSchema.proof]) proof.toJson = true :=
          Schema.record_field h (k := "proof") (by simp) rfl
        rw [Schema.validate_oneOf_left rfl] at hproof
        exact proof_valid hproof
    · cases proof <;> rfl

/-- What the compliance hook passes on fits into a token. -/
theorem complianceHook_claim (hformats : P.Formats) {n m : Nat} {credentials : Credentials.State}
    {tc : TokenClass} {ownerDid : Str} {claim : Option Vc}
    (h : complianceHook P E n credentials tc ownerDid = .ok (.passed claim m)) :
    ∀ vc ∈ claim, Schema.validate P.validFormat TokenSchema.claim vc.toJson = true := by
  intro vc hvc
  rcases (complianceHook_passed h).2 with ⟨_, rfl⟩ | ⟨_, credential, hfound, rfl⟩
  · cases hvc
  · obtain ⟨k, result, hresult, hvalid⟩ := findValid_valid hfound
    obtain ⟨first, status, notExpired, _, _, _, rfl⟩ := verifyCredential_ok.mp hresult
    have hcredential : validateCredential P credential.toJson = true := by
      simp only [Checks.valid, checksOf, Bool.and_eq_true] at hvalid
      exact hvalid.1.1.1
    have hclaims : Schema.validate P.validFormat
        (.all [.arrayOf CredentialSchema.verifiableCredential, .minItems 1])
        (.arr (credential.claims.map Vc.toJson)) = true :=
      Schema.record_field hcredential (k := "claims") (by simp) rfl
    rw [Schema.validate_all, List.all_cons, Bool.and_eq_true, Schema.validate_arrayOf,
      List.all_eq_true] at hclaims
    exact claim_valid hformats (hclaims.1 vc (List.mem_of_mem_head? hvc))

/-- The identity that a token of a class names as its issuer. -/
def issuerOf (P : Primitives) (E : Env) (tc : TokenClass) : Str :=
  (tc.identities.head?.map ClassIdentity.id).getD (issuerInfo P E).did

def symbolOf (tc : TokenClass) : Json :=
  orElse (getField tc.metadata (lit "symbol")) (.str (lit "TKN"))

def decimalsOf (tc : TokenClass) : Json :=
  orElse (getField tc.metadata (lit "decimals")) (.num .zero)

def symbolAsked : Schema := .all [.string, .minLength 1, .maxLength 10]

theorem identities_uriReference {issuerDid ownerDid : Str}
    (hissuer : P.validFormat .uriReference issuerDid = true)
    (howner : P.validFormat .uriReference ownerDid = true) :
    Schema.validate P.validFormat (.arrayOf TokenSchema.identity)
      (.arr ([⟨issuerDid, lit "issuer"⟩, ⟨ownerDid, lit "owner"⟩].map Identity.toJson)) = true := by
  have hidentity (did type : Str) (hdid : P.validFormat .uriReference did = true)
      (htype : Schema.validate P.validFormat (.stringIn ["issuer", "creator", "owner",
        "operator", "custodian", "manager", "controller"]) (.str type) = true) :
      Schema.validate P.validFormat TokenSchema.identity (Identity.toJson ⟨did, type⟩) = true := by
    apply Schema.closedRecord_intro rfl
    apply Schema.record_intro rfl
    simp only [List.forall_mem_cons, List.not_mem_nil, false_imp_iff, implies_true, and_true]
    refine ⟨?_, htype, rfl⟩
    show Schema.validate P.validFormat TokenSchema.uriReference (.str did) = true
    rwa [TokenSchema.uriReference, Schema.validate_stringOf]
  rw [Schema.validate_arrayOf, List.all_eq_true]
  simp only [List.forall_mem_cons, List.not_mem_nil, false_imp_iff, implies_true, and_true]
  exact ⟨hidentity _ _ hissuer rfl, hidentity _ _ howner rfl⟩

/-- What decides whether a token of a class is accepted: the symbol and the decimals that the
class gives it. -/
theorem validateToken_iff (hformats : P.Formats) (huuid : E.UuidText) {n : Nat} {tc : TokenClass}
    {claim : Option Vc} {input : MintInput} {name : Str} (hname : input.name = some (.str name))
    (hne : name ≠ []) (hissuer : P.validFormat .uriReference (issuerOf P E tc) = true)
    (howner : P.validFormat .uriReference input.ownerDid = true)
    (hclaim : ∀ vc ∈ claim, Schema.validate P.validFormat TokenSchema.claim vc.toJson = true) :
    validateToken P (newToken P E n tc claim input).toJson = true ↔
      Schema.validate P.validFormat symbolAsked (symbolOf tc) = true ∧
      Schema.validate P.validFormat TokenClassSchema.decimals (decimalsOf tc) = true := by
  have hnow : Schema.validate P.validFormat TokenSchema.dateTime (.str (E.now n)) = true := by
    rw [TokenSchema.dateTime, Schema.validate_stringOf]
    exact now_dateTime hformats E n
  have hid : Schema.validate P.validFormat TokenSchema.uriReference
      (.str (lit "urn:uuid:token-" ++ E.uuid (n + 1))) = true := by
    rw [TokenSchema.uriReference, Schema.validate_stringOf]
    exact hformats.tokenId _ (huuid _)
  refine ⟨fun h => ?_, fun h => ?_⟩
  · have hmetadata : Schema.validate P.validFormat TokenSchema.metadata
        (newToken P E n tc claim input).metadata.toJson = true :=
      Schema.closedRecord_field h (k := "metadata") (by simp) rfl
    exact ⟨Schema.closedRecord_field hmetadata (k := "symbol") (by simp [symbolAsked]) rfl,
      Schema.closedRecord_field hmetadata (k := "decimals")
        (by simp [TokenClassSchema.decimals]) rfl⟩
  · have hnameAsked : Schema.validate P.validFormat (.all [.string, .minLength 1])
        (orElse input.name (.str tc.name)) = true := by
      rw [hname, Schema.validate_all, List.all_cons, List.all_cons, List.all_nil, Bool.and_true]
      show (true && decide (1 ≤ Schema.characters name)) = true
      rw [Bool.true_and, decide_eq_true_eq]
      exact Schema.characters_pos hne
    have hfungibility : Schema.validate P.validFormat (.stringIn ["fungible", "nonFungible",
        "semiFungible"]) (.str (if truthy (getField tc.metadata (lit "fungible")) then
        lit "fungible" else lit "nonFungible")) = true := by
      split <;> rfl
    have hmetadata : Schema.validate P.validFormat TokenSchema.metadata
        (newToken P E n tc claim input).metadata.toJson = true := by
      apply Schema.closedRecord_intro rfl
      apply Schema.record_intro rfl
      simp only [List.forall_mem_cons, List.not_mem_nil, false_imp_iff, implies_true, and_true]
      exact ⟨rfl, hnameAsked, h.1, h.2, hfungibility, rfl, rfl, rfl, rfl, rfl, rfl, rfl, rfl, rfl,
        rfl, rfl, hnow, hnow⟩
    have hstate : Schema.validate P.validFormat TokenSchema.state
        (newToken P E n tc claim input).state.toJson = true := by
      apply Schema.record_intro rfl
      simp only [List.forall_mem_cons, List.not_mem_nil, false_imp_iff, implies_true, and_true]
      exact ⟨rfl, hnow, rfl, rfl, rfl, rfl, rfl, rfl⟩
    have hidentities : Schema.validate P.validFormat (.arrayOf TokenSchema.identity)
        (.arr ((newToken P E n tc claim input).identities.map Identity.toJson)) = true :=
      identities_uriReference hissuer howner
    have hclaims : ∀ vc ∈ claim, Schema.validate P.validFormat (.arrayOf TokenSchema.claim)
        (.arr ([vc].map Vc.toJson)) = true := by
      intro vc hvc
      rw [Schema.validate_arrayOf, List.all_cons, hclaim vc hvc]
      rfl
    apply Schema.closedRecord_intro
    · cases claim <;> rfl
    · apply Schema.record_intro
      · cases claim <;> rfl
      · simp only [List.forall_mem_cons, List.not_mem_nil, false_imp_iff, implies_true, and_true]
        refine ⟨rfl, rfl, hid, hmetadata, rfl, ?_, ?_, ?_⟩
        · cases claim with
          | none => rfl
          | some vc => exact hclaims vc rfl
        · cases claim <;> exact hidentities
        · cases claim <;> exact hstate

/-! ### Usable classes -/

section
variable (P E)

/-- A class is served as specified, and whoever passes the compliance hook can mint of it. -/
structure Usable (tc : TokenClass) : Prop where
  served : Schema.validate P.validFormat TokenClassSchema.tokenClass tc.toJson = true
  minted : ∀ (n m : Nat) (credentials : Credentials.State)
    (classes : TokenClasses.State) (s : State) (ledger : Ledger.State)
    (ownerDid name initialSupply : Str) (data : Option Fields) (claim : Option Vc),
    classes.get tc.tokenClass = some tc → P.validFormat .uriReference ownerDid = true → name ≠ [] →
    complianceHook P E n credentials tc ownerDid = .ok (.passed claim m) →
    ∃ tokens ledger' token next, mintToken P E n credentials classes s ledger ⟨tc.tokenClass,
      ownerDid, initialSupply, some (.str name), data⟩ = .ok (.ok tokens ledger' token next)

/-- Somebody holds a valid credential. -/
def SomeoneQualifies : Prop := ∃ n credentials ownerDid credential next,
  P.validFormat .uriReference ownerDid = true ∧
    validCredentialFor P E n credentials ownerDid = .ok (some credential, next)

end

/-- Where somebody qualifies, somebody passes the hook of any class. -/
theorem SomeoneQualifies.passes (h : SomeoneQualifies P E) (tc : TokenClass) :
    ∃ n m credentials ownerDid claim, P.validFormat .uriReference ownerDid = true ∧
      complianceHook P E n credentials tc ownerDid = .ok (.passed claim m) := by
  obtain ⟨n, credentials, ownerDid, credential, next, howner, hfound⟩ := h
  by_cases hkyc : tc.requiresKYC = true
  · refine ⟨n, next, credentials, ownerDid, credential.claims.head?, howner, ?_⟩
    rw [complianceHook, if_pos hkyc, hfound]
    rfl
  · refine ⟨n, n, credentials, ownerDid, none, howner, ?_⟩
    rw [complianceHook, if_neg hkyc]

/-- A class is usable when it is served as specified and gives its tokens a symbol and
decimals that the schema of tokens accepts. -/
theorem usable_of (hformats : P.Formats) (huuid : E.UuidText) {tc : TokenClass}
    (hissuer : P.validFormat .uriReference (issuerOf P E tc) = true)
    (hserved : Schema.validate P.validFormat TokenClassSchema.tokenClass tc.toJson = true)
    (hsymbol : Schema.validate P.validFormat symbolAsked (symbolOf tc) = true)
    (hdecimals : Schema.validate P.validFormat TokenClassSchema.decimals (decimalsOf tc) = true) :
    Usable P E tc where
  served := hserved
  minted := by
    intro n m credentials classes s ledger ownerDid name initialSupply data claim hclass
      howner hne hgate
    have hvalid : validateToken P (newToken P E m tc claim
        ⟨tc.tokenClass, ownerDid, initialSupply, some (.str name), data⟩).toJson = true :=
      (validateToken_iff hformats huuid rfl hne hissuer howner
        (complianceHook_claim hformats hgate)).mpr ⟨hsymbol, hdecimals⟩
    exact ⟨_, _, _, _, mintToken_succeeds s ledger hclass hgate hvalid⟩

/-- Somebody who qualifies mints of a usable class, so its symbol and decimals are accepted. -/
theorem Usable.asked (hformats : P.Formats) (huuid : E.UuidText) (hsomeone : SomeoneQualifies P E)
    {tc : TokenClass} (hissuer : P.validFormat .uriReference (issuerOf P E tc) = true)
    (h : Usable P E tc) :
    Schema.validate P.validFormat symbolAsked (symbolOf tc) = true ∧
      Schema.validate P.validFormat TokenClassSchema.decimals (decimalsOf tc) = true := by
  obtain ⟨n, m, credentials, ownerDid, claim, howner, hgate⟩ := hsomeone.passes tc
  have hclass : (JsMap.empty.set tc.tokenClass tc).get tc.tokenClass = some tc :=
    JsMap.get_set_self _ _ _
  obtain ⟨tokens, ledger, token, next, hmint⟩ := h.minted n m credentials _ .empty .empty ownerDid
    (lit "token") [] none claim hclass howner (by decide) hgate
  obtain ⟨tc', claim', m', hclass', hgate', hvalid, _⟩ := mintToken_ok hmint
  rw [hclass] at hclass'
  cases hclass'
  rw [hgate] at hgate'
  cases hgate'
  exact (validateToken_iff hformats huuid rfl (by decide) hissuer howner
    (complianceHook_claim hformats hgate)).mp hvalid

/-- The class that the service starts with is usable. -/
theorem propDeed_usable (hformats : P.Formats) (hbase : P.Base58) (huuid : E.UuidText) :
    Usable P E (propDeed P E) := by
  have hissuer : P.validFormat .uriReference (issuerInfo P E).did = true :=
    did_uriReference hformats hbase _
  refine usable_of hformats huuid hissuer ?_ rfl rfl
  have hnow : Schema.validate P.validFormat (.stringOf .dateTime) (.str (E.now 1)) = true := by
    rw [Schema.validate_stringOf]
    exact now_dateTime hformats E 1
  have hidentity : Schema.validate P.validFormat TokenClassSchema.identity
      (ClassIdentity.toJson ⟨(issuerInfo P E).did, lit "issuer",
        some [lit "admin", lit "minter", lit "compliance"]⟩) = true := by
    apply Schema.record_intro rfl
    simp only [List.forall_mem_cons, List.not_mem_nil, false_imp_iff, implies_true, and_true]
    refine ⟨?_, rfl, rfl⟩
    show Schema.validate P.validFormat (.stringOf .uriReference) (.str (issuerInfo P E).did) = true
    rwa [Schema.validate_stringOf]
  have hidentities : Schema.validate P.validFormat (.arrayOf TokenClassSchema.identity)
      (.arr ((propDeed P E).identities.map ClassIdentity.toJson)) = true := by
    rw [Schema.validate_arrayOf]
    exact (Bool.and_true _).trans hidentity
  have hmetadata : Schema.validate P.validFormat TokenClassSchema.classMetadata
      (.obj (propDeed P E).metadata) = true := by
    apply Schema.record_intro rfl
    simp only [List.forall_mem_cons, List.not_mem_nil, false_imp_iff, implies_true, and_true]
    exact ⟨rfl, rfl, rfl, rfl, hnow, hnow⟩
  apply Schema.record_intro rfl
  simp only [List.forall_mem_cons, List.not_mem_nil, false_imp_iff, implies_true, and_true]
  exact ⟨rfl, rfl, rfl, rfl, rfl, rfl, hidentities, rfl, hmetadata⟩

/-! ### Sound registrations -/

/-- A record that requires nothing asks of each field that is there. -/
theorem validate_fields {fields : List (String × Schema)} {fs : Fields} :
    Schema.validate P.validFormat (.record [] fields) (.obj fs) = true ↔ ∀ p ∈ fields, ∀ v,
      getField fs (lit p.1) = some v → Schema.validate P.validFormat p.2 v = true := by
  rw [Schema.validate_record, List.map_nil, List.all_nil, Bool.true_and, List.all_eq_true]
  apply forall_congr'
  intro p
  apply imp_congr_right
  intro _
  cases getField fs (lit p.1) <;> simp

theorem symbolAsked_iff {metadata : Fields} :
    Schema.validate P.validFormat symbolAsked
      (orElse (getField metadata (lit "symbol")) (.str (lit "TKN"))) = true ↔
      ∀ v, getField metadata (lit "symbol") = some v →
        Schema.validate P.validFormat (.oneOf [.type .null, symbolAsked]) v = true := by
  cases getField metadata (lit "symbol") with
  | none => exact ⟨fun _ _ h => absurd h (by simp), fun _ => rfl⟩
  | some v =>
    refine ⟨fun h w hw => ?_, fun h => ?_⟩
    · cases hw
      cases v with
      | null => rfl
      | _ => rwa [Schema.validate_oneOf_right rfl]
    · have hv := h v rfl
      cases v with
      | null => rfl
      | _ => rwa [Schema.validate_oneOf_right rfl] at hv

theorem decimals_asked {metadata : Fields}
    (h : ∀ v, getField metadata (lit "decimals") = some v →
      Schema.validate P.validFormat TokenClassSchema.decimals v = true) :
    Schema.validate P.validFormat TokenClassSchema.decimals
      (orElse (getField metadata (lit "decimals")) (.num .zero)) = true := by
  cases hv : getField metadata (lit "decimals") with
  | none => rfl
  | some v =>
    have hv := h v hv
    cases v with
    | null => cases hv
    | _ => exact hv

/-- The metadata of a class is as asked, and gives its tokens what is asked of them, when the
metadata of the registration is. -/
theorem metadata_iff {n : Nat} {input : RegisterTokenClassInput} (hformats : P.Formats)
    (h : input.Valid P) :
    Schema.validate P.validFormat metadataAsked (.obj (input.metadata.getD [])) = true ↔
      Schema.validate P.validFormat TokenClassSchema.classMetadata
        (.obj (newTokenClass P E n input).metadata) = true ∧
      Schema.validate P.validFormat symbolAsked (symbolOf (newTokenClass P E n input)) = true ∧
      Schema.validate P.validFormat TokenClassSchema.decimals
        (decimalsOf (newTokenClass P E n input)) = true := by
  have hfield {k : Str} (hcreated : lit "createdAt" ≠ k)
      (hupdated : lit "updatedAt" ≠ k) (hfungible : lit "fungible" ≠ k) :
      getField (newTokenClass P E n input).metadata k = getField (input.metadata.getD []) k := by
    rw [getField_metadata h.keys hcreated hupdated, getField_cons, if_neg hfungible, getField_nil,
      Option.or_none]
  have hfungible := getField_metadata (P := P) (E := E) (n := n) h.keys (show lit "createdAt" ≠
    lit "fungible" by decide) (show lit "updatedAt" ≠ lit "fungible" by decide)
  have hsymbol := hfield (show lit "createdAt" ≠ lit "symbol" by decide)
    (show lit "updatedAt" ≠ lit "symbol" by decide) (show lit "fungible" ≠ lit "symbol" by decide)
  have hdecimals := hfield (show lit "createdAt" ≠ lit "decimals" by decide) (show lit "updatedAt" ≠
    lit "decimals" by decide) (show lit "fungible" ≠ lit "decimals" by decide)
  have hcategory := hfield (show lit "createdAt" ≠ lit "category" by decide) (show lit "updatedAt" ≠
    lit "category" by decide) (show lit "fungible" ≠ lit "category" by decide)
  have htags := hfield (show lit "createdAt" ≠ lit "tags" by decide)
    (show lit "updatedAt" ≠ lit "tags" by decide) (show lit "fungible" ≠ lit "tags" by decide)
  have hcreated := getField_times (P := P) (E := E) n input (.inl rfl)
  have hupdated := getField_times (P := P) (E := E) n input (.inr rfl)
  have hnow : Schema.validate P.validFormat (.stringOf .dateTime) (.str (E.now n)) = true := by
    rw [Schema.validate_stringOf]
    exact now_dateTime hformats E n
  rw [symbolOf, decimalsOf, hsymbol, hdecimals, symbolAsked_iff, metadataAsked,
    TokenClassSchema.classMetadata, validate_fields, validate_fields]
  simp only [List.forall_mem_cons, List.not_mem_nil, false_imp_iff, implies_true, and_true,
    hfungible, hdecimals, hcategory, htags, hcreated, hupdated]
  have htime : ∀ v, some (Json.str (E.now n)) = some v →
      Schema.validate P.validFormat (.stringOf .dateTime) v = true := by
    intro v hv
    cases hv
    exact hnow
  refine ⟨fun ⟨hf, hd, hc, ht, hs⟩ => ⟨⟨?_, hd, hc, ht, htime, htime⟩, hs, decimals_asked hd⟩,
    fun ⟨⟨hf, hd, hc, ht, _, _⟩, hs, _⟩ => ⟨?_, hd, hc, ht, hs⟩⟩
  · intro v hv
    cases hget : getField (input.metadata.getD []) (lit "fungible") with
    | none =>
      rw [hget] at hv
      cases hv
      rfl
    | some w =>
      rw [hget] at hv
      cases hv
      exact hf v hget
  · intro v hv
    apply hf v
    rw [hv]
    rfl

/-- A valid registration names issuers that are URI references. -/
theorem issuerOf_uriReference {n : Nat} {input : RegisterTokenClassInput} (hformats : P.Formats)
    (hbase : P.Base58) (h : input.Valid P) :
    P.validFormat .uriReference (issuerOf P E (newTokenClass P E n input)) = true := by
  have hidentities := identities_valid (E := E) (n := n) hformats hbase h
  unfold issuerOf
  cases hids : (newTokenClass P E n input).identities with
  | nil => exact did_uriReference hformats hbase _
  | cons identity rest =>
    rw [hids, Schema.validate_arrayOf, List.all_cons, Bool.and_eq_true] at hidentities
    have hid : Schema.validate P.validFormat (.stringOf .uriReference) (.str identity.id) = true :=
      Schema.record_field hidentities.1 (k := "id") (by simp) rfl
    rwa [Schema.validate_stringOf] at hid

/-- A valid registration has a schema. -/
theorem schema_newTokenClass {n : Nat} {input : RegisterTokenClassInput} (h : input.Valid P) :
    (newTokenClass P E n input).schema = input.schema.getD [] := by
  have hrequired := Schema.record_required h.schema (k := "schema") (by simp)
  obtain ⟨tokenClass, tokenStandard, name, description, schema, identities, metadata⟩ := input
  cases schema with
  | some schema => rfl
  | none => cases description <;> cases identities <;> cases metadata <;> cases hrequired

/-- Of a sound registration comes a usable class. -/
theorem newTokenClass_usable (hformats : P.Formats) (hbase : P.Base58) (huuid : E.UuidText)
    (n : Nat) {input : RegisterTokenClassInput} (h : input.Valid P)
    (hsound : sound P input = true) :
    Usable P E (newTokenClass P E n input) := by
  rw [sound, Bool.and_eq_true, metadata_iff (E := E) (n := n) hformats h,
    ← schema_newTokenClass (E := E) (n := n) h] at hsound
  exact usable_of hformats huuid (issuerOf_uriReference hformats hbase h)
    ((validate_tokenClass hformats hbase h).mpr ⟨hsound.1, hsound.2.1⟩) hsound.2.2.1 hsound.2.2.2

/-- A usable class comes of a sound registration. -/
theorem sound_of_usable (hformats : P.Formats) (hbase : P.Base58) (huuid : E.UuidText)
    (hsomeone : SomeoneQualifies P E) {n : Nat} {input : RegisterTokenClassInput}
    (h : input.Valid P) (husable : Usable P E (newTokenClass P E n input)) :
    sound P input = true := by
  have hserved := (validate_tokenClass hformats hbase h).mp husable.served
  have hasked := husable.asked hformats huuid hsomeone (issuerOf_uriReference hformats hbase h)
  rw [sound, Bool.and_eq_true, metadata_iff (E := E) (n := n) hformats h,
    ← schema_newTokenClass (E := E) (n := n) h]
  exact ⟨hserved.1, hserved.2, hasked⟩

end Tokens

end Wayfinder.Service

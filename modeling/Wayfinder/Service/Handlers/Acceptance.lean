import Wayfinder.Service.Handlers.Compliance
import Wayfinder.Service.Tokens.Usable

/-! Which credentials the service issues.

A credential is checked against the vendored schema after it is signed. Most of it the service
writes itself and always rightly; the rest comes from the request. `Issuable` is what the schema
asks of a request, and it is all it asks (`validateCredential_issued`, `issue_iff`). -/
namespace Wayfinder.Service.Handlers

open Js Credentials
open TokenClasses (did_uriReference now_dateTime)

variable {P : Primitives} {E : Env}

/-! ### What the service writes -/

theorem validate_uri {t : Str} (h : P.validFormat .uri t = true) :
    Schema.validate P.validFormat CredentialSchema.uri (.str t) = true := by
  rwa [CredentialSchema.uri, Schema.validate_stringOf]

theorem validate_dateTime (hformats : P.Formats) {t : Nat} (ht : t ≤ Date.lastInstant) :
    Schema.validate P.validFormat CredentialSchema.dateTime (.str (Date.toISOString t)) = true := by
  rw [CredentialSchema.dateTime, Schema.validate_stringOf]
  exact hformats.dateTime t ht

theorem did_uri (huris : P.Uris) (hb : P.Base58) (k : Bytes) :
    P.validFormat .uri (Service.Crypto.didKeyFromPublicKey P k).did = true :=
  huris.did _ (hb.alphabet _)

/-- The proof that the issuer puts on a credential fits. -/
theorem proofOf_valid (huris : P.Uris) (hformats : P.Formats) (hb : P.Base58) (n : Nat)
    (proofValue : Str) :
    Schema.validate P.validFormat CredentialSchema.proof
      (proofOf P E n proofValue).toJson = true := by
  have hcreated := validate_dateTime hformats (Nat.le_trans (Nat.le_add_right _ _) (E.clock_le n))
  have hmethod : Schema.validate P.validFormat CredentialSchema.uri
      (.str (issuerVerificationMethod P E)) = true :=
    validate_uri (huris.method _ (hb.alphabet _))
  apply Schema.record_intro rfl
  simp only [List.forall_mem_cons, List.not_mem_nil, false_imp_iff, implies_true, and_true]
  exact ⟨rfl, hcreated, hmethod, rfl, rfl, rfl, rfl, rfl, rfl⟩

/-- The signed claim fits when its subject does. -/
theorem signedVc_valid (huris : P.Uris) (hformats : P.Formats) (hb : P.Base58) (huuid : E.UuidText)
    {n : Nat} {input : IssueInput}
    (hsubject : Schema.validate P.validFormat CredentialSchema.credentialSubject
      (.obj (unsignedVc P E n input).credentialSubject) = true) :
    Schema.validate P.validFormat CredentialSchema.verifiableCredential
      (signedVc P E n input).toJson = true := by
  have hid := validate_uri (huris.numbered (lit "urn:uuid:vc-") (by simp) _ (huuid (n + 3)))
  have hissuer := validate_uri (did_uri huris hb (issuerKeys P E).publicKey)
  have hnow := validate_dateTime hformats (Nat.le_trans (Nat.le_add_right _ _) (E.clock_le n))
  have hend := validate_dateTime hformats (E.clock_le (n + 1))
  have hstatusId : Schema.validate P.validFormat CredentialSchema.uri
      (.str (lit "urn:finternet:standin:status:" ++ (lit "urn:uuid:cred-" ++ E.uuid (n + 2)))) =
      true := by
    have hname : lit "urn:finternet:standin:status:" ++ lit "urn:uuid:cred-" =
        lit "urn:finternet:standin:status:urn:uuid:cred-" := by decide
    rw [← List.append_assoc, hname]
    exact validate_uri (huris.numbered _ (by simp) _ (huuid (n + 2)))
  have hlist := validate_uri (huris.fixed (lit "urn:finternet:standin:status-list") (by simp))
  have hschema := validate_uri (huris.fixed
    (lit "https://finternet-io.github.io/specs/schemas/credential/v1/credential.schema.json")
    (by simp))
  have hproof := proofOf_valid (E := E) huris hformats hb n
    (bytesToHex (issuerSignature P E (unsignedVc P E n input)))
  have hissuer' : Schema.validate P.validFormat (.oneOf [CredentialSchema.uri, .record ["id"]
      [("id", CredentialSchema.uri), ("name", .string)]]) (.str (issuerInfo P E).did) = true := by
    rwa [Schema.validate_oneOf_left rfl]
  have hproof' : Schema.validate P.validFormat
      (.oneOf [CredentialSchema.proof, .arrayOf CredentialSchema.proof]) (proofOf P E n
        (bytesToHex (issuerSignature P E (unsignedVc P E n input)))).toJson = true := by
    rwa [Schema.validate_oneOf_left rfl]
  have hstatus : Schema.validate P.validFormat CredentialSchema.credentialStatus
      (.obj (unsignedVc P E n input).credentialStatus) = true := by
    apply Schema.record_intro rfl
    simp only [List.forall_mem_cons, List.not_mem_nil, false_imp_iff, implies_true, and_true]
    exact ⟨hstatusId, rfl, rfl, rfl, hlist⟩
  have hvcSchema : Schema.validate P.validFormat CredentialSchema.vcSchema
      (.obj (unsignedVc P E n input).credentialSchema) = true := by
    apply Schema.record_intro rfl
    simp only [List.forall_mem_cons, List.not_mem_nil, false_imp_iff, implies_true, and_true]
    exact ⟨hschema, rfl⟩
  apply Schema.record_intro rfl
  simp only [List.forall_mem_cons, List.not_mem_nil, false_imp_iff, implies_true, and_true]
  exact ⟨hid, rfl, rfl, hissuer', hnow, hnow, rfl, hend, hsubject, hstatus, hvcSchema, rfl,
    rfl, hproof'⟩

/-! ### What the request has to bring -/

section
variable (P)

/-- What the schema asks of a request: a holder that is a URI, one of six types, one of four levels,
and a subject of the right shape. -/
structure Issuable (input : IssueInput) : Prop where
  holder : P.validFormat .uri input.holderDid = true
  type : Schema.validate P.validFormat CredentialSchema.credentialType
    (orElse input.credentialType (.str (lit "kycVerification"))) = true
  level : Schema.validate P.validFormat CredentialSchema.verificationLevel
    (orElse input.verificationLevel (.str (lit "enhanced"))) = true
  subject : Schema.validate P.validFormat CredentialSchema.credentialSubject (.obj (assignFields
    [(lit "id", .str input.holderDid)] (orElse input.subject (.obj [])).spread)) = true

end

/-- The metadata asks for the type and the level. -/
theorem issuedMetadata_valid (hformats : P.Formats) {n : Nat} {input : IssueInput} (levelText : Str)
    (vc : Vc) (h : Issuable P input) :
    Schema.validate P.validFormat CredentialSchema.credentialMetadata
      (.obj (wrap P E n input levelText vc).metadata) = true := by
  have hnow := validate_dateTime hformats (Nat.le_trans (Nat.le_add_right _ _) (E.clock_le n))
  have hname : Schema.validate P.validFormat (.all [.string, .minLength 1])
      (.str (lit "KYC Verification (" ++ levelText ++ lit ")")) = true := by
    rw [Schema.validate_all, List.all_cons, List.all_cons, List.all_nil, Bool.and_true]
    show (true &&
      decide (1 ≤ Schema.characters (lit "KYC Verification (" ++ levelText ++ lit ")"))) = true
    rw [Bool.true_and, decide_eq_true_eq]
    exact Schema.characters_pos (List.append_ne_nil_of_right_ne_nil _ (by decide))
  apply Schema.record_intro rfl
  simp only [List.forall_mem_cons, List.not_mem_nil, false_imp_iff, implies_true, and_true]
  exact ⟨rfl, hname, rfl, rfl, rfl, h.type, h.level, rfl, rfl, rfl, rfl, rfl, rfl, rfl, hnow, hnow⟩

/-- The identities ask for the holder. -/
theorem issuedIdentities_valid (huris : P.Uris) (hb : P.Base58) {n : Nat} {input : IssueInput}
    (levelText : Str) (vc : Vc) :
    Schema.validate P.validFormat (.arrayOf CredentialSchema.credentialIdentity)
        (.arr ((wrap P E n input levelText vc).identities.map Identity.toJson)) = true ↔
      P.validFormat .uri input.holderDid = true := by
  have hidentity (did type : Str) (htype : Schema.validate P.validFormat
      (.stringIn ["issuer", "subject", "holder", "verifier"]) (.str type) = true) :
      Schema.validate P.validFormat CredentialSchema.credentialIdentity
        (Identity.toJson ⟨did, type⟩) = true ↔ P.validFormat .uri did = true := by
    refine ⟨fun h => ?_, fun h => ?_⟩
    · have hdid : Schema.validate P.validFormat CredentialSchema.uri (.str did) = true :=
        Schema.record_field h (k := "id") (by simp) rfl
      rwa [CredentialSchema.uri, Schema.validate_stringOf] at hdid
    · apply Schema.record_intro rfl
      simp only [List.forall_mem_cons, List.not_mem_nil, false_imp_iff, implies_true, and_true]
      exact ⟨validate_uri h, htype⟩
  rw [Schema.validate_arrayOf, List.all_eq_true]
  simp only [wrap, List.forall_mem_cons, List.not_mem_nil, false_imp_iff, implies_true, and_true]
  rw [hidentity _ _ rfl, hidentity _ _ rfl, hidentity _ _ rfl]
  exact ⟨fun h => h.2.1, fun h => ⟨did_uri huris hb _, h, h⟩⟩

/-- **What decides whether a signed credential fits the schema** is what the request brought. -/
theorem validateCredential_issued (huris : P.Uris) (hformats : P.Formats) (hb : P.Base58)
    (huuid : E.UuidText) (n : Nat) (input : IssueInput) (levelText : Str) :
    validateCredential P (issued P E n input levelText).toJson = true ↔ Issuable P input := by
  refine ⟨fun h => ?_, fun h => ?_⟩
  · have hmetadata : Schema.validate P.validFormat CredentialSchema.credentialMetadata
      (.obj (issued P E n input levelText).metadata) = true :=
      Schema.record_field h (k := "metadata") (by simp) rfl
    have hidentities : Schema.validate P.validFormat (.arrayOf CredentialSchema.credentialIdentity)
        (.arr ((issued P E n input levelText).identities.map Identity.toJson)) = true :=
      Schema.record_field h (k := "identities") (by simp) rfl
    have hclaims : Schema.validate P.validFormat
      (.all [.arrayOf CredentialSchema.verifiableCredential, .minItems 1])
      (.arr ([signedVc P E n input].map Vc.toJson)) = true :=
      Schema.record_field h (k := "claims") (by simp) rfl
    rw [Schema.validate_all, List.all_cons, Bool.and_eq_true, Schema.validate_arrayOf,
      List.all_cons, Bool.and_eq_true] at hclaims
    exact ⟨(issuedIdentities_valid huris hb levelText _).mp hidentities,
      Schema.record_field hmetadata (k := "credentialType") (by simp) rfl,
      Schema.record_field hmetadata (k := "verificationLevel") (by simp) rfl,
      Schema.record_field hclaims.1.1 (k := "credentialSubject") (by simp) rfl⟩
  · have hcontext : Schema.validate P.validFormat
        (.oneOf [CredentialSchema.uri, .arrayOf (.oneOf [CredentialSchema.uri, .object])])
        (.str (lit "https://finternet-io.github.io/specs/schemas/credential/v1/context.jsonld")) =
        true := by
      rw [Schema.validate_oneOf_left rfl]
      exact validate_uri (huris.fixed _ (by simp))
    have hid := validate_uri (huris.numbered (lit "urn:uuid:cred-") (by simp) _ (huuid (n + 2)))
    have hmetadata :=
      issuedMetadata_valid (E := E) (n := n) hformats levelText (signedVc P E n input) h
    have hclaims : Schema.validate P.validFormat
        (.all [.arrayOf CredentialSchema.verifiableCredential, .minItems 1])
        (.arr ([signedVc P E n input].map Vc.toJson)) = true := by
      rw [Schema.validate_all, List.all_cons, Schema.validate_arrayOf, List.all_cons,
        signedVc_valid huris hformats hb huuid h.subject]
      rfl
    have hidentities := (issuedIdentities_valid (E := E) (n := n) huris hb levelText
        (signedVc P E n input)).mpr h.holder
    have hnow := validate_dateTime hformats (Nat.le_trans (Nat.le_add_right _ _) (E.clock_le n))
    have hend := validate_dateTime hformats (E.clock_le (n + 1))
    have hstate : Schema.validate P.validFormat CredentialSchema.credentialState
        (.obj (issued P E n input levelText).state) = true := by
      apply Schema.record_intro rfl
      simp only [List.forall_mem_cons, List.not_mem_nil, false_imp_iff, implies_true, and_true]
      exact ⟨rfl, rfl, hnow, hend, rfl, rfl, rfl⟩
    apply Schema.record_intro rfl
    simp only [List.forall_mem_cons, List.not_mem_nil, false_imp_iff, implies_true, and_true]
    exact ⟨hcontext, rfl, hid, hmetadata, rfl, hclaims, hidentities, hstate⟩

/-! ### What the handler answers -/

/-- A level that fits is a text. -/
theorem Issuable.levelText {input : IssueInput} (h : Issuable P input) :
    ∃ levelText,
      toText (orElse input.verificationLevel (.str (lit "enhanced"))) = .ok levelText := by
  have hlevel := h.level
  rw [CredentialSchema.verificationLevel, Schema.stringIn, Schema.validate_all, List.all_cons,
      Bool.and_eq_true] at hlevel
  obtain ⟨text, htext⟩ := Schema.hasType_string hlevel.1
  rw [htext]
  exact ⟨text, rfl⟩

/-- A stored credential that was issued for an issuable request is valid for a year. -/
theorem issued_verifies (he : P.Ed25519) (hb : P.Base58) (hd : P.DateParse) {s : Credentials.State}
    {n m : Nat} {input : IssueInput} {levelText : Str}
    (hvalid : validateCredential P (issued P E n input levelText).toJson = true)
    (hget : s.get (issued P E n input levelText).id = some (issued P E n input levelText))
    (hclock : E.clock m < E.clock (n + 1) + oneYear) :
    ∃ result, verifyCredential P E m s (issued P E n input levelText).toJson = .ok result ∧
      result.valid = true := by
  have hclaims : (issued P E n input levelText).claims = [signedVc P E n input] := rfl
  have hstatus : isRevoked (getField (issued P E n input levelText).state (lit "status")) = false :=
    rfl
  obtain ⟨result, hresult, hchecks, hverdict⟩ := verifyCredential_stored
    (E := E) hd m hget hclaims rfl (E.clock_le (n + 1)) (verifyVcSignature_issued he hb n _)
  refine ⟨result, hresult, ?_⟩
  rw [hverdict, hchecks, Checks.valid, hvalid, hstatus, decide_eq_true hclock]
  rfl

/-- A request that is answered with a credential is issuable, and the credential is stored. -/
theorem credentialIssue_answered (huris : P.Uris) (hformats : P.Formats) (hb : P.Base58)
    (huuid : E.UuidText) {w : World} {context payload : Option Json} {body : Body}
    (h : (handle P E w ⟨context, .credentialIssue payload⟩).2.body = some body) :
    ∃ holderDid, readProp? payload (lit "holderDid") = some (.str holderDid) ∧
      startsWith holderDid (lit "did:") = true ∧ Issuable P (issueInput payload holderDid) := by
  simp only [handle, credentialIssue] at h
  split at h
  · cases h
  · split at h
    · next holderDid hholder =>
      split at h
      · cases h
      · next hdid =>
        split at h
        · next credentials credential hissue =>
          obtain ⟨levelText, rfl, -, hvalid⟩ := issueCredential_ok hissue
          exact ⟨holderDid, hholder, by simpa using hdid,
            (validateCredential_issued huris hformats hb huuid _ _ _).mp hvalid⟩
        · cases h
    · cases h

/-- What is not issued is not stored. -/
theorem credentialIssue_refused {w : World} {context payload : Option Json}
    (h : (handle P E w ⟨context, .credentialIssue payload⟩).2.body = none) :
    (handle P E w ⟨context, .credentialIssue payload⟩).1.credentials = w.credentials := by
  have hchange := handle_change (P := P) (E := E) w ⟨context, .credentialIssue payload⟩
  generalize handle P E w ⟨context, .credentialIssue payload⟩ = answer at h hchange ⊢
  obtain ⟨w', outcome⟩ := answer
  cases hchange with
  | quiet => rfl
  | issued => cases h

/-- **A credential is issued exactly for an issuable request**, whatever the state of the service:
for a holder that is a DID and a URI, one of the six types, one of the four levels and a subject of
the right shape. Any other request leaves the store as it was; and what is issued is found valid, by
the store it was put into, for a year. -/
theorem issue_iff (he : P.Ed25519) (hb : P.Base58) (hd : P.DateParse) (hformats : P.Formats)
    (huris : P.Uris) (huuid : E.UuidText) (w : World) (context payload : Option Json) :
    ((handle P E w ⟨context, .credentialIssue payload⟩).2.body.isSome ↔ ∃ holderDid,
      readProp? payload (lit "holderDid") = some (.str holderDid) ∧
      startsWith holderDid (lit "did:") = true ∧ Issuable P (issueInput payload holderDid)) ∧
      ((handle P E w ⟨context, .credentialIssue payload⟩).2.body = none →
        (handle P E w ⟨context, .credentialIssue payload⟩).1.credentials = w.credentials) ∧
      ∀ body, (handle P E w ⟨context, .credentialIssue payload⟩).2.body = some body → ∃ credential,
        body = .credential credential ∧ ∀ m, E.clock m < E.clock (w.draws + 1) + oneYear → ∃ result,
          verifyCredential P E m (handle P E w ⟨context, .credentialIssue payload⟩).1.credentials
            credential.toJson = .ok result ∧ result.valid = true := by
  refine ⟨⟨fun h => ?_, fun h => ?_⟩, credentialIssue_refused, fun body h => ?_⟩
  · obtain ⟨body, hbody⟩ := Option.isSome_iff_exists.mp h
    exact credentialIssue_answered huris hformats hb huuid hbody
  · obtain ⟨holderDid, hholder, hdid, hissuable⟩ := h
    obtain ⟨levelText, htext⟩ := hissuable.levelText
    rw [credentialIssue_succeeds context payload hholder hdid htext
      ((validateCredential_issued huris hformats hb huuid _ _ _).mpr hissuable)]
    rfl
  · obtain ⟨holderDid, hholder, hdid, hissuable⟩ :=
      credentialIssue_answered huris hformats hb huuid h
    obtain ⟨levelText, htext⟩ := hissuable.levelText
    have hvalid :=
      (validateCredential_issued huris hformats hb huuid w.draws _ levelText).mpr hissuable
    rw [credentialIssue_succeeds context payload hholder hdid htext hvalid] at h ⊢
    cases h
    exact ⟨_, rfl, fun m hclock =>
      issued_verifies he hb hd hvalid (JsMap.get_set_self _ _ _) hclock⟩

/-- Alice is issued a credential by a service that has none. -/
theorem issue_iff_alice : (handle Reference.primitives Reference.env
    (service Reference.primitives Reference.env).initial ⟨none, .credentialIssue (holderPayload
      (aliceAccount Reference.primitives Reference.env).did none)⟩).2.body.isSome :=
  (issue_iff Reference.ed25519 Reference.base58 Reference.dateParse Reference.formats Reference.uris
    Reference.uuidText (service Reference.primitives Reference.env).initial none _).1.mpr ⟨_, rfl,
      Crypto.startsWith_did _, ⟨rfl, rfl, rfl, rfl⟩⟩

/-! ### Whom it qualifies -/

theorem findValid_next_le {s : Credentials.State} {credentials : List CredentialToken}
    {found : Option CredentialToken} {n next : Nat}
    (h : findValid P E n s credentials = .ok (found, next)) : next ≤ n + credentials.length := by
  induction credentials generalizing n with
  | nil =>
    cases h
    exact Nat.le_refl _
  | cons credential rest ih =>
    rw [findValid] at h
    cases hverify : verifyCredential P E n s credential.toJson with
    | error e =>
      rw [hverify] at h
      cases h
    | ok result =>
      have h : (if result.valid = true then Except.ok (some credential, n + 1)
          else findValid P E (n + 1) s rest) = .ok (found, next) := by
        rwa [hverify] at h
      split at h
      · cases h
        show n + 1 ≤ n + (rest.length + 1)
        omega
      · have hle := ih h
        show next ≤ n + (rest.length + 1)
        omega

/-- A holder whose credential is stored as it was issued qualifies for a year, whatever else was
issued to the holder: the search finds that credential, or one before it. -/
theorem qualifies (he : P.Ed25519) (hb : P.Base58) (hd : P.DateParse) {requests : List Request}
    (h : Stored P E requests) {n m : Nat} {input : IssueInput} {levelText : Str}
    (hget : (after P E requests).credentials.get (issued P E n input levelText).id =
      some (issued P E n input levelText))
    (hclock : ∀ k < (after P E requests).credentials.values.length,
      E.clock (m + k) < E.clock (n + 1) + oneYear) :
    ∃ credential next, validCredentialFor P E m (after P E requests).credentials input.holderDid =
      .ok (some credential, next) ∧ next ≤ m + (after P E requests).credentials.values.length := by
  have hlength : (credentialsForHolder (after P E requests).credentials input.holderDid).length ≤
      (after P E requests).credentials.values.length := List.length_filter_le _ _
  rcases validCredentialFor_first he hb hd h m input.holderDid with
    ⟨next, _, hdead⟩ | ⟨next, k, i, hfound, _⟩
  · -- the credential is among those that were asked, and live
    have hheld : issued P E n input levelText ∈
        credentialsForHolder (after P E requests).credentials input.holderDid := by
      refine List.mem_filter.mpr ⟨JsMap.mem_values.mpr ⟨_, hget⟩, ?_⟩
      rw [heldBy_issued]
      exact beq_self_eq_true _
    rw [credentialsForHolder_stored h] at hheld hlength
    obtain ⟨i, hi, hstored⟩ := List.mem_map.mp hheld
    obtain ⟨k, hk⟩ := List.mem_iff_getElem?.mp hi
    refine absurd ⟨?_, signedVc P E n input, ?_, ?_⟩ (hdead k i hk)
    · have hrevoked := (h.issued i (List.mem_of_mem_filter hi)).isRevoked_stored
        (revocations (history P E requests))
      rw [hstored] at hrevoked
      exact of_decide_eq_false hrevoked.symm
    · rw [← (stored_same (revocations (history P E requests)) i).2.1, hstored]
      rfl
    · rw [List.length_map] at hlength
      have hlt := (List.getElem?_eq_some_iff.mp hk).1
      exact ⟨_, E.clock_le (n + 1), rfl, hclock k (by omega)⟩
  · exact ⟨_, next, hfound, (findValid_next_le hfound).trans (Nat.add_le_add_left hlength m)⟩

end Wayfinder.Service.Handlers

import Wayfinder.Js.OpenSchema
import Wayfinder.Service.Credentials.Issued
import Wayfinder.Service.Tokens.Minted

/-! The form of a token, and what its class's schema makes of it.

The vendored schema and the code fix the shape of a token but for its `data`, and `claims`
are there in the classes that require KYC. So whether the schema of a class accepts a token
is decided by the class and the data of the request (`Formed.accepts`), and nothing in
`mintToken` asks it. -/
namespace Wayfinder.Service.Tokens

open Js Credentials TokenClasses

/-- A token with every text empty and no data. -/
def blank (requiresKYC : Bool) : TokenInstance :=
  { context := [], type := [], id := []
    metadata :=
      { tokenStandard := [], name := .str [], symbol := .str [], decimals := .num .zero,
        fungibility := []
        tokenClass := [], status := [], flags := ⟨true, true, false, false⟩, createdAt :=
          [], updatedAt := [] }
    data := []
    claims := if requiresKYC then some [] else none
    identities := []
    state := { status := [], effectiveFrom := [], supply := ⟨[], []⟩, stateCommitment := some [] } }

/-- A token with the shape of a blank one, its data aside. -/
structure TokenInstance.Formed (token : TokenInstance) (requiresKYC : Bool) : Prop where
  metadata : shape token.metadata.toJson = shape (blank requiresKYC).metadata.toJson
  claims : token.claims.isSome = requiresKYC
  state : shape token.state.toJson = shape (blank requiresKYC).state.toJson

/-- What the schema of a class asks: of the form of its tokens, and of their data. -/
def fits (tc : TokenClass) (data : Fields) : Bool :=
  accepts (.obj (withoutProperty tc.schema (lit "data"))) (blank tc.requiresKYC).toJson &&
    (propertySchemas tc.schema (lit "data")).all fun s => accepts s (.obj data)

variable {P : Primitives} {E : Env}

section
variable {token : TokenInstance} {requiresKYC : Bool}

theorem TokenInstance.Formed.shapes (h : token.Formed requiresKYC) :
    shapeFields (dropField token.fields (lit "data")) =
      shapeFields (dropField (blank requiresKYC).fields (lit "data")) := by
  obtain ⟨hmetadata, hclaims, hstate⟩ := h
  obtain ⟨context, type, id, metadata, data, claims, identities, state⟩ := token
  cases claims with
  | none =>
    cases hclaims
    show [_, _, _, (_, shape metadata.toJson), _, (_, shape state.toJson)] = _
    rw [hmetadata, hstate]
    rfl
  | some claims =>
    cases hclaims
    show [_, _, _, (_, shape metadata.toJson), _, _, (_, shape state.toJson)] = _
    rw [hmetadata, hstate]
    rfl

theorem TokenInstance.getField_data (token : TokenInstance) :
    getField token.fields (lit "data") = some (.obj token.data) := rfl

/-- Whether the schema of a class accepts a token is decided by the class and the data. -/
theorem TokenInstance.Formed.accepts {tc : TokenClass} (h : token.Formed tc.requiresKYC) :
    accepts (.obj tc.schema) token.toJson = fits tc token.data :=
  accepts_split token.getField_data rfl h.shapes tc.schema

theorem TokenInstance.Formed.movedTo (h : token.Formed requiresKYC)
    (toDid stateCommitment now : Str) :
    (token.movedTo toDid stateCommitment now).Formed requiresKYC where
  metadata := h.metadata
  claims := h.claims
  state := rfl

end

/-! ### What minting stores -/

/-- The vendored schema asks for a name and a symbol that are strings and for decimals that
are an integer. -/
theorem metadata_shape {token : TokenInstance} (h : validateToken P token.toJson = true)
    (requiresKYC : Bool) :
    shape token.metadata.toJson = shape (blank requiresKYC).metadata.toJson := by
  have hmetadata :
      Schema.validate P.validFormat TokenSchema.metadata token.metadata.toJson = true :=
    Schema.closedRecord_field h (k := "metadata") (by simp) rfl
  have hname : Schema.validate P.validFormat
      (.all [.type .string, .minLength 1]) token.metadata.name = true :=
    Schema.closedRecord_field hmetadata (k := "name") (by simp [Schema.string]) rfl
  have hsymbol : Schema.validate P.validFormat (.all [.type .string, .minLength 1, .maxLength 10])
      token.metadata.symbol = true :=
    Schema.closedRecord_field hmetadata (k := "symbol") (by simp [Schema.string]) rfl
  have hdecimals : Schema.validate P.validFormat (.all [.type .integer, .minimum 0, .maximum 18])
      token.metadata.decimals = true :=
    Schema.closedRecord_field hmetadata (k := "decimals") (by simp) rfl
  rw [Schema.validate_all, List.all_cons, Bool.and_eq_true] at hname hsymbol hdecimals
  obtain ⟨name, hname⟩ := Schema.hasType_string hname.1
  obtain ⟨symbol, hsymbol⟩ := Schema.hasType_string hsymbol.1
  obtain ⟨decimals, hdecimals, hinteger⟩ := Schema.hasType_integer hdecimals.1
  rw [Metadata.toJson, hname, hsymbol, hdecimals]
  simp only [shape, shapeFields, hinteger, if_true]
  rfl

/-- A valid credential has a claim. -/
theorem findValid_claims {n next : Nat} {s : Credentials.State} {cs : List CredentialToken}
    {c : CredentialToken} (h : findValid P E n s cs = .ok (some c, next)) :
    c.claims.head?.isSome := by
  obtain ⟨m, result, hresult, hvalid⟩ := findValid_valid h
  obtain ⟨vc, status, notExpired, hfirst, _, _, rfl⟩ := verifyCredential_ok.mp hresult
  cases hclaims : c.claims with
  | nil =>
    have hnone : readFirst (c.toJson.prop (lit "claims")) = .ok none := by
      show Except.ok (Json.first (.arr (c.claims.map Vc.toJson))) = _
      rw [hclaims]
      rfl
    rw [hnone] at hfirst
    cases hfirst
    simp [Checks.valid, checksOf] at hvalid
  | cons vc rest => rfl

/-- A mint stores a token in the form of its class, with the data of the request. -/
theorem mintToken_formed {n next : Nat} {credentials : Credentials.State}
    {classes : TokenClasses.State} {s s' : State} {ledger ledger' : Ledger.State}
    {input : MintInput} {token : TokenInstance} {tc : TokenClass}
    (h : mintToken P E n credentials classes s ledger input = .ok (.ok s' ledger' token next))
    (hclass : classes.get input.tokenClass = some tc) :
    token.Formed tc.requiresKYC ∧ token.data = input.data.getD [] ∧
      token.metadata.tokenClass = tc.tokenClass := by
  obtain ⟨tc', claim, m, hclass', hgate, hvalid, hstored, _⟩ := mintToken_ok h
  rw [hclass] at hclass'
  cases hclass'
  rw [storeMinted_eq, Prod.mk.injEq, Prod.mk.injEq] at hstored
  obtain ⟨_, _, rfl⟩ := hstored
  refine ⟨⟨metadata_shape hvalid _, ?_, rfl⟩, rfl, rfl⟩
  show (claim.map fun vc => [vc]).isSome = tc.requiresKYC
  rw [Option.isSome_map]
  rcases (complianceHook_passed hgate).2 with ⟨hkyc, rfl⟩ | ⟨hkyc, credential, hfound, rfl⟩
  · exact hkyc.symm
  · rw [hkyc]
    exact findValid_claims hfound

end Wayfinder.Service.Tokens

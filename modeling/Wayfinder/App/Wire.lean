import Wayfinder.Js.Finite
import Wayfinder.Service.Handlers

/-! What the page gets of a response.

The service writes a response with `res.json`, and the page parses what comes: each value in it has
gone through JSON. A token or a credential that the service stores with a number beyond the doubles
is shown without it. What was finite comes through as it is. -/
namespace Wayfinder.Service

open Js

/-! ### Credentials -/

namespace Credentials

def Vc.reparsed (vc : Vc) : Vc :=
  { vc with
    credentialSubject := reparsedFields vc.credentialSubject
    credentialStatus := reparsedFields vc.credentialStatus
    credentialSchema := reparsedFields vc.credentialSchema }

def CredentialToken.reparsed (credential : CredentialToken) : CredentialToken :=
  { credential with
    metadata := reparsedFields credential.metadata
    claims := credential.claims.map Vc.reparsed
    state := reparsedFields credential.state }

def VerificationResult.reparsed (result : VerificationResult) : VerificationResult :=
  { result with issuer := result.issuer.reparsed }

theorem VcProof.reparsed_toJson (proof : VcProof) : proof.toJson.reparsed = proof.toJson := by
  rw [VcProof.toJson, reparsed_obj]
  rfl

theorem Identity.reparsed_toJson (identity : Identity) :
    identity.toJson.reparsed = identity.toJson := by
  rw [Identity.toJson, reparsed_obj]
  rfl

theorem Vc.toJson_reparsed (vc : Vc) : vc.reparsed.toJson = vc.toJson.reparsed := by
  obtain ⟨id, context, type, issuer, issuanceDate, validFrom, validUntil, subject, status, schema,
    proof⟩ := vc
  have hproof : (proof.toList.map fun p => (lit "proof", p.toJson)).map
      (fun p => (p.1, p.2.reparsed)) = proof.toList.map fun p => (lit "proof", p.toJson) := by
    rw [List.map_map]
    exact List.map_congr_left fun p _ => Prod.ext rfl p.reparsed_toJson
  simp only [Vc.toJson, Vc.fields, Vc.claimFields, Vc.reparsed, reparsed_obj, List.map_append,
    hproof, List.map_cons, List.map_nil, reparsed_str, reparsed_arr, reparsed_strs,
    reparsedFields_eq]

theorem reparsed_vcs (claims : List Vc) :
    (claims.map Vc.toJson).map Json.reparsed = (claims.map Vc.reparsed).map Vc.toJson := by
  rw [List.map_map, List.map_map]
  exact List.map_congr_left fun vc _ => vc.toJson_reparsed.symm

theorem reparsed_identities (identities : List Identity) :
    (identities.map Identity.toJson).map Json.reparsed = identities.map Identity.toJson := by
  rw [List.map_map]
  exact List.map_congr_left fun identity _ => identity.reparsed_toJson

theorem CredentialToken.toJson_reparsed (credential : CredentialToken) :
    credential.reparsed.toJson = credential.toJson.reparsed := by
  simp only [CredentialToken.toJson, CredentialToken.reparsed, reparsed_obj, List.map_cons,
    List.map_nil, reparsed_str, reparsed_arr, reparsed_vcs, reparsed_identities, reparsedFields_eq]

end Credentials

/-! ### Tokens -/

namespace Tokens

def Metadata.reparsed (metadata : Metadata) : Metadata :=
  { metadata with
    name := metadata.name.reparsed
    symbol := metadata.symbol.reparsed
    decimals := metadata.decimals.reparsed }

def TokenInstance.reparsed (token : TokenInstance) : TokenInstance :=
  { token with
    metadata := token.metadata.reparsed
    data := reparsedFields token.data
    claims := token.claims.map fun claims => claims.map Credentials.Vc.reparsed }

open Credentials

theorem Flags.reparsed_toJson (flags : Flags) : flags.toJson.reparsed = flags.toJson := by
  rw [Flags.toJson, reparsed_obj]
  rfl

theorem Metadata.toJson_reparsed (metadata : Metadata) :
    metadata.reparsed.toJson = metadata.toJson.reparsed := by
  simp only [Metadata.toJson, Metadata.reparsed, reparsed_obj, List.map_cons, List.map_nil,
    reparsed_str, Flags.reparsed_toJson]

theorem TokenState.reparsed_toJson (state : TokenState) : state.toJson.reparsed = state.toJson := by
  have hcommitment :
      (state.stateCommitment.toList.map fun c => (lit "stateCommitment", Json.str c)).map
        (fun p => (p.1, p.2.reparsed)) = state.stateCommitment.toList.map fun c =>
          (lit "stateCommitment", .str c) := by
    rw [List.map_map]
    rfl
  simp only [TokenState.toJson, reparsed_obj, List.map_append, hcommitment, List.map_cons,
    List.map_nil, reparsed_str]

theorem TokenInstance.toJson_reparsed (token : TokenInstance) :
    token.reparsed.toJson = token.toJson.reparsed := by
  have hclaims : (token.claims.toList.map fun claims =>
      (lit "claims", Json.arr (claims.map Vc.toJson))).map (fun p => (p.1, p.2.reparsed)) =
      (token.claims.map fun claims => claims.map Vc.reparsed).toList.map
      fun claims => (lit "claims", .arr (claims.map Vc.toJson)) := by
    cases token.claims with
    | none => rfl
    | some claims =>
      simp only [Option.toList_some, Option.map_some, List.map_cons, List.map_nil, reparsed_arr,
        reparsed_vcs]
  simp only [TokenInstance.toJson, TokenInstance.fields, TokenInstance.reparsed, reparsed_obj,
    List.map_append, hclaims, List.map_cons, List.map_nil, reparsed_str, reparsed_arr,
    reparsed_identities, TokenState.reparsed_toJson, Metadata.toJson_reparsed, reparsedFields_eq]

end Tokens

/-! ### Bodies -/

def TokenClasses.TokenClass.reparsed (tc : TokenClasses.TokenClass) : TokenClasses.TokenClass :=
  { tc with schema := reparsedFields tc.schema, metadata := reparsedFields tc.metadata }

namespace Handlers

/-- The other bodies hold texts, booleans and counts. -/
def Body.reparsed : Body → Body
  | .credential c => .credential c.reparsed
  | .verdict result => .verdict result.reparsed
  | .status id state => .status id (state.map Json.reparsed)
  | .credentials list => .credentials (list.map Credentials.CredentialToken.reparsed)
  | .tokenClass tc => .tokenClass tc.reparsed
  | .token t => .token t.reparsed
  | .tokens list pagination => .tokens (list.map Tokens.TokenInstance.reparsed) pagination
  | body => body

end Handlers

def Envelope.ResponseContext.reparsed (context : Envelope.ResponseContext) :
    Envelope.ResponseContext :=
  { context with
    id := context.id.reparsed
    version := context.version.reparsed
    transactionId := context.transactionId.map Json.reparsed }

/-- What comes of a response. -/
def Envelope.Response.reparsed (response : Envelope.Response Handlers.Body) :
    Envelope.Response Handlers.Body :=
  { response with context := response.context.reparsed,
                  response := response.response.map Handlers.Body.reparsed }

theorem Envelope.Response.reparsed_response (response : Envelope.Response Handlers.Body) :
    response.reparsed.response = response.response.map Handlers.Body.reparsed := rfl

end Wayfinder.Service

import Wayfinder.Js.Schema

/-! `token.schema.json`: the vendored schema of tokens (draft-07).

Titles, descriptions, examples and defaults decide nothing and are left out, and
`additionalProperties: true` with them. -/
namespace Wayfinder.Service.TokenSchema

open Js Schema

def uri : Schema := stringOf .uri

def uriReference : Schema := stringOf .uriReference

def dateTime : Schema := stringOf .dateTime

def stateProvider : Schema :=
  record ["type"] [("type", stringIn ["chain", "registry", "custodian"]),
    ("network", string), ("contract", string), ("tokenId", string),
    ("proofFormat", stringIn ["merkle-proof", "zk-proof", "signature-chain", "registry-based"])]

def parValue : Schema := record ["amount", "currency"] [("amount", string), ("currency", string)]

def peggedTo : Schema := record ["assetCode"] [("assetCode", string), ("source", string)]

def valuationPolicy : Schema :=
  record [] [("requiresExternalClaims", boolean), ("recommendedClaimTypes", arrayOf string)]

def valuationModel : Schema :=
  record []
    [("parValue", parValue), ("redeemableBy", string), ("peggedTo", peggedTo),
      ("valuationPolicy", valuationPolicy)]

def identity : Schema :=
  closedRecord ["id", "type"] [("id", uriReference), ("type", stringIn ["issuer", "creator",
    "owner", "operator", "custodian", "manager", "controller"]), ("roles", arrayOf string)]

def flags : Schema :=
  closedRecord [] [("transactable", boolean), ("transferable", boolean), ("locked", boolean),
    ("revocable", boolean)]

def metadata : Schema :=
  closedRecord ["tokenStandard", "name", "symbol", "decimals", "fungibility"]
    [("tokenStandard", string),
      ("name", .all [string, .minLength 1]),
      ("symbol", .all [string, .minLength 1, .maxLength 10]),
      ("decimals", .all [.type .integer, .minimum 0, .maximum 18]),
      ("fungibility", stringIn ["fungible", "nonFungible", "semiFungible"]),
      ("tokenClass", string),
      ("version", string),
      ("status", stringIn ["active", "inactive", "deprecated", "test"]),
      ("valuationType", stringIn ["fixed", "pegged", "market"]),
      ("stateModel", stringIn ["native", "proxy"]),
      ("stateProvider", stateProvider),
      ("valuationModel", valuationModel),
      ("flags", flags),
      ("tags", arrayOf string),
      ("description", string),
      ("externalUrls", arrayOf uri),
      ("createdAt", dateTime),
      ("updatedAt", dateTime)]

def proof : Schema :=
  record ["type", "created", "verificationMethod", "proofPurpose"]
    [("type", string), ("created", dateTime), ("verificationMethod", uri), ("proofPurpose", string),
      ("jws", string)]

def claim : Schema :=
  record ["id", "@context", "type", "issuer", "issuanceDate", "credentialSubject"]
    [("id", uri),
      ("@context", .oneOf [string, arrayOf string]),
      ("type", .oneOf [string, arrayOf string]),
      ("issuer", uriReference),
      ("issuanceDate", dateTime),
      ("expirationDate", dateTime),
      ("visibility", stringIn ["public", "private", "protected"]),
      ("credentialSubject", record ["id"] [("id", uriReference)]),
      ("proof", proof),
      ("status", stringIn ["asserted", "verified", "revoked", "expired"])]

def supply : Schema := record [] [("totalSupply", string), ("circulatingSupply", string)]

def lockState : Schema :=
  record ["locked"] [("locked", boolean), ("lockReason", string), ("lockedBy", uriReference),
    ("lockedAt", dateTime)]

def restrictions : Schema :=
  record [] [("jurisdiction", arrayOf string), ("allowedUseCases", arrayOf string)]

def state : Schema :=
  record ["status"]
    [("status", stringIn ["active", "frozen", "redeemed", "burned", "expired"]),
      ("effectiveFrom", dateTime), ("effectiveUntil", dateTime),
      ("supply", supply), ("lockState", lockState), ("restrictions", restrictions),
      ("customState", object), ("stateCommitment", string)]

def tokenSchema : Schema :=
  closedRecord ["id", "metadata", "state"] [("@context", .oneOf [.all [string,
    textConst "https://finternet-io.github.io/specs/schemas/token/v1/context.jsonld"],
    arrayOf (.oneOf [string, object])]), ("@type", string), ("id", uriReference),
    ("metadata", metadata), ("data", object), ("claims", arrayOf claim),
    ("identities", arrayOf identity), ("state", state)]

end Wayfinder.Service.TokenSchema

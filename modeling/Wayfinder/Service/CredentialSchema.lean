import Wayfinder.Js.Schema

/-! `credential.schema.json`: the vendored schema of credential tokens (draft 2020-12).

Titles, descriptions, examples and defaults decide nothing and are left out, and
`additionalProperties: true` with them. -/
namespace Wayfinder.Service.CredentialSchema

open Js Schema

def uri : Schema := stringOf .uri

def dateTime : Schema := stringOf .dateTime

/-- `^[a-f0-9]{64}$` -/
def isHex64 (s : Str) : Bool :=
  s.length == 64 && s.all fun u => (97 ≤ u && u ≤ 102) || (48 ≤ u && u ≤ 57)

/-- `^[A-Z]{2}$` -/
def isCountry (s : Str) : Bool := s.length == 2 && s.all fun u => 65 ≤ u && u ≤ 90

def country : Schema := .all [string, .pattern isCountry]

def atLeastOne : Schema := .all [.type .integer, .minimum 1]

def score : Schema := .all [.type .number, .minimum 0, .maximum 1]

def credentialType : Schema :=
  stringIn ["identityVerification", "documentVerification", "biometricVerification",
    "kycVerification", "addressVerification", "ageVerification"]

def verificationLevel : Schema := stringIn ["basic", "standard", "enhanced", "premium"]

def verificationProvider : Schema :=
  record ["providerName", "providerId"]
    [("providerName", string), ("providerId", string),
      ("providerType", stringIn ["kycProvider", "documentProvider", "biometricProvider"]),
      ("journeyId", string), ("flowId", stringOf .uuid), ("flowVersion", atLeastOne),
      ("rawResponseRef", uri), ("rawResponseHash", .all [string, .pattern isHex64]),
      ("encryptionKeyRef", uri)]

def credentialMetadata : Schema :=
  record ["tokenStandard", "name", "credentialType", "verificationLevel"]
    [("tokenStandard", .all [arrayOf string, .minItems 1]), ("name", .all [string, .minLength 1]),
      ("symbol", .all [string, .maxLength 20]), ("fungibility", textConst "nonFungible"),
      ("decimals", .const (.num .zero)), ("credentialType", credentialType),
      ("verificationLevel", verificationLevel), ("provider", verificationProvider),
      ("consentGiven", boolean), ("consentTimestamp", dateTime),
      ("version", string), ("status", stringIn ["active", "inactive", "deprecated"]),
      ("flags", record [] [("transactable", boolean),
        ("transferable", .const (.bool false)), ("divisible", .const (.bool false)),
        ("locked", boolean), ("revocable", boolean), ("burnable", .const (.bool false))]),
      ("description", string), ("createdAt", dateTime), ("updatedAt", dateTime)]

def proof : Schema :=
  record ["type", "created", "verificationMethod", "proofPurpose"]
    [("type", string), ("created", dateTime), ("verificationMethod", uri),
      ("proofPurpose", stringIn ["assertionMethod", "authentication", "keyAgreement",
        "capabilityInvocation", "capabilityDelegation"]), ("proofValue", string), ("jws", string),
      ("challenge", string), ("domain", string), ("cryptosuite", string)]

def postalAddress : Schema :=
  record []
    [("streetAddress", string), ("addressLocality", string), ("addressRegion", string),
      ("postalCode", string), ("addressCountry", country)]

def credentialSubject : Schema :=
  record ["id"] [("id", uri), ("fullName", string), ("givenName", string), ("familyName", string),
    ("dateOfBirth", stringOf .date), ("gender", string), ("nationality", string),
    ("address", postalAddress)]

def credentialStatus : Schema :=
  record ["id", "type"] [("id", uri), ("type",
    stringIn ["StatusList2021Entry", "RevocationList2020Status", "BitstringStatusListEntry"]),
    ("statusPurpose", stringIn ["revocation", "suspension"]),
    ("statusListIndex", string), ("statusListCredential", uri)]

def vcSchema : Schema :=
  record ["id", "type"] [("id", uri), ("type", stringIn ["JsonSchema", "JsonSchemaCredential"])]

def documentVerification : Schema :=
  record ["documentType", "documentCountry", "documentValid"] [("documentType",
    stringIn ["passport", "nationalId", "driversLicense", "pan", "aadhaar", "voterId"]),
    ("documentCountry", country), ("documentNumber", string), ("documentExpiry", stringOf .date),
    ("documentValid", boolean),
    ("verificationMethod", stringIn ["optical", "ocr", "nfc", "api", "manual"]),
    ("verificationAttempts", atLeastOne)]

def biometricVerification : Schema :=
  record []
    [("livenessScore", score), ("livenessVerified", boolean), ("faceMatchScore", score),
      ("faceMatchVerified", boolean), ("verificationAttempts", atLeastOne)]

def evidence : Schema :=
  record [] [("id", uri), ("type", .oneOf [string, arrayOf string]),
    ("documentVerification", documentVerification),
    ("biometricVerification", biometricVerification), ("verificationTimestamp", dateTime)]

def termsOfUse : Schema := record [] [("id", uri), ("type", string), ("profile", uri)]

def verifiableCredential : Schema :=
  record ["@context", "type", "issuer", "issuanceDate", "credentialSubject"] [("id", uri),
    ("@context", .oneOf [string, .all [arrayOf (.oneOf [string, object]),
      .contains (textConst "https://www.w3.org/2018/credentials/v1")]]), ("type",
        .oneOf [string, .all [arrayOf string, .contains (textConst "VerifiableCredential")]]),
    ("issuer", .oneOf [uri, record ["id"] [("id", uri), ("name", string)]]),
    ("issuanceDate", dateTime), ("validFrom", dateTime), ("expirationDate", dateTime),
    ("validUntil", dateTime), ("credentialSubject", credentialSubject),
    ("credentialStatus", credentialStatus), ("credentialSchema", vcSchema),
    ("evidence", arrayOf evidence), ("termsOfUse", arrayOf termsOfUse),
    ("proof", .oneOf [proof, arrayOf proof])]

def credentialIdentity : Schema :=
  record ["id", "type"] [("id", uri),
    ("type", stringIn ["issuer", "subject", "holder", "verifier"])]

def credentialState : Schema :=
  record ["status", "balance"]
    [("status", stringIn ["active", "suspended", "revoked", "expired"]),
      ("balance", textConst "1"),
      ("effectiveFrom", dateTime), ("effectiveUntil", dateTime),
      ("verificationAttempts", .all [.type .integer, .minimum 0]),
      ("customState", object), ("stateCommitment", string)]

def credentialSchema : Schema :=
  record ["@context", "@type", "id", "metadata", "claims", "identities", "state"]
    [("@context", .oneOf [uri, arrayOf (.oneOf [uri, object])]),
      ("@type", textConst "CredentialToken"),
      ("id", uri),
      ("metadata", credentialMetadata),
      ("data", object),
      ("claims", .all [arrayOf verifiableCredential, .minItems 1]),
      ("identities", arrayOf credentialIdentity),
      ("state", credentialState)]

end Wayfinder.Service.CredentialSchema

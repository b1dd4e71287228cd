import Wayfinder.Service.TokenSchema

/-! `token-interfaces.yaml`: the schemas of a token class and of the request to register one.

Descriptions, examples and defaults decide nothing and are left out. `TokenSchema` has the
same identity, closed to other keys. -/
namespace Wayfinder.Service.TokenClassSchema

open Js Schema

def identity : Schema :=
  record ["id", "type"] [("id", stringOf .uriReference), ("type", stringIn ["issuer", "creator",
    "owner", "operator", "custodian", "manager", "controller"]), ("roles", arrayOf string)]

def decimals : Schema := .all [.type .integer, .minimum 0, .maximum 18]

def chainDeployment : Schema :=
  record ["chainId", "contractAddress", "assetType", "decimals"]
    [("chainId", string), ("contractAddress", string), ("assetType",
      stringIn ["erc20", "erc721", "erc1155", "native", "spl"]), ("decimals", decimals)]

/-- What a class says of its instances. -/
def instanceSchema : Schema := record [] [("metadata", object), ("data", object)]

def classMetadata : Schema :=
  record []
    [("fungible", boolean), ("decimals", decimals), ("category", string), ("tags", arrayOf string),
      ("createdAt", stringOf .dateTime), ("updatedAt", stringOf .dateTime)]

def tokenClass : Schema :=
  record ["tokenClass", "tokenStandard", "name", "schema", "status"] [("tokenClass", string),
    ("tokenStandard", string), ("name", string), ("description", string),
    ("status", stringIn ["active", "inactive", "deprecated", "test"]), ("schema", instanceSchema),
    ("identities", arrayOf identity), ("chainDeployments", arrayOf chainDeployment),
    ("metadata", classMetadata)]

def registerTokenClassRequest : Schema :=
  record ["tokenClass", "tokenStandard", "name", "schema"]
    [("tokenClass", string), ("tokenStandard", string), ("name", string), ("description", string),
      ("schema", object), ("identities", arrayOf identity), ("metadata", object),
      ("chainDeployments", arrayOf chainDeployment)]

end Wayfinder.Service.TokenClassSchema

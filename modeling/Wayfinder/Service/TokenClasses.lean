import Wayfinder.Service.Credentials

/-! `tokenclasses.ts`: the registry of token classes.

`schema` and `metadata` are open objects. `status` is always `active` and is left out. -/
namespace Wayfinder.Service.TokenClasses

open Js Credentials

variable (P : Primitives) (E : Env)

structure ClassIdentity where
  id : Str
  type : Str
  roles : Option (List Str) := none

structure TokenClass where
  tokenClass : Str
  tokenStandard : Str
  name : Str
  description : Option Str
  schema : Fields
  identities : List ClassIdentity
  metadata : Fields

/-- The classes by name, in the order of registration. -/
abbrev State := JsMap Str TokenClass

/-- The class that the service starts with; the time is its second draw. -/
def propDeed : TokenClass :=
  let now := E.now 1
  { tokenClass := lit "PROP-DEED"
    tokenStandard := lit "UNITS-NFT"
    name := lit "Property Deed"
    description := some (lit
      "A tokenized real-world property deed. KYC-gated: minting requires the owner to hold a valid KYC credential.")
    schema :=
      [(lit "type", .str (lit "object")),
        (lit "properties", .obj [(lit "data", .obj [(lit "type", .str (lit "object")),
          (lit "properties", .obj [(lit "assetId", .obj [(lit "type", .str (lit "string"))]),
            (lit "propertyAddress", .obj [(lit "type", .str (lit "string"))])])])])]
    identities :=
      [⟨(issuerInfo P E).did, lit "issuer", some [lit "admin", lit "minter", lit "compliance"]⟩]
    metadata :=
      [(lit "fungible", .bool false), (lit "symbol", .str (lit "DEED")),
        (lit "decimals", .num .zero),
        (lit "category", .str (lit "real_world_asset")), (lit "requiresKYC", .bool true),
        (lit "createdAt", .str now), (lit "updatedAt", .str now)] }

def seed : State := JsMap.empty.set (propDeed P E).tokenClass (propDeed P E)

def getTokenClass (s : State) (tokenClass : Str) : Option TokenClass := s.get tokenClass

structure RegisterTokenClassInput where
  tokenClass : Str
  tokenStandard : Str
  name : Str
  description : Option Str := none
  schema : Option Fields := none
  identities : Option (List ClassIdentity) := none
  metadata : Option Fields := none

/-- The class of a registration; the time is drawn. -/
def newTokenClass (n : Nat) (input : RegisterTokenClassInput) : TokenClass :=
  let now := E.now n
  { tokenClass := input.tokenClass
    tokenStandard := input.tokenStandard
    name := input.name
    description := input.description
    schema := input.schema.getD [(lit "type", .str (lit "object"))]
    identities :=
      input.identities.getD [⟨(issuerInfo P E).did, lit "issuer", some [lit "admin", lit "minter"]⟩]
    metadata :=
      assignFields (assignFields [(lit "fungible", .bool true)] (input.metadata.getD []))
        [(lit "createdAt", .str now), (lit "updatedAt", .str now)] }

def registerTokenClass (n : Nat) (s : State) (input : RegisterTokenClassInput) :
    State × TokenClass :=
  let tc := newTokenClass P E n input
  (s.set tc.tokenClass tc, tc)

def tokenClassExists (s : State) (tokenClass : Str) : Bool := s.has tokenClass

/-- The compliance flag of a class. -/
def TokenClass.requiresKYC (tc : TokenClass) : Bool :=
  truthy (getField tc.metadata (lit "requiresKYC"))

end Wayfinder.Service.TokenClasses

import Wayfinder.Js.Pointer

/-! `spec.ts`: the vendored OpenAPI documents as one document for the validator.

A document is what the YAML reader made of a file: an object, as a tree. The rewrites edit in
place there and give the edited tree here. -/
namespace Wayfinder.Service.Spec

open Js

/-- An OpenAPI document. -/
abbrev Doc := Fields

/-! ### Rewrites -/

/-- `if (obj.nullable === true && obj.type === undefined) delete obj.nullable` -/
def dropTypelessNullable (fs : Fields) : Fields :=
  match getField fs (lit "nullable"), getField fs (lit "type") with
  | some (.bool true), none => deleteField fs (lit "nullable")
  | _, _ => fs

mutual

/-- An object drops its own flag after its fields here, before them there; no field is a
flag of another. -/
def stripTypelessNullable : Json → Json
  | .arr items => .arr (stripItems items)
  | .obj fs => .obj (dropTypelessNullable (stripFields fs))
  | .null => .null
  | .bool b => .bool b
  | .num q => .num q
  | .str s => .str s

def stripItems : List Json → List Json
  | [] => []
  | j :: rest => stripTypelessNullable j :: stripItems rest

def stripFields : List (Str × Json) → List (Str × Json)
  | [] => []
  | (k, v) :: rest => (k, stripTypelessNullable v) :: stripFields rest

end

/-- `items.includes('accepted')` -/
def includesAccepted (items : List Json) : Bool :=
  items.any fun | .str s => s == lit "accepted" | _ => false

/-- Adds `accepted` to the `enum` of a status. -/
def acceptStatus : Json → Json
  | .obj fs =>
    match getField fs (lit "enum") with
    | some (.arr items) =>
      if includesAccepted items then .obj fs
        else .obj (setField fs (lit "enum") (.arr (items ++ [.str (lit "accepted")])))
    | _ => .obj fs
  | j => j

/-- A body in JSON, of a schema by its name. -/
def jsonContent (name : Str) : Json :=
  .obj [(lit "application/json",
    .obj [(lit "schema", .obj [(lit "$ref", .str (lit "#/components/schemas/" ++ name))])])]

def proofPath : Str := lit "/v1/transaction/proof"

def proofItem : Json :=
  .obj [(lit "post", .obj [(lit "summary", .str
    (lit "Get Merkle inclusion proof for a transaction (binding added in-memory; see spec.ts).")),
    (lit "requestBody", .obj [(lit "required", .bool true),
      (lit "content", jsonContent (lit "ApiRequest_GetProofRequest"))]), (lit "responses",
        .obj [(lit "200", .obj [(lit "description", .str (lit "Merkle proof details")),
          (lit "content", jsonContent (lit "ApiResponse_ProofDetails"))])])])]

/-- What `in` finds on every plain object. -/
def inherited : List Str :=
  ["constructor", "__defineGetter__", "__defineSetter__", "hasOwnProperty", "__lookupGetter__",
    "__lookupSetter__", "isPrototypeOf", "propertyIsEnumerable", "toString", "valueOf",
    "__proto__", "toLocaleString"].map lit

/-- `name in o`, of a plain object. -/
def isIn (fs : Fields) (name : Str) : Bool := (getField fs name).isSome || inherited.contains name

/-- `Object.entries(v ?? {})` -/
def entries (v : Option Json) : Fields := (v.map Json.spread).getD []

def componentSections : List Str :=
  [lit "schemas", lit "responses", lit "parameters", lit "securitySchemes"]

/-- `doc.components?.[section]`, its entries. -/
def sectionEntries (doc : Doc) (name : Str) : Fields :=
  entries (readProp? (getField doc (lit "components")) name)

/-- Adds the entries whose names are not there: the first definition wins. -/
def addMissing (fs : Fields) (more : Fields) : Fields :=
  more.foldl (fun fs p => if isIn fs p.1 then fs else setField fs p.1 p.2) fs

/-- A section of the merged components. -/
def mergedSection (docs : List Doc) (name : Str) : Fields :=
  docs.foldl (fun fs doc => addMissing fs (sectionEntries doc name)) []

def mergedPaths (docs : List Doc) : Fields :=
  docs.foldl (fun fs doc => assignFields fs (entries (getField doc (lit "paths")))) []

end Wayfinder.Service.Spec

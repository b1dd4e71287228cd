import Wayfinder.Js.Json

/-! JSON Schema, as far as the vendored schemas use it.

A `Schema` is one keyword or several that stand together. `validate` is the decision
that ajv compiles from it: a keyword says nothing of a value that is not of its kind, and
the `format` of a string is left to the format library. -/
namespace Wayfinder.Js

inductive JsonType where
  | object | array | string | number | integer | boolean | null
deriving DecidableEq

inductive Format where
  | uri | uriReference | dateTime | date | uuid
deriving DecidableEq

inductive Schema where
  | type (t : JsonType)
  | const (value : Json)
  | enum (values : List Str)
  | format (f : Format)
  | pattern (accepts : Str → Bool)
  | minLength (n : Nat)
  | maxLength (n : Nat)
  | minimum (n : Nat)
  | maximum (n : Nat)
  | required (keys : List Str)
  | properties (fields : List (Str × Schema))
  /-- `additionalProperties: false` beside the declared properties. -/
  | only (keys : List Str)
  | items (s : Schema)
  | minItems (n : Nat)
  | contains (s : Schema)
  | oneOf (alternatives : List Schema)
  /-- Keywords that stand together. -/
  | all (keywords : List Schema)

namespace Schema

def hasType : JsonType → Json → Bool
  | .object, .obj _ => true
  | .array, .arr _ => true
  | .string, .str _ => true
  | .number, .num _ => true
  | .integer, .num q => q.isInteger
  | .boolean, .bool _ => true
  | .null, .null => true
  | _, _ => false

/-- `const` of a scalar. -/
def sameScalar : Json → Json → Bool
  | .null, .null => true
  | .bool a, .bool b => a == b
  | .num p, .num q => p == q
  | .str s, .str t => s == t
  | _, _ => false

/-- The length of a string in characters: a surrogate pair is one. -/
def characters : Str → Nat
  | [] => 0
  | [_] => 1
  | u :: v :: rest =>
    if isLeadSurrogate u && isTrailSurrogate v then characters rest + 1
      else characters (v :: rest) + 1

def onString (p : Str → Bool) : Json → Bool
  | .str s => p s
  | _ => true

def onNumber (p : Number → Bool) : Json → Bool
  | .num q => p q
  | _ => true

def onArray (p : List Json → Bool) : Json → Bool
  | .arr xs => p xs
  | _ => true

def onObject (p : Fields → Bool) : Json → Bool
  | .obj fs => p fs
  | _ => true

section
variable (validFormat : Format → Str → Bool)

mutual

def validate : Schema → Json → Bool
  | .type t, j => hasType t j
  | .const c, j => sameScalar c j
  | .enum values, j => match j with
    | .str s => values.contains s
    | _ => false
  | .format f, j => onString (validFormat f) j
  | .pattern accepts, j => onString accepts j
  | .minLength n, j => onString (fun s => n ≤ characters s) j
  | .maxLength n, j => onString (fun s => characters s ≤ n) j
  | .minimum n, j => onNumber (·.atLeast n) j
  | .maximum n, j => onNumber (·.atMost n) j
  | .required keys, j => onObject (fun fs => keys.all fun k => (getField fs k).isSome) j
  | .properties fields, j => onObject (validateFields fields) j
  | .only keys, j => onObject (fun fs => fs.all fun p => keys.contains p.1) j
  | .items s, j => onArray (fun xs => xs.all (validate s)) j
  | .minItems n, j => onArray (fun xs => n ≤ xs.length) j
  | .contains s, j => onArray (fun xs => xs.any (validate s)) j
  | .oneOf alternatives, j => countValid alternatives j == 1
  | .all keywords, j => validateAll keywords j

/-- Every declared property that is there satisfies its schema. -/
def validateFields : List (Str × Schema) → Fields → Bool
  | [], _ => true
  | (k, s) :: rest, fs =>
    (match getField fs k with
    | none => true
    | some v => validate s v) && validateFields rest fs

/-- How many alternatives accept. -/
def countValid : List Schema → Json → Nat
  | [], _ => 0
  | s :: rest, j => (if validate s j then 1 else 0) + countValid rest j

def validateAll : List Schema → Json → Bool
  | [], _ => true
  | s :: rest, j => validate s j && validateAll rest j

end

end

theorem validate_all (validFormat : Format → Str → Bool) (keywords : List Schema) (j : Json) :
    validate validFormat (.all keywords) j = keywords.all fun s => validate validFormat s j := by
  rw [validate]
  induction keywords with
  | nil => rfl
  | cons s rest ih => rw [validateAll, ih, List.all_cons]

theorem validateFields_eq (validFormat : Format → Str → Bool) (fields : List (Str × Schema))
    (fs : Fields) :
    validateFields validFormat fields fs = fields.all fun p =>
      ((getField fs p.1).map (validate validFormat p.2)).getD true := by
  induction fields with
  | nil => rfl
  | cons p rest ih =>
    rw [validateFields, ih, List.all_cons]
    cases getField fs p.1 <;> rfl

/-! ### Keywords that the vendored schemas combine -/

def string : Schema := .type .string

def boolean : Schema := .type .boolean

def object : Schema := .type .object

def stringOf (f : Format) : Schema := .all [.type .string, .format f]

def stringIn (values : List String) : Schema := .all [.type .string, .enum (values.map lit)]

def arrayOf (s : Schema) : Schema := .all [.type .array, .items s]

def textConst (s : String) : Schema := .const (.str (lit s))

/-- An object with required keys and declared properties, open to others. -/
def record (required : List String) (fields : List (String × Schema)) : Schema :=
  .all [.type .object, .required (required.map lit),
    .properties (fields.map fun p => (lit p.1, p.2))]

/-- An object with no other keys than the declared ones. -/
def closedRecord (required : List String) (fields : List (String × Schema)) : Schema :=
  .all [record required fields, .only (fields.map fun p => lit p.1)]

/-! ### What a record asks of a field -/

section
variable {validFormat : Format → Str → Bool} {required : List String}
  {fields : List (String × Schema)} {fs : Fields} {k : String} {s : Schema} {v : Json}

theorem validate_record : validate validFormat (record required fields) (.obj fs) =
    ((required.map lit).all (fun k => (getField fs k).isSome) &&
      fields.all fun p => ((getField fs (lit p.1)).map (validate validFormat p.2)).getD true) := by
  have hproperties :
      validate validFormat (.properties (fields.map fun p => (lit p.1, p.2))) (.obj fs) =
        fields.all fun p => ((getField fs (lit p.1)).map (validate validFormat p.2)).getD true := by
    rw [validate, onObject, validateFields_eq, List.all_map]
    rfl
  simp only [record, validate_all, List.all_cons, List.all_nil, hproperties, Bool.and_true]
  rfl

theorem record_field (h : validate validFormat (record required fields) (.obj fs) = true)
    (hmem : (k, s) ∈ fields) (hget : getField fs (lit k) = some v) :
    validate validFormat s v = true := by
  rw [validate_record, Bool.and_eq_true, List.all_eq_true, List.all_eq_true] at h
  have hfield := h.2 (k, s) hmem
  rwa [hget] at hfield

theorem record_required (h : validate validFormat (record required fields) (.obj fs) = true)
    (hmem : k ∈ required) :
    (getField fs (lit k)).isSome := by
  rw [validate_record, Bool.and_eq_true, List.all_eq_true] at h
  exact h.1 (lit k) (List.mem_map_of_mem hmem)

theorem record_intro (hrequired : (required.map lit).all (fun k => (getField fs k).isSome) = true)
    (hfields : ∀ p ∈ fields,
      ((getField fs (lit p.1)).map (validate validFormat p.2)).getD true = true) :
    validate validFormat (record required fields) (.obj fs) = true := by
  rw [validate_record, hrequired, Bool.true_and, List.all_eq_true]
  exact hfields

/-- A declared field may be written anew, with a value that its schema accepts. -/
theorem record_setField (h : validate validFormat (record required fields) (.obj fs) = true)
    (hkeys : (fields.map fun p => lit p.1).Nodup) (hmem : (k, s) ∈ fields)
    (hv : validate validFormat s v = true) :
    validate validFormat (record required fields) (.obj (setField fs (lit k) v)) = true := by
  refine record_intro ?_ fun p hp => ?_
  · rw [List.all_eq_true]
    intro _ hmapped
    obtain ⟨k', hk', rfl⟩ := List.mem_map.mp hmapped
    rw [getField_setField]
    split
    · rfl
    · exact record_required h hk'
  · rw [getField_setField]
    split
    · next hk =>
      have hsame : (k, s) = p := List.inj_on_of_nodup_map hkeys hmem hp hk
      rw [← hsame]
      exact hv
    · cases hget : getField fs (lit p.1) with
      | none => rfl
      | some w => exact record_field h hp hget

theorem closedRecord_field
    (h : validate validFormat (closedRecord required fields) (.obj fs) = true)
    (hmem : (k, s) ∈ fields) (hget : getField fs (lit k) = some v) :
    validate validFormat s v = true := by
  rw [closedRecord, validate_all, List.all_eq_true] at h
  exact record_field (h _ (List.mem_cons_self ..)) hmem hget

theorem closedRecord_intro
    (honly : fs.all (fun p => (fields.map fun p => lit p.1).contains p.1) = true)
    (hrecord : validate validFormat (record required fields) (.obj fs) = true) :
    validate validFormat (closedRecord required fields) (.obj fs) = true := by
  rw [closedRecord, validate_all, List.all_cons, hrecord, List.all_cons, List.all_nil,
    Bool.and_true]
  exact honly

end

/-! ### Other combinations -/

section
variable {validFormat : Format → Str → Bool}

theorem validate_arrayOf {α : Type} (s : Schema) (f : α → Json) (xs : List α) :
    validate validFormat (arrayOf s) (.arr (xs.map f)) = xs.all fun x =>
      validate validFormat s (f x) := by
  rw [arrayOf, validate_all, List.all_cons, List.all_cons, List.all_nil, Bool.and_true]
  show (true && (xs.map f).all (validate validFormat s)) = _
  rw [Bool.true_and, List.all_map]
  rfl

theorem validate_stringOf (f : Format) (t : Str) :
    validate validFormat (stringOf f) (.str t) = validFormat f t := by
  rw [stringOf, validate_all, List.all_cons, List.all_cons, List.all_nil, Bool.and_true]
  rfl

theorem validate_strings (xs : List Str) :
    validate validFormat (arrayOf string) (.arr (xs.map .str)) = true := by
  rw [validate_arrayOf, List.all_eq_true]
  exact fun _ _ => rfl

/-- Of two alternatives of which the second refuses a value, the first decides. -/
theorem validate_oneOf_left {s t : Schema} {j : Json} (h : validate validFormat t j = false) :
    validate validFormat (.oneOf [s, t]) j = validate validFormat s j := by
  simp only [validate, countValid, h]
  cases validate validFormat s j <;> rfl

theorem validate_oneOf_right {s t : Schema} {j : Json} (h : validate validFormat s j = false) :
    validate validFormat (.oneOf [s, t]) j = validate validFormat t j := by
  simp only [validate, countValid, h]
  cases validate validFormat t j <;> rfl

theorem hasType_string {v : Json} (h : hasType .string v = true) : ∃ s, v = .str s := by
  cases v with
  | str s => exact ⟨s, rfl⟩
  | _ => cases h

theorem hasType_integer {v : Json} (h : hasType .integer v = true) :
    ∃ q, v = .num q ∧ q.isInteger = true := by
  cases v with
  | num q => exact ⟨q, rfl, h⟩
  | _ => cases h

theorem characters_pos {s : Str} (h : s ≠ []) : 1 ≤ characters s := by
  match s with
  | [] => exact absurd rfl h
  | [_] => exact Nat.le_refl 1
  | u :: v :: rest =>
    rw [characters]
    split
    · exact Nat.le_add_left 1 _
    · exact Nat.le_add_left 1 _

end

end Schema

end Wayfinder.Js

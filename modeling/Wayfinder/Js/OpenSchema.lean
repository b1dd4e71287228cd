import Wayfinder.Js.KeyEquiv
import Wayfinder.Js.Schema

/-! JSON Schema that is itself a value, as far as `type`, `properties` and `required`.

Other keywords say nothing here, nor does a keyword whose value is not of its kind. What
these three ask depends on the shape of a value only: on its kind and, of an object, on its
keys with the shapes behind them (`accepts_congr`). -/
namespace Wayfinder.Js

/-- The names of the types. -/
def typeNamed (name : Str) : Option JsonType :=
  if name = lit "object" then some .object
  else if name = lit "array" then some .array
  else if name = lit "string" then some .string
  else if name = lit "number" then some .number
  else if name = lit "integer" then some .integer
  else if name = lit "boolean" then some .boolean
  else if name = lit "null" then some .null
  else none

/-- Whether a value has the type of a name. -/
def hasTypeNamed (value : Json) : Json → Bool
  | .str name => match typeNamed name with
    | some t => Schema.hasType t value
    | none => false
  | _ => false

/-- `type`: a name, or a list of names of which one fits. -/
def acceptsType (value : Json) : Json → Bool
  | .arr names => names.any (hasTypeNamed value)
  | .str name => hasTypeNamed value (.str name)
  | _ => true

/-- `required`: of an object, the keys that are there. -/
def acceptsRequired (value : Json) : Json → Bool
  | .arr keys => Schema.onObject (fun fs => keys.all fun k => match k with
    | .str k => (getField fs k).isSome
    | _ => true) value
  | _ => true

mutual

/-- Whether a schema accepts a value. -/
def accepts : Json → Json → Bool
  | .bool b, _ => b
  | .obj keywords, value => acceptsKeywords keywords value
  | _, _ => true
termination_by structural schema => schema

def acceptsKeywords : Fields → Json → Bool
  | [], _ => true
  | (keyword, v) :: rest, value => acceptsKeyword v keyword value && acceptsKeywords rest value

/-- A keyword with its value. -/
def acceptsKeyword : Json → Str → Json → Bool
  | .obj properties, keyword, value =>
    keyword != lit "properties" || Schema.onObject (acceptsProperties properties) value
  | v, keyword, value =>
    (keyword != lit "type" || acceptsType value v) &&
      (keyword != lit "required" || acceptsRequired value v)

/-- `properties`: every declared property that is there. -/
def acceptsProperties : Fields → Fields → Bool
  | [], _ => true
  | (k, schema) :: rest, fs =>
    (match getField fs k with
    | none => true
    | some v => accepts schema v) && acceptsProperties rest fs

end

/-! ### Shapes -/

/-- The shape of a value. -/
inductive Shape where
  | null
  | boolean
  | integer
  | fraction
  | string
  | array
  | object (fields : List (Str × Shape))

mutual

def shape : Json → Shape
  | .null => .null
  | .bool _ => .boolean
  | .num q => if q.isInteger then .integer else .fraction
  | .str _ => .string
  | .arr _ => .array
  | .obj fs => .object (shapeFields fs)

def shapeFields : Fields → List (Str × Shape)
  | [] => []
  | (k, v) :: rest => (k, shape v) :: shapeFields rest

end

theorem getField_shape (fs : Fields) (k : Str) :
    (getField fs k).map shape = ((shapeFields fs).find? fun p => p.1 = k).map Prod.snd := by
  induction fs with
  | nil => rfl
  | cons p rest ih =>
    rw [getField_cons, shapeFields, List.find?_cons]
    by_cases hk : p.1 = k
    · simp [hk]
    · simp [hk, ih]

section
variable {a b : Json} (h : shape a = shape b)
include h

theorem hasType_congr (t : JsonType) : Schema.hasType t a = Schema.hasType t b := by
  cases a with
  | num q =>
    cases b with
    | num r =>
      simp only [shape] at h
      cases t <;> simp only [Schema.hasType]
      split at h <;> split at h <;> simp_all
    | _ =>
      simp only [shape] at h
      split at h <;> cases h
  | _ =>
    cases b with
    | num r =>
      simp only [shape] at h
      split at h <;> cases h
    | _ => cases t <;> simp_all [shape, Schema.hasType]

theorem acceptsType_congr (v : Json) : acceptsType a v = acceptsType b v := by
  have hnamed : hasTypeNamed a = hasTypeNamed b := by
    funext name
    cases name <;> simp [hasTypeNamed, hasType_congr h]
  cases v <;> simp [acceptsType, hnamed]

/-- Two values of one shape are both objects, with fields of the same shapes, or neither is. -/
theorem onObject_congr {p : Fields → Bool}
    (hp : ∀ fs gs, shapeFields fs = shapeFields gs → p fs = p gs) :
    Schema.onObject p a = Schema.onObject p b := by
  cases a with
  | num q =>
    cases b with
    | obj gs =>
      simp only [shape] at h
      split at h <;> cases h
    | _ => rfl
  | obj fs =>
    cases b with
    | obj gs => exact hp fs gs (Shape.object.inj h)
    | num r =>
      simp only [shape] at h
      split at h <;> cases h
    | _ => cases h
  | _ =>
    cases b with
    | obj gs => cases h
    | _ => rfl

end

theorem getField_isSome_congr {fs gs : Fields} (h : shapeFields fs = shapeFields gs) (k : Str) :
    (getField fs k).isSome = (getField gs k).isSome := by
  rw [← Option.isSome_map (f := shape), getField_shape, h, ← getField_shape, Option.isSome_map]

theorem acceptsRequired_congr {a b : Json} (h : shape a = shape b) (v : Json) :
    acceptsRequired a v = acceptsRequired b v := by
  cases v with
  | arr keys =>
    apply onObject_congr h
    intro fs gs hshape
    apply congrArg keys.all
    funext k
    cases k <;> simp [getField_isSome_congr hshape]
  | _ => rfl

/-- What the properties say depends on the shapes behind the declared keys. -/
theorem acceptsProperties_shapes {properties fs gs : Fields}
    (h : ∀ p ∈ properties, ∀ a b, shape a = shape b → accepts p.2 a = accepts p.2 b)
    (hshape : ∀ p ∈ properties, (getField fs p.1).map shape = (getField gs p.1).map shape) :
    acceptsProperties properties fs = acceptsProperties properties gs := by
  induction properties with
  | nil => rfl
  | cons p rest ih =>
    have hrest := ih (fun q hq => h q (List.mem_cons_of_mem p hq)) fun q hq =>
      hshape q (List.mem_cons_of_mem p hq)
    have hp := hshape p (List.mem_cons_self ..)
    rw [acceptsProperties, acceptsProperties, hrest]
    cases hf : getField fs p.1 with
    | none =>
      cases hg : getField gs p.1 with
      | none => rfl
      | some w => simp [hf, hg] at hp
    | some v =>
      cases hg : getField gs p.1 with
      | none => simp [hf, hg] at hp
      | some w =>
        rw [hf, hg] at hp
        show (accepts p.2 v && _) = (accepts p.2 w && _)
        rw [h p (List.mem_cons_self ..) v w (Option.some.inj hp)]

/-- **What a schema says depends on the shape of the value.** -/
theorem accepts_congr (schema : Json) :
    ∀ a b, shape a = shape b → accepts schema a = accepts schema b := by
  -- of an object both what it says as a schema and what it says as the properties of one
  have hparts : (∀ a b, shape a = shape b → accepts schema a = accepts schema b) ∧
      ∀ properties, schema = .obj properties → ∀ fs gs, shapeFields fs = shapeFields gs →
        acceptsProperties properties fs = acceptsProperties properties gs := by
    induction schema using Json.induct with
    | obj keywords ih =>
      refine ⟨fun a b h => ?_, fun properties hproperties fs gs hshape => ?_⟩
      · have hkeyword : ∀ p ∈ keywords, acceptsKeyword p.2 p.1 a = acceptsKeyword p.2 p.1 b := by
          intro p hp
          obtain ⟨keyword, v⟩ := p
          have hih := ih _ hp
          cases v with
          | obj properties =>
            have hobject := onObject_congr h (hih.2 properties rfl)
            simp only [acceptsKeyword, hobject]
          | _ => simp only [acceptsKeyword, acceptsType_congr h, acceptsRequired_congr h]
        show acceptsKeywords keywords a = acceptsKeywords keywords b
        clear ih
        induction keywords with
        | nil => rfl
        | cons p rest hrest =>
          rw [acceptsKeywords, acceptsKeywords, hkeyword p (List.mem_cons_self ..),
            hrest fun q hq => hkeyword q (List.mem_cons_of_mem p hq)]
      · cases hproperties
        apply acceptsProperties_shapes
        · exact fun p hp => (ih p hp).1
        · intro p _
          rw [getField_shape, getField_shape, hshape]
    | _ => exact ⟨fun _ _ _ => rfl, fun _ h => by cases h⟩
  exact hparts.1

/-! ### One property apart from the others -/

/-- What a keyword says of a property. -/
def keywordSchemas (k keyword : Str) : Json → List Json
  | .obj properties =>
    if keyword = lit "properties" then (properties.filter (·.1 == k)).map Prod.snd else []
  | _ => []

/-- The value of a keyword without what it says of a property. -/
def keywordWithout (k keyword : Str) : Json → Json
  | .obj properties =>
    .obj (if keyword = lit "properties" then dropField properties k else properties)
  | v => v

/-- The schemas of a property. -/
def propertySchemas (schema : Fields) (k : Str) : List Json :=
  schema.flatMap fun p => keywordSchemas k p.1 p.2

/-- The schema without what it says of a property. -/
def withoutProperty (schema : Fields) (k : Str) : Fields :=
  schema.map fun p => (p.1, keywordWithout k p.1 p.2)

section
variable {fs gs : Fields} {k : Str} {v : Json} (hfs : getField fs k = some v) (hgs :
  (getField gs k).isSome) (hshape : shapeFields (dropField fs k) = shapeFields (dropField gs k))

include hshape in
theorem getField_apart {k' : Str} (hk : k' ≠ k) :
    (getField fs k').map shape = (getField gs k').map shape := by
  have hdrop (fs : Fields) : getField fs k' = getField (dropField fs k) k' := by
    rw [getField_dropField, if_neg (Ne.symm hk)]
  rw [hdrop fs, hdrop gs, getField_shape, getField_shape, hshape]

include hfs hgs hshape in
theorem isSome_apart (k' : Str) : (getField fs k').isSome = (getField gs k').isSome := by
  by_cases hk : k' = k
  · rw [hk, hfs, hgs]
    rfl
  · rw [← Option.isSome_map (f := shape), getField_apart hshape hk, Option.isSome_map]

include hfs hshape in
theorem acceptsProperties_split (properties : Fields) :
    acceptsProperties properties fs = (acceptsProperties (dropField properties k) gs &&
      ((properties.filter (·.1 == k)).map Prod.snd).all fun s => accepts s v) := by
  induction properties with
  | nil => rfl
  | cons p rest ih =>
    rw [acceptsProperties, ih]
    by_cases hp : p.1 = k
    · have hdrop : dropField (p :: rest) k = dropField rest k := by simp [dropField, hp]
      rw [hdrop, List.filter_cons_of_pos (by simpa using hp), List.map_cons, List.all_cons, hp, hfs]
      exact Bool.and_left_comm ..
    · have hdrop : dropField (p :: rest) k = p :: dropField rest k := by simp [dropField, hp]
      have hone : acceptsProperties [p] fs = acceptsProperties [p] gs :=
        acceptsProperties_shapes (fun q _ => accepts_congr q.2) fun q hq => by
          rw [List.mem_singleton.mp hq]
          exact getField_apart hshape hp
      rw [hdrop, List.filter_cons_of_neg (by simpa using hp), acceptsProperties, ← Bool.and_assoc]
      simp only [acceptsProperties, Bool.and_true] at hone
      rw [hone]

theorem acceptsType_object (fs gs : Fields) (v : Json) :
    acceptsType (.obj fs) v = acceptsType (.obj gs) v := by
  have hnamed : hasTypeNamed (.obj fs) = hasTypeNamed (.obj gs) := by
    funext name
    have htype (t : JsonType) : Schema.hasType t (.obj fs) = Schema.hasType t (.obj gs) := by
      cases t <;> rfl
    cases name <;> simp [hasTypeNamed, htype]
  cases v <;> simp [acceptsType, hnamed]

include hfs hgs hshape in
theorem acceptsRequired_object (v : Json) :
    acceptsRequired (.obj fs) v = acceptsRequired (.obj gs) v := by
  cases v with
  | arr keys =>
    apply congrArg keys.all
    funext k
    cases k <;> simp [isSome_apart hfs hgs hshape]
  | _ => rfl

include hfs hgs hshape in
theorem acceptsKeyword_split (keyword : Str) (value : Json) :
    acceptsKeyword value keyword (.obj fs) = (acceptsKeyword (keywordWithout k keyword value)
      keyword (.obj gs) && (keywordSchemas k keyword value).all fun s => accepts s v) := by
  cases value with
  | obj properties =>
    by_cases hk : keyword = lit "properties"
    · subst hk
      simp only [acceptsKeyword, keywordWithout, keywordSchemas, if_true, Schema.onObject,
        bne_self_eq_false, Bool.false_or]
      exact acceptsProperties_split hfs hshape properties
    · have hne : (keyword != lit "properties") = true := by simpa using hk
      simp only [acceptsKeyword, keywordWithout, keywordSchemas, if_neg hk, hne, Bool.true_or,
        List.all_nil, Bool.and_true]
  | _ =>
    simp only [acceptsKeyword, keywordWithout, keywordSchemas, List.all_nil, Bool.and_true,
      acceptsType_object fs gs, acceptsRequired_object hfs hgs hshape]

include hfs hgs hshape in
/-- A schema accepts an object when it accepts it but for one property, and what it says of
the property accepts that. -/
theorem accepts_split (schema : Fields) :
    accepts (.obj schema) (.obj fs) = (accepts (.obj (withoutProperty schema k)) (.obj gs) &&
      (propertySchemas schema k).all fun s => accepts s v) := by
  show acceptsKeywords schema (.obj fs) =
    (acceptsKeywords (withoutProperty schema k) (.obj gs) && _)
  induction schema with
  | nil => rfl
  | cons p rest ih =>
    have hschemas :
        propertySchemas (p :: rest) k = keywordSchemas k p.1 p.2 ++ propertySchemas rest k :=
      List.flatMap_cons
    have hwithout : withoutProperty (p :: rest) k =
      (p.1, keywordWithout k p.1 p.2) :: withoutProperty rest k := rfl
    rw [acceptsKeywords, ih, acceptsKeyword_split hfs hgs hshape, hschemas, List.all_append,
      hwithout, acceptsKeywords]
    simp only [Bool.and_assoc, Bool.and_left_comm]

end

end Wayfinder.Js

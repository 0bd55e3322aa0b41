import ResponseModel.Number.Numeral
import ResponseModel.Schema.Lookup
import ResponseModel.Value

/-!
# Coercion

Literals become values of the type of their position.  An integer in the place of a float becomes
a float, variables stay as they are, and a custom scalar takes any literal as it is written.
-/

namespace ResponseModel

/-! ## Without a type -/

/-- An integer of any size: an integer of the model if it fits, else a float, else its text. -/
def Value.ofIntText (text : String) : Value :=
  match int32OfText? text with
  | some value => .int value
  | none =>
      match Binary64.ofText? text with
      | some value => .float value
      | none => .string text

/-- A float, or its text if it is out of range. -/
def Value.ofFloatText (text : String) : Value :=
  match Binary64.ofText? text with
  | some value => .float value
  | none => .string text

namespace Literal

mutual

/-- The value that a literal stands for if nothing is known about its type. -/
def verbatim : Literal → Value
  | .null => .null
  | .boolean value => .boolean value
  | .string content => .string content
  | .int text => .ofIntText text
  | .float text => .ofFloatText text
  | .enum symbol => .enum symbol
  | .var name => .var name
  | .list items => .list (verbatimItems items)
  | .object fields => .object (verbatimFields fields)

/-- The values of the items of a list. -/
def verbatimItems : List Literal → List Value
  | [] => []
  | item :: rest => item.verbatim :: verbatimItems rest

/-- The values of the fields of an object. -/
def verbatimFields : List (Name × Literal) → List (Name × Value)
  | [] => []
  | (name, value) :: rest => (name, value.verbatim) :: verbatimFields rest

end

end Literal

/-! ## With a type -/

/-- What a named type admits in an input position. -/
inductive InputKind where
  | builtIn (type : NamedType)
  | anything
  | symbols (names : List Name)
  | fields (definitions : List InputDefinition)
  /-- A type that has no input values. -/
  | nothing
  | unknown

/-- What a named type admits, by its declaration.  The built-in scalars need none. -/
def Schema.inputKind (schema : Schema) (name : Name) : InputKind :=
  match NamedType.builtIn? name with
  | some type => .builtIn type
  | none =>
      match schema.body? name with
      | none => .unknown
      | some .scalar => .anything
      | some (.enum values) => .symbols (values.map EnumValueDefinition.name)
      | some (.inputObject definitions) => .fields definitions
      | some _ => .nothing

namespace Coercion

/-- The error for a literal that does not have the form of its type. -/
def mismatch (expected : TypeRef) (literal : Literal) : CoercionError :=
  .mismatch expected.text (literal.display 0)

/-- A number that was read, or the error for one that is out of range. -/
def number {α : Type} (expected : NamedType) (text : String) (make : α → Value) :
    Option α → Except CoercionError Value
  | some value => .ok (make value)
  | none => .error (.invalidNumber expected.name text)

/-- A literal in the place of a built-in scalar. -/
def builtIn (expected : TypeRef) (type : NamedType) (literal : Literal) :
    Except CoercionError Value :=
  match type, literal with
  | .int, .int text => number .int text .int (int32OfText? text)
  | .float, .int text => number .float text .float (Binary64.ofText? text)
  | .float, .float text => number .float text .float (Binary64.ofText? text)
  | .string, .string content => .ok (.string content)
  | .id, .string content => .ok (.string content)
  | .id, .int text => .ok (.string text)
  | .boolean, .boolean value => .ok (.boolean value)
  | _, literal => .error (mismatch expected literal)

/-- A literal without parts in the place of a named type. -/
def leaf (schema : Schema) (expected : TypeRef) (name : Name) (literal : Literal) :
    Except CoercionError Value :=
  match schema.inputKind name, literal with
  | .builtIn type, literal => builtIn expected type literal
  | .anything, literal => .ok literal.verbatim
  | .symbols names, .enum symbol =>
      if symbol ∈ names then .ok (.enum symbol) else .error (mismatch expected (.enum symbol))
  | .unknown, _ => .error (.unknownType name)
  | _, literal => .error (mismatch expected literal)

/-- The first required field that is not among the given names. -/
def missing? (definitions : List InputDefinition) (given : List Name) : Option Name :=
  (definitions.find? fun d => d.isRequired && !decide (d.name ∈ given)).map InputDefinition.name

mutual

/-- Coerces a literal to the type of its position. -/
def coerce (schema : Schema) : TypeRef → Literal → Except CoercionError Value
  | _, .var name => .ok (.var name)
  | expected, .null =>
      if expected.isRequired then .error (.nullInRequired expected.text) else .ok .null
  | .list item _, .list items => (coerceItems schema item items).map .list
  | .named name required, .list items =>
      .error (mismatch (.named name required) (.list items))
  | .list item required, literal => .error (mismatch (.list item required) literal)
  | .named name required, .object fields =>
      match schema.inputKind name with
      | .anything => .ok (Literal.object fields).verbatim
      | .fields definitions => do
          let coerced ← coerceFields schema name definitions [] fields
          match missing? definitions (fields.map Prod.fst) with
          | some field => .error (.missingField name field)
          | none => .ok (.object coerced)
      | .unknown => .error (.unknownType name)
      | _ => .error (mismatch (.named name required) (.object fields))
  | .named name required, literal => leaf schema (.named name required) name literal

/-- Coerces the items of a list. -/
def coerceItems (schema : Schema) (item : TypeRef) :
    List Literal → Except CoercionError (List Value)
  | [] => .ok []
  | literal :: rest => do
      let value ← coerce schema item literal
      let values ← coerceItems schema item rest
      .ok (value :: values)

/-- Coerces the fields of an input object, after those of the given names. -/
def coerceFields (schema : Schema) (object : Name) (definitions : List InputDefinition) :
    List Name → List (Name × Literal) → Except CoercionError (List (Name × Value))
  | _, [] => .ok []
  | before, (name, literal) :: rest =>
      if name ∈ before then .error (.duplicateField object name)
      else
        match definitions.find? (·.name = name) with
        | none => .error (.unknownField object name)
        | some definition => do
            let value ← coerce schema definition.type literal
            let values ← coerceFields schema object definitions (name :: before) rest
            .ok ((name, value) :: values)

end

/-- Coerces a literal that may be absent. -/
def coerceOption (schema : Schema) (type : TypeRef) :
    Option Literal → Except CoercionError (Option Value)
  | none => .ok none
  | some literal => (coerce schema type literal).map some

end Coercion

end ResponseModel

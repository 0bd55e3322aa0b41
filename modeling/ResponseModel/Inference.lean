import ResponseModel.Document.Resolved

/-!
# Variables of fragments

A fragment does not declare the variables that it uses.  They are found by looking at every
position that mentions one: the type of the position is a type for the variable, and a variable
used at several positions needs a type that suits them all.
-/

namespace ResponseModel

/-- A mention of a variable, or a fault met on the way. -/
inductive Use where
  /-- A variable at a position of the given type. -/
  | typed (name : Name) (type : TypeRef)
  /-- A variable at a position without a type, inside the literal of a custom scalar. -/
  | untyped (name : Name)
  | fault (error : DocumentError)
  deriving DecidableEq, Inhabited

/-! ## Uses in literals -/

namespace Literal

mutual

/-- The variables in a literal, in order. -/
def vars : Literal → List Name
  | .var name => [name]
  | .list items => varsOfItems items
  | .object fields => varsOfFields fields
  | _ => []

/-- The variables in the items of a list. -/
def varsOfItems : List Literal → List Name
  | [] => []
  | item :: rest => item.vars ++ varsOfItems rest

/-- The variables in the fields of an object. -/
def varsOfFields : List (Name × Literal) → List Name
  | [] => []
  | (_, value) :: rest => value.vars ++ varsOfFields rest

end

mutual

/-- The uses in a literal at a position of a type.  A list needs a list type and an object an input
object; at any other position nothing inside them has a type. -/
def uses (schema : Schema) : TypeRef → Literal → List Use
  | type, .var name => [.typed name type]
  | .list item _, .list items => usesOfItems schema item items
  | .named .., .list items => (varsOfItems items).map .untyped
  | type, .object fields =>
      match schema.inputFields? type.innerName with
      | some definitions => usesOfFields schema definitions fields
      | none => (varsOfFields fields).map .untyped
  | _, _ => []

/-- The uses in the items of a list. -/
def usesOfItems (schema : Schema) (item : TypeRef) : List Literal → List Use
  | [] => []
  | literal :: rest => literal.uses schema item ++ usesOfItems schema item rest

/-- The uses in the fields of an input object; fields that it does not have are passed over. -/
def usesOfFields (schema : Schema) (definitions : List InputDefinition) :
    List (Name × Literal) → List Use
  | [] => []
  | (name, literal) :: rest =>
      (match definitions.find? (·.name = name) with
        | some definition => literal.uses schema definition.type
        | none => [])
        ++ usesOfFields schema definitions rest

end

end Literal

/-! ## Uses in selections -/

/-- The uses in the arguments of a directive.  Directives and arguments that the schema does not
declare are passed over. -/
def Directive.uses (schema : Schema) (directive : Directive) : List Use :=
  match schema.directive? directive.name with
  | none => []
  | some definition =>
      directive.arguments.flatMap fun (name, literal) =>
        match definition.argument? name with
        | some input => literal.uses schema input.type
        | none => []

/-- The uses in a list of directives. -/
def directiveUses (schema : Schema) (directives : List Directive) : List Use :=
  directives.flatMap (Directive.uses schema)

/-- The uses in the arguments of a field. -/
def FieldNode.uses (schema : Schema) (definition : FieldDefinition) (node : FieldNode) :
    List Use :=
  node.arguments.flatMap fun (name, literal) =>
    match definition.argument? name with
    | some input => literal.uses schema input.type
    | none => [.fault (.unknownArgument node.name name)]

namespace Resolved

mutual

/-- The uses in a selection, in order, and the fragments entered so far.  A fragment that was
entered before is not entered again. -/
def uses (schema : Schema) (entered : List Name) : Resolved → List Use × List Name
  | .field _ node definition selections =>
      let below := usesAll schema entered selections
      (directiveUses schema node.directives ++ node.uses schema definition ++ below.1, below.2)
  | .inline _ _ directives selections =>
      let below := usesAll schema entered selections
      (directiveUses schema directives ++ below.1, below.2)
  | .spread name directives _ selections =>
      if name ∈ entered then (directiveUses schema directives, entered)
      else
        let below := usesAll schema (entered ++ [name]) selections
        (directiveUses schema directives ++ below.1, below.2)
  | .dangling name directives reason =>
      if name ∈ entered then (directiveUses schema directives, entered)
      else
        (directiveUses schema directives ++ [.fault (reason.error name)], entered ++ [name])

/-- The uses in a list of selections, in order, and the fragments entered so far. -/
def usesAll (schema : Schema) (entered : List Name) : List Resolved → List Use × List Name
  | [] => ([], entered)
  | selection :: rest =>
      let first := uses schema entered selection
      let others := usesAll schema first.2 rest
      (first.1 ++ others.1, others.2)

end

end Resolved

/-! ## Types of variables -/

namespace Inference

/-- Takes one use into account.  `fragment` is named in errors. -/
def record (fragment : Name) (types : List (Name × TypeRef)) :
    Use → Except DocumentError (List (Name × TypeRef))
  | .fault error => .error error
  | .untyped name => .error (.untypedVariable fragment name)
  | .typed name type =>
      match types.lookup name with
      | none => .ok (types ++ [(name, type)])
      | some known =>
          match known.meet? type with
          | none => .error (.ambiguousVariable fragment name known.text type.text)
          | some both => .ok (put name both types)

/-- Takes all uses into account, up to the first fault. -/
def recordAll (fragment : Name) :
    List (Name × TypeRef) → List Use → Except DocumentError (List (Name × TypeRef))
  | types, [] => .ok types
  | types, use :: rest => do
      let types ← record fragment types use
      recordAll fragment types rest

/-- The variables of a fragment with their types, in the order of their first use. -/
def infer (schema : Schema) (fragment : Name) (body : List Resolved) :
    Except DocumentError (List (Name × TypeRef)) :=
  recordAll fragment [] (Resolved.usesAll schema [] body).1

end Inference

end ResponseModel

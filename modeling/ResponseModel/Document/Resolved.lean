import ResponseModel.Document.Library
import ResponseModel.Schema.Lookup

/-!
# Resolved selections

Selections in which every field carries its definition and every spread the selections of the
fragment that it names.  A fragment that spreads itself would never end: it is entered again inside
itself for a number of rounds only.  A spread that is cut off in this way, or that names no
fragment, leads nowhere; whether that is an error depends on who follows it.
-/

namespace ResponseModel

/-- Why a spread leads nowhere. -/
inductive Dangling where
  /-- No fragment has the name. -/
  | undefined
  /-- The spread is part of the fragment that it names, and is not followed any further. -/
  | cyclic
  deriving DecidableEq, Inhabited

/-- The error of following a spread that leads nowhere. -/
def Dangling.error (name : Name) : Dangling → DocumentError
  | .undefined => .unknownFragment name
  | .cyclic => .cyclicFragment name

/-- A resolved selection. -/
inductive Resolved where
  /-- A field selected on the type `parent`. -/
  | field (parent : Name) (node : FieldNode) (definition : FieldDefinition)
      (selections : List Resolved)
  /-- An inline fragment; `type` is its condition, or the type around it if it has none. -/
  | inline (condition : Option Name) (type : Name) (directives : List Directive)
      (selections : List Resolved)
  /-- A spread of a fragment on the type `type`. -/
  | spread (name : Name) (directives : List Directive) (type : Name)
      (selections : List Resolved)
  /-- A spread that leads nowhere. -/
  | dangling (name : Name) (directives : List Directive) (reason : Dangling)
  deriving Inhabited

/-- A field that its type does not have. -/
structure UndefinedField where
  parent : Name
  name : Name
  deriving DecidableEq, Inhabited

namespace Selection

mutual

/-- Resolves a selection on a type, with the given way to resolve spreads. -/
def resolve (schema : Schema)
    (target : Name → List Directive → Except UndefinedField Resolved) (parent : Name) :
    Selection → Except UndefinedField Resolved
  | .field node selections =>
      match schema.field? parent node.name with
      | none => .error ⟨parent, node.name⟩
      | some definition =>
          (resolveAll schema target definition.type.innerName selections).map
            (.field parent node definition)
  | .spread name directives => target name directives
  | .inline condition directives selections =>
      (resolveAll schema target (condition.getD parent) selections).map
        (.inline condition (condition.getD parent) directives)

/-- Resolves the selections on a type. -/
def resolveAll (schema : Schema)
    (target : Name → List Directive → Except UndefinedField Resolved) (parent : Name) :
    List Selection → Except UndefinedField (List Resolved)
  | [] => .ok []
  | selection :: rest => do
      let first ← resolve schema target parent selection
      let others ← resolveAll schema target parent rest
      .ok (first :: others)

end

end Selection

namespace Library

/-- Resolves a spread inside the fragments `inside`.  A fragment is entered again inside itself
`rounds` times.  The fuel bounds the number of fragments around a spread. -/
def resolveSpread (library : Library) (schema : Schema) (rounds : Nat) :
    Nat → List Name → Name → List Directive → Except UndefinedField Resolved
  | 0, _, name, directives =>
      .ok (.dangling name directives
        (if (library.entry? name).isSome then .cyclic else .undefined))
  | fuel + 1, inside, name, directives =>
      match library.entry? name with
      | none => .ok (.dangling name directives .undefined)
      | some entry =>
          if rounds < inside.count name then .ok (.dangling name directives .cyclic)
          else
            (Selection.resolveAll schema
              (library.resolveSpread schema rounds fuel (name :: inside))
              entry.fragment.onType entry.fragment.selections).map
              (.spread name directives entry.fragment.onType)

/-- Resolves the selections of an operation or a fragment on a type.  No chain of fragments in which
each stands at most `rounds + 1` times is longer than so many times the library. -/
def resolve (library : Library) (schema : Schema) (rounds : Nat) (type : Name)
    (selections : List Selection) : Except UndefinedField (List Resolved) :=
  Selection.resolveAll schema
    (library.resolveSpread schema rounds (library.size * (rounds + 1)) []) type selections

end Library

namespace Resolved

/-! ## Depth -/

mutual

/-- How many fields lie below each other. -/
def depth : Resolved → Nat
  | .field _ _ _ selections => depthAll selections + 1
  | .inline _ _ _ selections => depthAll selections
  | .spread _ _ _ selections => depthAll selections
  | .dangling .. => 0

/-- The greatest depth of a list of selections. -/
def depthAll : List Resolved → Nat
  | [] => 0
  | selection :: rest => max selection.depth (depthAll rest)

end

end Resolved

end ResponseModel

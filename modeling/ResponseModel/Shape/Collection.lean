import ResponseModel.Condition
import ResponseModel.Document.Resolved

/-!
# Collecting fields

The fields that selection sets select for one shape.  Fragments that apply to the shape are
replaced by what they select, the conditions on the way are pushed down, and fields with one
response name are merged.
-/

namespace ResponseModel

/-- One selection of a field, with all conditions that lead to it. -/
structure Occurrence where
  /-- The type that the field is selected on. -/
  parent : Name
  node : FieldNode
  definition : FieldDefinition
  selections : List Resolved
  condition : Condition
  deriving Inhabited

/-- What flattening a selection set gives: occurrences of fields, and the fragments entered. -/
inductive Flat where
  | occurrence (occurrence : Occurrence)
  | fragment (name : Name)
  deriving Inhabited

namespace Resolved

mutual

/-- Flattens a selection under a condition.  `applies` tells the types whose fragments apply. -/
def flatten (applies : Name → Bool) (condition : Condition) :
    Resolved → Except DocumentError (List Flat)
  | .field parent node definition selections => do
      let own ← Condition.ofDirectives node.directives node.responseName
      .ok [.occurrence ⟨parent, node, definition, selections, condition.and own⟩]
  | .inline _ type directives selections =>
      if applies type then do
        let own ← Condition.ofDirectives directives ("... on " ++ type)
        flattenAll applies (condition.and own) selections
      else .ok []
  | .spread name directives type selections =>
      if applies type then do
        let own ← Condition.ofDirectives directives ("..." ++ name)
        let inner ← flattenAll applies (condition.and own) selections
        .ok (.fragment name :: inner)
      else .ok []
  | .dangling name _ reason => .error (reason.error name)

/-- Flattens a list of selections under a condition. -/
def flattenAll (applies : Name → Bool) (condition : Condition) :
    List Resolved → Except DocumentError (List Flat)
  | [] => .ok []
  | selection :: rest => do
      let first ← flatten applies condition selection
      let others ← flattenAll applies condition rest
      .ok (first ++ others)

end

/-! ## Type conditions -/

mutual

/-- The type conditions of the fragments in a selection, also of nested ones, but not below
fields. -/
def typeConditions : Resolved → Except DocumentError (List Name)
  | .field .. => .ok []
  | .inline condition _ _ selections =>
      (typeConditionsAll selections).map (condition.toList ++ ·)
  | .spread _ _ type selections => (typeConditionsAll selections).map (type :: ·)
  | .dangling name _ reason => .error (reason.error name)

/-- The type conditions of the fragments in a list of selections. -/
def typeConditionsAll : List Resolved → Except DocumentError (List Name)
  | [] => .ok []
  | selection :: rest => do
      let first ← typeConditions selection
      let others ← typeConditionsAll rest
      .ok (first ++ others)

end

end Resolved

/-! ## Merging -/

/-- All occurrences of one response name, of which there is at least one. -/
structure Merged where
  first : Occurrence
  others : List Occurrence
  deriving Inhabited

namespace Merged

/-- The occurrences in order. -/
def occurrences (merged : Merged) : List Occurrence := merged.first :: merged.others

/-- The first occurrence with the smallest key. -/
def leastBy (key : Occurrence → Nat) (merged : Merged) : Occurrence :=
  merged.others.foldl (fun best o => if key o < key best then o else best) merged.first

end Merged

/-- Adds an occurrence to those of its response name, or at the end if it is the first. -/
def addOccurrence (occurrence : Occurrence) : List (Name × Merged) → List (Name × Merged)
  | [] => [(occurrence.node.responseName, ⟨occurrence, []⟩)]
  | (name, merged) :: rest =>
      if name = occurrence.node.responseName then
        (name, { merged with others := merged.others ++ [occurrence] }) :: rest
      else (name, merged) :: addOccurrence occurrence rest

/-- The fields of a shape by response name, and the fragments that were merged into it. -/
structure Collected where
  fields : List (Name × Merged)
  fragments : List Name
  deriving Inhabited

namespace Collected

/-- Adds one piece of a flattened selection set. -/
def add (collected : Collected) : Flat → Collected
  | .occurrence occurrence =>
      { collected with fields := addOccurrence occurrence collected.fields }
  | .fragment name => { collected with fragments := insertNew collected.fragments name }

/-- Merges a flattened selection set. -/
def ofFlat (pieces : List Flat) : Collected := pieces.foldl add ⟨[], []⟩

/-- Whether a response name is selected. -/
def selects (collected : Collected) (responseName : Name) : Bool :=
  collected.fields.any (·.1 = responseName)

end Collected

/-- A selection set with the condition of the selection that it belongs to. -/
abbrev Branch := List Resolved × Condition

/-- Flattens several selection sets. -/
def flattenBranches (applies : Name → Bool) :
    List Branch → Except DocumentError (List Flat)
  | [] => .ok []
  | (selections, condition) :: rest => do
      let first ← Resolved.flattenAll applies condition selections
      let others ← flattenBranches applies rest
      .ok (first ++ others)

/-- The fields that several selection sets select for one shape. -/
def collect (applies : Name → Bool) (branches : List Branch) :
    Except DocumentError Collected :=
  (flattenBranches applies branches).map Collected.ofFlat

end ResponseModel

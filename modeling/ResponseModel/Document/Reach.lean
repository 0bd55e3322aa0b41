import ResponseModel.Document.Resolved

/-!
# Reached fragments

Which fragments a selection set uses, directly or through others, and an order in which every
fragment comes after those that it uses.
-/

namespace ResponseModel

namespace Resolved

mutual

/-- Adds the fragments that a selection reaches to those already reached, in the order of a
depth-first walk that enters every fragment once. -/
def reach (reached : List Name) : Resolved → Except DocumentError (List Name)
  | .field _ _ _ selections => reachAll reached selections
  | .inline _ _ _ selections => reachAll reached selections
  | .spread name _ _ selections =>
      if name ∈ reached then .ok reached else reachAll (reached ++ [name]) selections
  | .dangling name _ reason =>
      if name ∈ reached then .ok reached else .error (reason.error name)

/-- Adds the fragments that a list of selections reaches. -/
def reachAll (reached : List Name) : List Resolved → Except DocumentError (List Name)
  | [] => .ok reached
  | selection :: rest => do
      let reached ← reach reached selection
      reachAll reached rest

end

/-- The fragments that a selection set reaches. -/
def reachedFragments (selections : List Resolved) : Except DocumentError (List Name) :=
  reachAll [] selections

end Resolved

namespace BuildOrder

/-- The progress of a walk: the fragments that it entered, and those that it left, in order. -/
structure Walk where
  entered : List Name
  order : List Name
  deriving DecidableEq

/-- Enters a fragment: first the fragments that it uses, then itself.  The fuel bounds the depth of
the walk. -/
def visit (bodies : List (Name × List Resolved)) :
    Nat → Walk → Name → Except DocumentError Walk
  | 0, walk, _ => .ok walk
  | fuel + 1, walk, name =>
      if name ∈ walk.order ∨ name ∈ walk.entered then .ok walk
      else
        match bodies.lookup name with
        | none => .error (.unknownFragment name)
        | some body => do
            let reached ← Resolved.reachedFragments body
            let walk ← reached.foldlM (visit bodies fuel) ⟨walk.entered ++ [name], walk.order⟩
            .ok { walk with order := walk.order ++ [name] }

/-- Walks from every one of the names, each time with nothing entered. -/
def visitAll (bodies : List (Name × List Resolved)) :
    List Name → List Name → Except DocumentError (List Name)
  | [], order => .ok order
  | name :: rest, order => do
      let walk ← visit bodies (bodies.length + 1) ⟨[], order⟩ name
      visitAll bodies rest walk.order

/-- All fragments, each after those that it uses. -/
def ofBodies (bodies : List (Name × List Resolved)) : Except DocumentError (List Name) :=
  visitAll bodies (bodies.map Prod.fst) []

end BuildOrder

end ResponseModel

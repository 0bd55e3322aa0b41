import ResponseModel.Ordered

/-!
# Type sets

A shape of a field is picked out by the set of type names that narrow the static type of the
field.  A type set keeps its names strictly increasing, so that two sets with the same members
are equal.
-/

namespace ResponseModel

/-- A finite set of type names, held in increasing order. -/
structure TypeSet where
  names : List Name
  deriving DecidableEq, Inhabited

namespace TypeSet

/-- Inserts a name into an increasing list, at its place and at most once. -/
def insertName (name : Name) : List Name → List Name
  | [] => [name]
  | first :: rest =>
      if name < first then name :: first :: rest
      else if name = first then first :: rest
      else first :: insertName name rest

/-- The type set with one member: that of a base shape. -/
def single (name : Name) : TypeSet := ⟨[name]⟩

/-- The type set of a list of names in any order, with any repetitions. -/
def ofList (names : List Name) : TypeSet := ⟨names.foldr insertName []⟩

/-- The type set with one more member. -/
def insert (set : TypeSet) (name : Name) : TypeSet := ⟨insertName name set.names⟩

/-- The number of members. -/
def size (set : TypeSet) : Nat := set.names.length

/-- Whether there is no member. -/
def isEmpty (set : TypeSet) : Bool := set.names.isEmpty

/-- Whether a name is a member. -/
def contains (set : TypeSet) (name : Name) : Bool := decide (name ∈ set.names)

/-- Whether every member of the first set is a member of the second. -/
def subset (set other : TypeSet) : Bool := set.names.all other.contains

/-- The members in braces, separated by commas. -/
def text (set : TypeSet) : String :=
  "\x7b" ++ ", ".intercalate set.names ++ "\x7d"

/-! ## The order of shapes -/

/-- Smaller sets come first; sets of one size are ordered by their names. -/
def precedes (left right : TypeSet) : Bool :=
  decide (left.size < right.size)
    || (left.size == right.size && decide (left.names < right.names))

/-- Inserts a type set into a list ordered by `precedes`, at most once. -/
def insertInOrder (set : TypeSet) : List TypeSet → List TypeSet
  | [] => [set]
  | first :: rest =>
      if set.precedes first then set :: first :: rest
      else if set = first then first :: rest
      else first :: insertInOrder set rest

/-- The distinct type sets of a list, ordered by `precedes`. -/
def inOrder (sets : List TypeSet) : List TypeSet := sets.foldr insertInOrder []

end TypeSet

end ResponseModel

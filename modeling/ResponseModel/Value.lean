import ResponseModel.Ordered
import ResponseModel.Number.Shortest
import ResponseModel.Text.Quoted

/-!
# Values

A value of the model: a literal after it was coerced to the type of its position.  Variables stay
references.
-/

namespace ResponseModel

/-- A coerced value. -/
inductive Value where
  | int (value : Int)
  | float (value : Binary64)
  | string (value : String)
  | boolean (value : Bool)
  | enum (symbol : Name)
  | null
  | object (fields : List (Name × Value))
  | list (items : List Value)
  | var (name : Name)
  deriving Inhabited

namespace Value

/-! ## Text -/

mutual

/-- The value in GraphQL notation, on one line. -/
def text : Value → String
  | .int value => toString value
  | .float value => value.text
  | .string value => Text.quoted value
  | .boolean value => if value then "true" else "false"
  | .enum symbol => symbol
  | .null => "null"
  | .object fields => "\x7b" ++ ", ".intercalate (fieldTexts fields) ++ "\x7d"
  | .list items => "[" ++ ", ".intercalate (itemTexts items) ++ "]"
  | .var name => "$" ++ name

/-- The fields of an object as text. -/
def fieldTexts : List (Name × Value) → List String
  | [] => []
  | (name, value) :: rest => (name ++ ": " ++ value.text) :: fieldTexts rest

/-- The items of a list as text. -/
def itemTexts : List Value → List String
  | [] => []
  | item :: rest => item.text :: itemTexts rest

end

/-! ## Equality -/

mutual

/-- Whether two values are equal.  Floats are compared as numbers. -/
def same : Value → Value → Bool
  | .int x, .int y => x == y
  | .float x, .float y => x.same y
  | .string x, .string y => x == y
  | .boolean x, .boolean y => x == y
  | .enum x, .enum y => x == y
  | .null, .null => true
  | .object xs, .object ys => sameFields xs ys
  | .list xs, .list ys => sameItems xs ys
  | .var x, .var y => x == y
  | _, _ => false

/-- Whether two objects have equal fields in the same order. -/
def sameFields : List (Name × Value) → List (Name × Value) → Bool
  | [], [] => true
  | (n, x) :: xs, (m, y) :: ys => n == m && x.same y && sameFields xs ys
  | _, _ => false

/-- Whether two lists have equal items. -/
def sameItems : List Value → List Value → Bool
  | [], [] => true
  | x :: xs, y :: ys => x.same y && sameItems xs ys
  | _, _ => false

end

end Value

end ResponseModel

import ResponseModel.Ordered
import ResponseModel.Text.StringLiteral

/-!
# Literals

A value as it is written in a document or a schema.  Numbers keep their text, so that no digit is
lost before the type of the position is known.
-/

namespace ResponseModel

/-- A written value. -/
inductive Literal where
  | null
  | boolean (value : Bool)
  | string (content : String)
  | int (text : String)
  | float (text : String)
  | enum (symbol : Name)
  | var (name : Name)
  | list (items : List Literal)
  | object (fields : List (Name × Literal))
  deriving Inhabited

/-- A directive applied to something, with its arguments in order. -/
structure Directive where
  name : Name
  arguments : List (Name × Literal)
  deriving Inhabited

namespace Literal

/-! ## On one line -/

mutual

/-- The literal on one line. -/
def text : Literal → String
  | .null => "null"
  | .boolean value => if value then "true" else "false"
  | .string content => Text.stringLiteral content
  | .int text => text
  | .float text => text
  | .enum symbol => symbol
  | .var name => "$" ++ name
  | .list items => "[" ++ ", ".intercalate (itemTexts items) ++ "]"
  | .object fields => "\x7b" ++ ", ".intercalate (fieldTexts fields) ++ "\x7d"

/-- The items of a list, each on one line. -/
def itemTexts : List Literal → List String
  | [] => []
  | item :: rest => item.text :: itemTexts rest

/-- The fields of an object, each on one line. -/
def fieldTexts : List (Name × Literal) → List String
  | [] => []
  | (name, value) :: rest => (name ++ ": " ++ value.text) :: fieldTexts rest

end

/-! ## Over several lines -/

/-- Two spaces for every level. -/
def indentation (level : Nat) : List Char := List.replicate (2 * level) ' '

/-- A line break and the indentation of a level. -/
def lineBreak (level : Nat) : String := "\n" ++ String.ofList (indentation level)

/-- Brackets around lines, with the closing one on a line of its own; there may be no lines. -/
def enclose (opening closing : String) (level : Nat) (lines : String) : String :=
  if lines.isEmpty then opening ++ closing else opening ++ lines ++ lineBreak level ++ closing

mutual

/-- The literal with every item and field on a line of its own. -/
def display (level : Nat) : Literal → String
  | .null => "null"
  | .boolean value => if value then "true" else "false"
  | .string content => Text.displayLiteral (indentation level) content
  | .int text => text
  | .float text => text
  | .enum symbol => symbol
  | .var name => "$" ++ name
  | .list items => enclose "[" "]" level (displayItems level items)
  | .object fields => enclose "\x7b" "\x7d" level (displayFields level fields)

/-- The items of a list, each on a line one level deeper. -/
def displayItems (level : Nat) : List Literal → String
  | [] => ""
  | item :: rest =>
      lineBreak (level + 1) ++ item.display (level + 1) ++ "," ++ displayItems level rest

/-- The fields of an object, each on a line one level deeper. -/
def displayFields (level : Nat) : List (Name × Literal) → String
  | [] => ""
  | (name, value) :: rest =>
      lineBreak (level + 1) ++ name ++ ": " ++ value.display (level + 1) ++ ","
        ++ displayFields level rest

end

end Literal

end ResponseModel

import ResponseModel.Document.Basic

/-!
# The text of operations and fragments

Every selection stands on a line of its own, two spaces deeper than the selection set around it;
values stand on one line.
-/

namespace ResponseModel

/-- Arguments in parentheses, if there are any. -/
def argumentsText (arguments : List (Name × Literal)) : String :=
  match Literal.fieldTexts arguments with
  | [] => ""
  | texts => "(" ++ ", ".intercalate texts ++ ")"

/-- A directive with the space before it. -/
def Directive.text (directive : Directive) : String :=
  " @" ++ directive.name ++ argumentsText directive.arguments

/-- Directives, each with the space before it. -/
def directivesText (directives : List Directive) : String :=
  String.join (directives.map Directive.text)

/-- The alias, name, arguments and directives of a field. -/
def FieldNode.text (node : FieldNode) : String :=
  (match node.aliasName with
    | some name => name ++ ": "
    | none => "")
    ++ node.name ++ argumentsText node.arguments ++ directivesText node.directives

namespace Selection

/-- Braces around lines that are indented one level deeper, or around nothing. -/
def braces (level : Nat) (lines : String) : String :=
  Literal.enclose "\x7b" "\x7d" level lines

mutual

/-- A selection at a level of indentation. -/
def text (level : Nat) : Selection → String
  | .field node selections =>
      node.text
        ++ (if selections.isEmpty then ""
          else " " ++ braces level (linesText (level + 1) selections))
  | .spread name directives => "..." ++ name ++ directivesText directives
  | .inline condition directives selections =>
      (match condition with
        | some type => "... on " ++ type
        | none => "...")
        ++ directivesText directives ++ " " ++ braces level (linesText (level + 1) selections)

/-- Selections, each on a line of its own. -/
def linesText (level : Nat) : List Selection → String
  | [] => ""
  | selection :: rest =>
      Literal.lineBreak level ++ selection.text level ++ linesText level rest

end

/-- The selection set of an operation or a fragment. -/
def setText (selections : List Selection) : String := braces 0 (linesText 1 selections)

end Selection

/-- The declaration of a variable. -/
def VariableDefinition.text (definition : VariableDefinition) : String :=
  "$" ++ definition.name ++ ": " ++ definition.type.text
    ++ (match definition.defaultValue with
      | some literal => " = " ++ literal.text
      | none => "")
    ++ directivesText definition.directives

/-- The declarations of variables in parentheses, if there are any. -/
def variablesText (definitions : List VariableDefinition) : String :=
  match definitions with
  | [] => ""
  | definitions => "(" ++ ", ".intercalate (definitions.map VariableDefinition.text) ++ ")"

/-- The text of an operation. -/
def Operation.text (operation : Operation) : String :=
  operation.kind.keyword
    ++ (match operation.name with
      | some name => " " ++ name
      | none => "")
    ++ variablesText operation.vars ++ directivesText operation.directives
    ++ " " ++ Selection.setText operation.selections

/-- The text of a fragment. -/
def Fragment.text (fragment : Fragment) : String :=
  "fragment " ++ fragment.name ++ " on " ++ fragment.onType ++ directivesText fragment.directives
    ++ " " ++ Selection.setText fragment.selections

/-- A text without the line breaks at its end. -/
def trimBreaks (text : String) : String :=
  String.ofList (text.toList.reverse.dropWhile (· = '\n')).reverse

end ResponseModel

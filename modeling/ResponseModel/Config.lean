import ResponseModel.Pattern.Parse

/-!
# Configuration

Patterns for the names of types that are declared even if nothing uses them.
-/

namespace ResponseModel

/-- The configuration of a build. -/
structure Config where
  /-- The tests of the patterns. -/
  alwaysGenerate : List (Name → Bool)
  deriving Inhabited

/-- Configuration data before it is checked. -/
inductive Setting where
  | null
  | boolean (value : Bool)
  | number
  | text (value : String)
  | list (items : List Setting)
  | table (entries : List (String × Setting))
  deriving Inhabited

/-- Why configuration data is refused. -/
inductive ConfigError where
  /-- A text is not a pattern. -/
  | pattern (text : String)
  /-- The data does not have the form of a configuration. -/
  | form
  deriving DecidableEq

namespace Config

/-- Reads a pattern for whole names: the text is placed between anchors, inside a group. -/
def namePattern? (engine : Engine) (text : String) : Option Pattern :=
  let whole := "^(?:" ++ text ++ ")$"
  if engine.fits whole then Pattern.ofText? engine whole else none

/-- The configuration with the given patterns. -/
def ofPatterns (engine : Engine) : List String → Except ConfigError Config
  | [] => .ok ⟨[]⟩
  | text :: rest =>
      match namePattern? engine text with
      | none => .error (.pattern text)
      | some pattern =>
          (ofPatterns engine rest).map fun config =>
            ⟨pattern.occursIn engine :: config.alwaysGenerate⟩

/-- Whether a type is declared even if nothing uses it. -/
def alwaysGenerates (config : Config) (name : Name) : Bool :=
  config.alwaysGenerate.any (· name)

/-! ## Reading configuration data -/

/-- The texts of a list of texts. -/
def textsOf? : List Setting → Option (List String)
  | [] => some []
  | .text value :: rest => (textsOf? rest).map (value :: ·)
  | _ :: _ => none

/-- The patterns in configuration data: a table with at most the key for them, or a list with at
most their list. -/
def patternsOf? : Setting → Option (List String)
  | .table [] => some []
  | .table [("alwaysGenerateTypesMatching", .list items)] => textsOf? items
  | .list [] => some []
  | .list [.list items] => textsOf? items
  | _ => none

/-- Reads configuration data. -/
def ofSetting (engine : Engine) (setting : Setting) : Except ConfigError Config :=
  match patternsOf? setting with
  | none => .error .form
  | some patterns => ofPatterns engine patterns

end Config

end ResponseModel

import ResponseModel.TypeSet

/-!
# Model paths

A model path is the address of a shape: the operation or fragment it belongs to, and the fields
and type sets that lead to it.
-/

namespace ResponseModel

/-- One step of a path: a response name, the type of that field, and the type set of the shape
below it. -/
structure Path.Element where
  typeSet : TypeSet
  fieldType : Name
  responseName : Name
  deriving DecidableEq, Inhabited

/-- What a path is anchored to. -/
inductive Path.Root where
  /-- The interface of an operation shape, which other shapes of the operation refine. -/
  | operationInterface
  /-- The shape of an operation itself. -/
  | operationImplementation
  /-- A named fragment. -/
  | fragment
  deriving DecidableEq, Inhabited

/-- The address of a shape. -/
structure Path where
  fileName : String
  root : Path.Root
  elements : List Path.Element
  deriving DecidableEq, Inhabited

/-- The name of a root, as paths spell it. -/
def Path.Root.text : Path.Root → String
  | .operationInterface => "OperationInterface"
  | .operationImplementation => "OperationImplementation"
  | .fragment => "Fragment"

/-- A step as text: `.response{A, B}<Type>`. -/
def Path.Element.text (element : Path.Element) : String :=
  "." ++ element.responseName ++ element.typeSet.text ++ "<" ++ element.fieldType ++ ">"

namespace Path

/-- The path with no steps. -/
def atRoot (fileName : String) (root : Root) : Path := ⟨fileName, root, []⟩

/-- The path one step further down. -/
def append (path : Path) (element : Element) : Path :=
  { path with elements := path.elements ++ [element] }

/-- The same steps below another root. -/
def withRoot (path : Path) (root : Root) : Path := { path with root }

/-- The path under which other shapes refine the shape at this one: an operation shape is refined
through its interface. -/
def toInterface (path : Path) : Path :=
  match path.root with
  | .operationImplementation => path.withRoot .operationInterface
  | .operationInterface => path
  | .fragment => path

/-- The file name and the root, then every step. -/
def text (path : Path) : String :=
  path.fileName ++ ":" ++ path.root.text ++ String.join (path.elements.map Element.text)

end Path

end ResponseModel

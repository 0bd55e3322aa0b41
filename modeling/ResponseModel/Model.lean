import ResponseModel.Declarations
import ResponseModel.Document.Printer
import ResponseModel.Document.Reach
import ResponseModel.Inference
import ResponseModel.Shape.Build

/-!
# Models

The model of a set of documents: every operation and every named fragment with its variables and
its tree of fields and shapes, and the declarations of the types that they use.  Main entry
points: `Linked.ofDocuments` resolves the documents against a schema, `Linked.build` builds their
model, and `Model.ofDocuments` does both, with as many rounds of fragments inside themselves as the
build asks for.
-/

namespace ResponseModel

/-- A variable of an operation or a fragment. -/
structure Variable where
  name : Name
  defaultValue : Option Value
  type : ModelType
  deriving Inhabited

/-- The model of an operation. -/
structure OperationModel where
  name : Name
  kind : OperationKind
  /-- The root type that the operation selects on. -/
  typeCondition : Name
  vars : List Variable
  dataField : Field
  /-- The text of the operation and of every fragment that it uses. -/
  requestText : String
  filePath : String
  deriving Inhabited

/-- The model of a named fragment. -/
structure FragmentModel where
  name : Name
  typeCondition : Name
  vars : List Variable
  dataField : Field
  filePath : String
  deriving Inhabited

/-- The model of a set of documents. -/
structure Model where
  operations : List OperationModel
  /-- All fragments, including those of accompanying documents. -/
  fragments : List FragmentModel
  /-- The fragments that the user's own documents define. -/
  ownFragments : List Name
  declarations : Declarations
  deriving Inhabited

/-- The first operation of a name. -/
def Model.operation? (model : Model) (name : Name) : Option OperationModel :=
  model.operations.find? (·.name = name)

/-- The first fragment of a name. -/
def Model.fragment? (model : Model) (name : Name) : Option FragmentModel :=
  model.fragments.find? (·.name = name)

/-! ## Linking -/

/-- What a build takes as given: how definitions are written out, and how far fragments inside
themselves are followed. -/
structure Options where
  /-- The text of an operation. -/
  operationText : Operation → String
  /-- The text of a fragment. -/
  fragmentText : Fragment → String
  /-- How many times a fragment is entered again inside itself. -/
  rounds : Nat

/-- The usual texts, and every fragment is entered once. -/
def Options.standard : Options := ⟨Operation.text, Fragment.text, 0⟩

/-- The options with one round more. -/
def Options.further (options : Options) : Options :=
  { options with rounds := options.rounds + 1 }

instance : Inhabited Options := ⟨.standard⟩

/-- An operation with its selections resolved. -/
structure LinkedOperation where
  operation : Operation
  /-- The type that the operation selects on, which may be missing from the schema. -/
  onType : Name
  selections : List Resolved
  filePath : String
  deriving Inhabited

/-- A fragment with its selections resolved. -/
structure LinkedFragment where
  entry : Library.Entry
  selections : List Resolved
  deriving Inhabited

/-- Documents that are resolved against a schema. -/
structure Linked where
  options : Options
  schema : Schema
  library : Library
  fragments : List (Name × LinkedFragment)
  operations : List LinkedOperation
  deriving Inhabited

namespace Linked

/-- The name of the root type of a kind of operation if the schema does not give one. -/
def defaultRoot : OperationKind → Name
  | .query => "Query"
  | .mutation => "Mutation"
  | .subscription => "Subscription"

/-- Resolves the selections of an operation. -/
def operation (schema : Schema) (library : Library) (rounds : Nat) (filePath : String)
    (operation : Operation) : Except UndefinedField LinkedOperation := do
  let onType := (schema.root? operation.kind).getD (defaultRoot operation.kind)
  let selections ← library.resolve schema rounds onType operation.selections
  .ok { operation, onType, selections, filePath }

/-- Resolves the selections of a fragment. -/
def fragment (schema : Schema) (library : Library) (rounds : Nat) :
    Name × Library.Entry → Except UndefinedField (Name × LinkedFragment)
  | (name, entry) => do
      let selections ←
        library.resolve schema rounds entry.fragment.onType entry.fragment.selections
      .ok (name, { entry, selections })

/-- Resolves the user's documents and the documents that accompany them against a schema.  Only
the fragments of accompanying documents count. -/
def ofDocuments (options : Options) (schema : Schema) (documents accompanying : List Document) :
    Except UndefinedField Linked := do
  let library := Library.ofDocuments documents accompanying
  let fragments ← library.entries.mapM (fragment schema library options.rounds)
  let operations ←
    (documents.flatMap fun document =>
      document.inOrder.map fun operation => (document.filePath, operation)).mapM
      fun (filePath, op) => operation schema library options.rounds filePath op
  .ok { options, schema, library, fragments, operations }

/-! ## Fragments -/

/-- A variable of a fragment, which has no default. -/
def inferredVariable (schema : Schema) : Name × TypeRef → Traced Variable
  | (name, type) => do
      let type ← .mapType schema type
      .ok { name, defaultValue := none, type }

/-- The model of a fragment, given the models of the fragments that it uses. -/
def fragmentModel (schema : Schema) (built : List (Name × FragmentModel))
    (linked : LinkedFragment) : Traced FragmentModel := do
  let fragment := linked.entry.fragment
  let inferred ← .ofDocument (Inference.infer schema fragment.name linked.selections)
  let vars ← Traced.each (inferredVariable schema) inferred
  let builder : Builder :=
    ⟨schema, built.map fun (name, model) => (name, model.dataField.shapes)⟩
  let dataField ← builder.dataField fragment.onType linked.selections
    (.atRoot fragment.name .fragment)
  Traced.emit (.fragment fragment.name vars.length)
  .ok
    { name := fragment.name
      typeCondition := fragment.onType
      vars
      dataField
      filePath := linked.entry.filePath }

/-- The models of the fragments of a list of names, after those already built. -/
def fragmentModels (linked : Linked) :
    List (Name × FragmentModel) → List Name → Traced (List (Name × FragmentModel))
  | built, [] => .ok built
  | built, name :: rest =>
      match linked.fragments.lookup name with
      | none => .ofDocument (.error (.unknownFragment name))
      | some fragment => do
          let model ← fragmentModel linked.schema built fragment
          fragmentModels linked (built ++ [(name, model)]) rest

/-! ## Operations -/

/-- A variable of an operation, with its default coerced. -/
def declaredVariable (schema : Schema) (definition : VariableDefinition) : Traced Variable := do
  let defaultValue ←
    .ofCoercion (Coercion.coerceOption schema definition.type definition.defaultValue)
  let type ← .mapType schema definition.type
  .ok { name := definition.name, defaultValue, type }

/-- The text of an operation and of the fragments of the given names, each without the line breaks
at its end, with blank lines between them. -/
def requestText (options : Options) (library : Library) (operation : Operation)
    (fragments : List Name) : String :=
  let texts := options.operationText operation
    :: fragments.filterMap fun name =>
      (library.entry? name).map fun entry => options.fragmentText entry.fragment
  "\n\n".intercalate (texts.map trimBreaks)

/-- The model of an operation, given the models of all fragments. -/
def operationModel (linked : Linked) (built : List (Name × FragmentModel))
    (operation : LinkedOperation) : Traced OperationModel :=
  match operation.operation.name with
  | none => .ofDocument (.error .anonymousOperation)
  | some name =>
      match linked.schema.root? operation.operation.kind with
      | none => .lift (.error (.missingRoot operation.operation.kind name))
      | some root => do
          let vars ←
            Traced.each (declaredVariable linked.schema) operation.operation.vars
          let builder : Builder :=
            ⟨linked.schema, built.map fun (name, model) => (name, model.dataField.shapes)⟩
          let dataField ← builder.dataField operation.onType operation.selections
            (.atRoot name .operationImplementation)
          let reached ← .ofDocument (Resolved.reachedFragments operation.selections)
          Traced.emit (.operation name operation.operation.kind vars.length)
          .ok
            { name
              kind := operation.operation.kind
              typeCondition := root
              vars
              dataField
              requestText :=
                requestText linked.options linked.library operation.operation reached
              filePath := operation.filePath }

/-! ## The whole model -/

/-- The models of all fragments, in the order in which they are built, and of all operations. -/
def models (linked : Linked) : Traced (List (Name × FragmentModel) × List OperationModel) := do
  let order ← .ofDocument
    (BuildOrder.ofBodies (linked.fragments.map fun (name, f) => (name, f.selections)))
  let built ← fragmentModels linked [] order
  let operations ← Traced.each (operationModel linked built) linked.operations
  .ok (built, operations)

/-- Builds the model of linked documents.  The marks are read when all fragments and operations are
built. -/
def build (linked : Linked) (config : Config) : Traced Model := do
  let (built, operations) ← linked.models
  let declarations ← .lift (Declarations.ofMarks linked.schema config linked.models.marks)
  Traced.emit (.declarations declarations.inputObjects.length declarations.enums.length
    declarations.customScalars.length)
  .ok
    { operations
      fragments := linked.fragments.filterMap fun (name, _) => built.lookup name
      ownFragments :=
        (linked.fragments.filter fun (_, fragment) => fragment.entry.own).map Prod.fst
      declarations }

end Linked

/-! ## Fragments inside themselves -/

/-- Whether a build came to a spread that is cut off. -/
def Traced.isCutOff {α : Type} (traced : Traced α) : Bool :=
  match traced.result with
  | .error (.document (.cyclicFragment _)) => true
  | _ => false

/-- The model of documents.  As long as a build comes to a spread that is cut off, it is repeated
with one round more, `limit` times at most. -/
def Model.ofDocuments (schema : Schema) (config : Config) (documents accompanying : List Document) :
    Nat → Options → Except UndefinedField (Traced Model)
  | 0, options => do
      let linked ← Linked.ofDocuments options schema documents accompanying
      .ok (linked.build config)
  | limit + 1, options => do
      let linked ← Linked.ofDocuments options schema documents accompanying
      if (linked.build config).isCutOff then
        Model.ofDocuments schema config documents accompanying limit options.further
      else .ok (linked.build config)

end ResponseModel

import ResponseModel.Path
import ResponseModel.Schema.Lookup

/-!
# Traced computations

A build either gives a result or stops at an error.  In both cases it leaves a trace: the events
up to that point, and the types that were marked as used, both in order.
-/

namespace ResponseModel

/-- Something that happened during a build. -/
inductive Event where
  /-- A shape is finished, with the numbers of its possible types and of the shapes it refines. -/
  | shape (path : Path) (possibleTypes refined : Nat)
  /-- A fragment is finished, with the number of its variables. -/
  | fragment (name : Name) (vars : Nat)
  /-- An operation is finished, with the number of its variables. -/
  | operation (name : Name) (kind : OperationKind) (vars : Nat)
  /-- The declarations are listed, with the number of each sort. -/
  | declarations (inputObjects enums customScalars : Nat)
  deriving DecidableEq, Inhabited

/-- A computation with its trace. -/
structure Traced (α : Type) where
  events : List Event
  /-- The named types that were marked as used. -/
  marks : List NamedType
  result : Except BuildError α

namespace Traced

/-- A result without a trace. -/
def ok {α : Type} (a : α) : Traced α := ⟨[], [], .ok a⟩

/-- A computation that leaves no trace. -/
def lift {α : Type} (result : Except BuildError α) : Traced α := ⟨[], [], result⟩

/-- A computation on documents that leaves no trace. -/
def ofDocument {α : Type} (result : Except DocumentError α) : Traced α :=
  ⟨[], [], result.mapError .document⟩

/-- A coercion, which leaves no trace. -/
def ofCoercion {α : Type} (result : Except CoercionError α) : Traced α :=
  ⟨[], [], result.mapError .coercion⟩

/-- An event by itself. -/
def emit (event : Event) : Traced Unit := ⟨[event], [], .ok ()⟩

/-- Resolves a type against the schema, and marks its innermost type as used. -/
def mapType (schema : Schema) (type : TypeRef) : Traced ModelType :=
  match schema.modelType type with
  | .error error => ⟨[], [], .error (.document error)⟩
  | .ok mapped => ⟨[], [mapped.leaf], .ok mapped⟩

/-- One computation after another.  After an error nothing happens. -/
def andThen {α β : Type} (first : Traced α) (next : α → Traced β) : Traced β :=
  match first.result with
  | .error error => ⟨first.events, first.marks, .error error⟩
  | .ok a => ⟨first.events ++ (next a).events, first.marks ++ (next a).marks, (next a).result⟩

instance : Monad Traced where
  pure := ok
  bind := andThen

@[simp] theorem bind_ok_result {α β : Type} {first : Traced α} {a : α} (next : α → Traced β)
    (h : first.result = .ok a) :
    first >>= next =
      ⟨first.events ++ (next a).events, first.marks ++ (next a).marks, (next a).result⟩ := by
  simp [bind, andThen, h]

@[simp] theorem bind_error_result {α β : Type} {first : Traced α} {error : BuildError}
    (next : α → Traced β) (h : first.result = .error error) :
    first >>= next = ⟨first.events, first.marks, .error error⟩ := by
  simp [bind, andThen, h]

/-- A sequence succeeds exactly if both of its parts do. -/
theorem result_bind_eq_ok {α β : Type} {first : Traced α} {next : α → Traced β} {b : β} :
    (first >>= next).result = .ok b ↔
      ∃ a, first.result = .ok a ∧ (next a).result = .ok b := by
  cases h : first.result with
  | error error => simp [h]
  | ok a => simp [h]

/-- A type is resolved as the schema resolves it. -/
theorem result_mapType {schema : Schema} {type : TypeRef} {mapped : ModelType} :
    (mapType schema type).result = .ok mapped ↔ schema.modelType type = .ok mapped := by
  unfold mapType
  cases schema.modelType type with
  | error error => simp
  | ok other => simp

/-- Applies a computation to every element of a list, in order. -/
def each {α β : Type} (f : α → Traced β) : List α → Traced (List β)
  | [] => ok []
  | a :: rest => do
      let b ← f a
      let bs ← each f rest
      ok (b :: bs)

end Traced

end ResponseModel

import Mathlib.Order.WellFounded
import ResponseModel.Proofs.Models

/-!
# The recursion of a build

Building the shapes of a field asks for the shapes of the fields collected in them, with requests
for what is selected below all merged occurrences.  `Builder.Asks` is this relation of requests.
What is selected below a field is less deep than what it is selected in, so the relation is
well-founded for every schema (`wellFounded_asks`), and the recursion has one solution: there is
exactly one function that builds a level with itself in the place of the levels below
(`eq_complete_of_level`).  Building with a bound on the number of levels gives its values as soon as
the bound is the depth of the selections (`shapes_eq_complete`).

Every step of the recursion makes paths longer by one element and selections less deep by one at
least, which bounds the paths of all shapes that a build finishes, whether it succeeds or not
(`length_le_of_mem_events`).
-/

namespace ResponseModel

/-! ## Traces -/

namespace Traced

variable {α β : Type}

/-- What follows a computation matters only at its result. -/
theorem bind_congr {first : Traced α} {next next' : α → Traced β}
    (h : ∀ a, first.result = .ok a → next a = next' a) : first >>= next = first >>= next' := by
  cases hfirst : first.result with
  | error error => rw [bind_error_result next hfirst, bind_error_result next' hfirst]
  | ok a => rw [bind_ok_result next hfirst, bind_ok_result next' hfirst, h a hfirst]

theorem each_congr {f g : α → Traced β} {xs : List α} (h : ∀ x ∈ xs, f x = g x) :
    each f xs = each g xs := by
  induction xs with
  | nil => rfl
  | cons x rest ih =>
      rw [each, each, h x List.mem_cons_self,
        ih fun other hother => h other (List.mem_cons_of_mem _ hother)]

/-- An event of a sequence happens in its first part, or in the second if that is reached. -/
theorem mem_events_bind {first : Traced α} {next : α → Traced β} {event : Event} :
    event ∈ (first >>= next).events ↔
      event ∈ first.events ∨ ∃ a, first.result = .ok a ∧ event ∈ (next a).events := by
  cases hfirst : first.result with
  | error error => simp [bind_error_result next hfirst]
  | ok a => simp [bind_ok_result next hfirst]

theorem notMem_events_mapType {schema : Schema} {type : TypeRef} {event : Event} :
    event ∉ (mapType schema type).events := by
  unfold mapType
  split <;> exact List.not_mem_nil

theorem exists_of_mem_events_each {f : α → Traced β} {xs : List α} {event : Event}
    (h : event ∈ (each f xs).events) : ∃ x ∈ xs, event ∈ (f x).events := by
  induction xs with
  | nil => exact absurd h List.not_mem_nil
  | cons x rest ih =>
      rw [each, mem_events_bind] at h
      rcases h with h | ⟨b, -, h⟩
      · exact ⟨x, List.mem_cons_self, h⟩
      · rcases mem_events_bind.1 h with h | ⟨bs, -, h⟩
        · obtain ⟨y, hy, h⟩ := ih h
          exact ⟨y, List.mem_cons_of_mem _ hy, h⟩
        · exact absurd h List.not_mem_nil

end Traced

/-! ## Requests below a request -/

/-- The greatest depth of the selections below a field. -/
def Request.depth (request : Request) : Nat :=
  (request.branches.map fun branch => Resolved.depthAll branch.1).foldr max 0

theorem foldr_max_le_iff {depths : List Nat} {bound : Nat} :
    depths.foldr max 0 ≤ bound ↔ ∀ depth ∈ depths, depth ≤ bound := by
  induction depths with
  | nil => simp
  | cons depth rest ih => rw [List.foldr_cons, Nat.max_le, ih, List.forall_mem_cons]

theorem Request.depth_le_iff {request : Request} {bound : Nat} :
    request.depth ≤ bound ↔ ∀ branch ∈ request.branches, Resolved.depthAll branch.1 ≤ bound := by
  rw [depth, foldr_max_le_iff, List.forall_mem_map]

/-- A shape of the field that the request is for is finished. -/
def Request.Finishes (request : Request) (event : Event) : Prop :=
  ∃ typeSet possibleTypes refined,
    event = .shape (request.path.append ⟨typeSet, request.fieldType, request.responseName⟩)
      possibleTypes refined

namespace Builder

variable {builder : Builder} {request below : Request}

/-- While the shapes of a field are built, those of a field that is collected for one of its type
sets are asked for. -/
inductive Asks (builder : Builder) (request : Request) : Request → Prop
  | field {typeSet : TypeSet} {collected : Collected} {entry : Name × Merged}
      (parents : List Shape) :
      collect (builder.schema.applies typeSet (builder.schema.commonTypes typeSet.names))
        request.branches = .ok collected →
      entry ∈ collected.fields →
      Asks builder request (builder.requestBelow
        (request.path.append ⟨typeSet, request.fieldType, request.responseName⟩) parents entry)

theorem Asks.depth_lt (h : builder.Asks request below) : below.depth < request.depth := by
  cases h with
  | @field typeSet collected entry parents hcollected hentry =>
      have hlt := depthAll_lt_of_collect hcollected (Request.depth_le_iff.1 (Nat.le_refl _)) entry
        hentry
      -- merged occurrences are never none, so there is a depth to fall below
      have hpos : 0 < request.depth :=
        Nat.lt_of_le_of_lt (Nat.zero_le _) (hlt entry.2.first List.mem_cons_self)
      have hle : (builder.requestBelow
          (request.path.append ⟨typeSet, request.fieldType, request.responseName⟩) parents
          entry).depth ≤ request.depth - 1 := by
        rw [Request.depth_le_iff]
        intro branch hbranch
        obtain ⟨o, ho, rfl⟩ := List.mem_map.1 hbranch
        exact Nat.le_sub_one_of_lt (hlt o ho)
      omega

theorem Asks.length_path (h : builder.Asks request below) :
    below.path.elements.length = request.path.elements.length + 1 := by
  cases h
  simp [requestBelow, Path.append]

/-- **No chain of requests goes on forever**, whatever the types of the schema are. -/
theorem wellFounded_asks (builder : Builder) :
    WellFounded fun below request => builder.Asks request below :=
  Subrelation.wf (fun h => Asks.depth_lt h) (measure Request.depth).wf

/-! ## One level asks for the levels below -/

section Level

variable {build build' : Request → Traced (List Shape)}

theorem field_congr {path : Path} {parents : List Shape} {entry : Name × Merged}
    (h : build (builder.requestBelow path parents entry) =
      build' (builder.requestBelow path parents entry)) :
    builder.field build path parents entry = builder.field build' path parents entry := by
  obtain ⟨responseName, merged⟩ := entry
  refine Traced.bind_congr fun type _ => Traced.bind_congr fun arguments _ => ?_
  have hbelow : belowField build path parents responseName merged
      (builder.narrowest merged).definition type =
      belowField build' path parents responseName merged
        (builder.narrowest merged).definition type := by
    unfold belowField
    split
    · exact h
    · rfl
  exact congrArg (· >>= _) hbelow

theorem shape_congr {earlier : List Shape} {typeSet : TypeSet}
    (h : ∀ below, builder.Asks request below → build below = build' below) :
    builder.shape build request earlier typeSet = builder.shape build' request earlier typeSet := by
  refine Traced.bind_congr fun collected hcollected => ?_
  refine congrArg (· >>= _) (Traced.each_congr fun entry hentry => field_congr (h _ ?_))
  exact .field _ (Traced.result_ofDocument.1 hcollected) hentry

theorem shapesFrom_congr {earlier : List Shape} {typeSets : List TypeSet}
    (h : ∀ below, builder.Asks request below → build below = build' below) :
    builder.shapesFrom build request earlier typeSets =
      builder.shapesFrom build' request earlier typeSets := by
  induction typeSets generalizing earlier with
  | nil => rfl
  | cons typeSet rest ih =>
      rw [shapesFrom, shapesFrom, shape_congr h]
      exact Traced.bind_congr fun shape _ => ih

/-- A level depends on the levels below only at the requests that it asks for. -/
theorem level_congr (h : ∀ below, builder.Asks request below → build below = build' below) :
    builder.level build request = builder.level build' request :=
  Traced.bind_congr fun _ _ => shapesFrom_congr h

variable {event : Event}

theorem notMem_events_argument {field : Name} {definition : FieldDefinition}
    {written : Name × Literal} :
    event ∉ (builder.argument field definition written).events := by
  obtain ⟨name, literal⟩ := written
  rw [argument]
  split
  · exact List.not_mem_nil
  · intro h
    rcases Traced.mem_events_bind.1 h with h | ⟨defaultValue, -, h⟩
    · exact List.not_mem_nil h
    rcases Traced.mem_events_bind.1 h with h | ⟨value, -, h⟩
    · exact List.not_mem_nil h
    rcases Traced.mem_events_bind.1 h with h | ⟨type, -, h⟩
    · exact Traced.notMem_events_mapType h
    · exact List.not_mem_nil h

/-- A field leaves the events of the levels below it, no others. -/
theorem mem_events_of_field {path : Path} {parents : List Shape} {entry : Name × Merged}
    (h : event ∈ (builder.field build path parents entry).events) :
    event ∈ (build (builder.requestBelow path parents entry)).events := by
  obtain ⟨responseName, merged⟩ := entry
  rcases Traced.mem_events_bind.1 h with h | ⟨type, -, h⟩
  · exact absurd h Traced.notMem_events_mapType
  rcases Traced.mem_events_bind.1 h with h | ⟨arguments, -, h⟩
  · obtain ⟨written, -, h⟩ := Traced.exists_of_mem_events_each h
    exact absurd h notMem_events_argument
  rcases Traced.mem_events_bind.1 h with h | ⟨shapes, -, h⟩
  · unfold belowField at h
    split at h
    · exact h
    · exact absurd h List.not_mem_nil
  · exact absurd h List.not_mem_nil

theorem finishes_or_asks_of_shape {earlier : List Shape} {typeSet : TypeSet}
    (h : event ∈ (builder.shape build request earlier typeSet).events) :
    request.Finishes event ∨
      ∃ below, builder.Asks request below ∧ event ∈ (build below).events := by
  rcases Traced.mem_events_bind.1 h with h | ⟨collected, hcollected, h⟩
  · exact absurd h List.not_mem_nil
  rcases Traced.mem_events_bind.1 h with h | ⟨fields, -, h⟩
  · obtain ⟨entry, hentry, h⟩ := Traced.exists_of_mem_events_each h
    exact .inr ⟨_, .field _ (Traced.result_ofDocument.1 hcollected) hentry, mem_events_of_field h⟩
  rcases Traced.mem_events_bind.1 h with h | ⟨-, -, h⟩
  · exact .inl ⟨typeSet, _, _, List.mem_singleton.1 h⟩
  · exact absurd h List.not_mem_nil

theorem finishes_or_asks_of_shapesFrom {earlier : List Shape} {typeSets : List TypeSet}
    (h : event ∈ (builder.shapesFrom build request earlier typeSets).events) :
    request.Finishes event ∨
      ∃ below, builder.Asks request below ∧ event ∈ (build below).events := by
  induction typeSets generalizing earlier with
  | nil => exact absurd h List.not_mem_nil
  | cons typeSet rest ih =>
      rcases Traced.mem_events_bind.1 h with h | ⟨shape, -, h⟩
      · exact finishes_or_asks_of_shape h
      · exact ih h

/-- What happens at a level: a shape of the field is finished, or it happens at a level below that
the request asks for. -/
theorem finishes_or_asks (h : event ∈ (builder.level build request).events) :
    request.Finishes event ∨
      ∃ below, builder.Asks request below ∧ event ∈ (build below).events := by
  rcases Traced.mem_events_bind.1 h with h | ⟨conditions, -, h⟩
  · exact absurd h List.not_mem_nil
  · exact finishes_or_asks_of_shapesFrom h

end Level

/-! ## All levels -/

/-- The shapes of a field, with as many levels as its selections are deep. -/
def complete (builder : Builder) (request : Request) : Traced (List Shape) :=
  builder.shapes request.depth request

/-- More levels than the selections are deep change nothing. -/
theorem shapes_eq_shapes {depth depth' : Nat} (h : request.depth ≤ depth)
    (h' : request.depth ≤ depth') :
    builder.shapes depth request = builder.shapes depth' request := by
  induction depth generalizing request depth' with
  | zero =>
      -- without fields nothing is asked for, so what the level below would do does not matter
      have hnone : ∀ below, ¬ builder.Asks request below := by
        intro below hasks
        have := hasks.depth_lt
        omega
      cases depth' with
      | zero => rfl
      | succ depth' => exact level_congr fun below hasks => absurd hasks (hnone below)
  | succ depth ih =>
      cases depth' with
      | zero =>
          refine level_congr fun below hasks => ?_
          have := hasks.depth_lt
          omega
      | succ depth' =>
          refine level_congr fun below hasks => ?_
          have := hasks.depth_lt
          exact ih (by omega) (by omega)

theorem shapes_eq_complete {depth : Nat} (h : request.depth ≤ depth) :
    builder.shapes depth request = builder.complete request :=
  shapes_eq_shapes h (Nat.le_refl _)

/-- The recursion equation, without a bound. -/
theorem complete_eq_level (builder : Builder) (request : Request) :
    builder.complete request = builder.level builder.complete request := by
  rw [← shapes_eq_complete (Nat.le_succ request.depth), shapes]
  exact level_congr fun below hasks => shapes_eq_complete (Nat.le_of_lt hasks.depth_lt)

/-- **The recursion has one solution.** -/
theorem eq_complete_of_level {build : Request → Traced (List Shape)}
    (h : ∀ request, build request = builder.level build request) : build = builder.complete := by
  funext request
  induction request using builder.wellFounded_asks.induction with
  | _ request ih =>
      rw [h request, complete_eq_level]
      exact level_congr ih

/-- The field at the top of a model, with its shapes. -/
def topField (type : Name) (shapes : List Shape) : Field where
  name := "data"
  aliasName := none
  arguments := []
  description := some dataFieldDescription
  deprecationReason := none
  type := .named (.object type)
  isOverride := false
  condition := .always
  shapes := shapes

theorem depth_rootRequest (type : Name) (selections : List Resolved) (root : Path) :
    (rootRequest type selections root).depth = Resolved.depthAll selections := by
  simp [Request.depth, rootRequest]

/-- The field at the top has the shapes that the recursion gives for all selections. -/
theorem dataField_eq (builder : Builder) (type : Name) (selections : List Resolved)
    (root : Path) :
    builder.dataField type selections root =
      if (builder.schema.type? type).isNone then .ofDocument (.error (.unknownType type))
      else builder.complete (rootRequest type selections root) >>=
        fun shapes => .ok (topField type shapes) := by
  rw [complete, depth_rootRequest]
  rfl

/-- Paths grow by one element where selections lose a level, so they stay within the depth of the
request. -/
theorem length_le_of_mem_events {path : Path} {possibleTypes refined : Nat}
    (h : .shape path possibleTypes refined ∈ (builder.complete request).events) :
    path.elements.length ≤ request.path.elements.length + 1 + request.depth := by
  induction request using builder.wellFounded_asks.induction with
  | _ request ih =>
      rw [complete_eq_level] at h
      rcases finishes_or_asks h with ⟨typeSet, _, _, heq⟩ | ⟨below, hasks, h⟩
      · obtain ⟨rfl, -, -⟩ := Event.shape.inj heq
        simp [Path.append]
      · have hbelow := ih below hasks h
        have hlength := hasks.length_path
        have hdepth := hasks.depth_lt
        omega

/-- The same holds of the shapes of a tree that was built. -/
theorem Fills.length_fullPath_le {top : Field} (h : builder.Fills request top) :
    ∀ shape ∈ top.allShapes,
      shape.fullPath.elements.length ≤ request.path.elements.length + 1 + request.depth := by
  intro shape hshape
  obtain ⟨field, hfield, hshape⟩ := List.mem_flatMap.1 hshape
  have hall := h.forall_mem_all (Q := fun below =>
    below.path.elements.length + below.depth ≤ request.path.elements.length + request.depth)
    (Nat.le_refl _) ?_ field hfield
  · rcases hall with hnone | ⟨below, hfills, hle⟩
    · rw [hnone] at hshape
      exact absurd hshape List.not_mem_nil
    · obtain ⟨conditions, hlevel⟩ := hfills.built.level
      obtain ⟨earlier, later, collected, -, hfrom⟩ := hlevel.exists_shapeFrom hshape
      have hlength : shape.fullPath.elements.length = below.path.elements.length + 1 := by
        simp [ShapeOf.fullPath, Path.append, hfrom.path]
      omega
  · intro around field earlier shape later collected entry _ _ hle _ hfrom hentry
    have hasks : builder.Asks around (builder.requestBelow shape.fullPath
        (builder.parents around earlier shape collected) entry) := by
      have hcollects := hfrom.collects
      rw [hfrom.possibleTypes] at hcollects
      have hpath : shape.fullPath =
          around.path.append ⟨shape.typeSet, around.fieldType, around.responseName⟩ := by
        rw [ShapeOf.fullPath, hfrom.path, hfrom.fieldType, hfrom.responseName]
      rw [hpath]
      exact .field _ hcollects hentry
    have hlength := hasks.length_path
    have hdepth := hasks.depth_lt
    omega

/-! ## At the top of a tree -/

section Top

variable {type : Name} {selections : List Resolved} {fileName : String} {root : Path.Root}

theorem length_le_of_mem_dataField_events {path : Path} {possibleTypes refined : Nat}
    (h : .shape path possibleTypes refined ∈
      (builder.dataField type selections (.atRoot fileName root)).events) :
    path.elements.length ≤ 1 + Resolved.depthAll selections := by
  rw [dataField_eq] at h
  split at h
  · exact absurd h List.not_mem_nil
  · rcases Traced.mem_events_bind.1 h with h | ⟨shapes, -, h⟩
    · have hle := length_le_of_mem_events h
      rwa [depth_rootRequest, rootRequest, Path.atRoot, List.length_nil, Nat.zero_add] at hle
    · exact absurd h List.not_mem_nil

theorem DataFieldFrom.length_fullPath_le {data : Field}
    (h : builder.DataFieldFrom type selections (.atRoot fileName root) data) :
    ∀ shape ∈ data.allShapes,
      shape.fullPath.elements.length ≤ 1 + Resolved.depthAll selections := by
  intro shape hshape
  have hle := h.fills.length_fullPath_le shape hshape
  rwa [depth_rootRequest, rootRequest, Path.atRoot, List.length_nil, Nat.zero_add] at hle

end Top

end Builder

end ResponseModel

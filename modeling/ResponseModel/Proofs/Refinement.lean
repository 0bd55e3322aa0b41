import ResponseModel.Proofs.Inclusion
import ResponseModel.Proofs.ShapePaths

/-!
# What shapes refine

A shape names the shapes that it refines by their paths.  The candidates come from three sides:
earlier shapes of the same field, shapes of fragments built before, and shapes inherited through
the shapes that the surrounding shape refines.  All of them are in the tree itself or in the tree of
a fragment built before (`Builder.Known`), and none of them stands where the shape stands
(`Builder.mem_parents`).  Main statement: `refines_exactly`, every path that a shape implements
addresses exactly one other shape of the model, which stands for all types of the shape and has no
field that the shape lacks; and a field overrides exactly if such a shape has it.
-/

namespace ResponseModel

/-! ## Shapes at a path -/

/-- The shapes in the trees of all fragments. -/
def Model.fragmentShapes (model : Model) : List Shape :=
  model.fragments.flatMap fun fragment => fragment.dataField.allShapes

/-- The shapes that a path addresses: through their interface those of the operation itself, which
are `own`, and those of the fragments. -/
def Model.shapesAt (model : Model) (own : List Shape) (path : Path) : List Shape :=
  own.filter (fun shape => shape.fullPath.withRoot .operationInterface = path)
    ++ model.fragmentShapes.filter fun shape => shape.fullPath = path

/-- What a shape says about refinement is sound and exact: each path that it implements addresses
one shape, another one, that stands for all its concrete types and has no field that it lacks; and
its fields that override are those that one of these shapes has. -/
structure Model.RefinesExactly (model : Model) (own : List Shape) (shape : Shape) : Prop where
  implements : ∀ path ∈ shape.implements,
    (path.root = .operationInterface ∨ path.root = .fragment) ∧
    ∃ target, model.shapesAt own path = [target] ∧ target ≠ shape ∧
      (∀ concrete ∈ shape.possibleTypes, concrete ∈ target.possibleTypes) ∧
      ∀ name ∈ target.fields.map Field.responseName, name ∈ shape.fields.map Field.responseName
  isOverride : ∀ field ∈ shape.fields, field.isOverride = true ↔
    ∃ path ∈ shape.implements, ∃ target ∈ model.shapesAt own path,
      field.responseName ∈ target.fields.map Field.responseName

/-! ## Candidates -/

namespace Builder

theorem refines_iff {possibleTypes : List Name} {collected : Collected} {candidate : Shape} :
    refines possibleTypes collected candidate = true ↔
      (∀ concrete ∈ possibleTypes, concrete ∈ candidate.possibleTypes) ∧
      ∀ name ∈ candidate.fields.map Field.responseName,
        name ∈ collected.fields.map Prod.fst := by
  simp [refines, Collected.selects_iff]

theorem mem_refined {possibleTypes : List Name} {collected : Collected} {seen : List Path}
    {candidates : List Shape} {candidate : Shape}
    (h : candidate ∈ refined possibleTypes collected seen candidates) :
    candidate ∈ candidates ∧ refines possibleTypes collected candidate = true := by
  induction candidates generalizing seen with
  | nil => exact absurd h List.not_mem_nil
  | cons first rest ih =>
      rw [refined] at h
      split at h
      · next hrefines =>
          rw [Bool.and_eq_true] at hrefines
          rcases List.mem_cons.1 h with rfl | h
          · exact ⟨List.mem_cons_self, hrefines.1⟩
          · exact ⟨List.mem_cons_of_mem _ (ih h).1, (ih h).2⟩
      · exact ⟨List.mem_cons_of_mem _ (ih h).1, (ih h).2⟩

/-- A candidate that fits is refined, if no other one at its path was met before. -/
theorem mem_map_refined {possibleTypes : List Name} {collected : Collected} {seen : List Path}
    {candidates : List Shape} {candidate : Shape} (h : candidate ∈ candidates)
    (hrefines : refines possibleTypes collected candidate = true) :
    candidate.fullPath.toInterface ∈
        (refined possibleTypes collected seen candidates).map (·.fullPath.toInterface) ∨
      candidate.fullPath.toInterface ∈ seen := by
  induction candidates generalizing seen with
  | nil => exact absurd h List.not_mem_nil
  | cons first rest ih =>
      rw [refined]
      by_cases hkept : (refines possibleTypes collected first &&
          !decide (first.fullPath.toInterface ∈ seen)) = true
      · rw [if_pos hkept, List.map_cons, List.mem_cons]
        rcases List.mem_cons.1 h with rfl | h
        · exact .inl (.inl rfl)
        · rcases @ih (first.fullPath.toInterface :: seen) h with hmem | hseen
          · exact .inl (.inr hmem)
          · rcases List.mem_cons.1 hseen with hfirst | hseen
            · exact .inl (.inl hfirst)
            · exact .inr hseen
      · rw [if_neg hkept]
        rcases List.mem_cons.1 h with rfl | h
        · rw [hrefines, Bool.true_and, Bool.not_eq_true, Bool.not_eq_false',
            decide_eq_true_eq] at hkept
          exact .inr hkept
        · exact ih h

/-- The candidates come from three sides. -/
theorem mem_candidates {builder : Builder} {request : Request} {earlier : List Shape}
    {typeSet : TypeSet} {fragments : List Name} {candidate : Shape} :
    candidate ∈ builder.candidates request earlier typeSet fragments ↔
      (candidate ∈ earlier ∧ candidate.typeSet ≠ typeSet ∧
        ∀ name ∈ candidate.typeSet.names, name ∈ typeSet.names) ∨
      (∃ name ∈ fragments, ∃ shapes, builder.fragmentShapes.lookup name = some shapes ∧
        candidate ∈ shapes) ∨
      ∃ field ∈ request.inherited, candidate ∈ field.shapes := by
  have hfragment : ∀ name, candidate ∈ (builder.fragmentShapes.lookup name).getD [] ↔
      ∃ shapes, builder.fragmentShapes.lookup name = some shapes ∧ candidate ∈ shapes := by
    intro name
    cases builder.fragmentShapes.lookup name <;> simp
  simp only [candidates, List.mem_append, List.mem_filter, List.mem_flatMap, Bool.and_eq_true,
    decide_eq_true_eq, TypeSet.subset_iff, hfragment, or_assoc]

/-! ## Shapes of one field -/

section Shapes

variable {builder : Builder} {Below : Request → List Shape → Prop} {request : Request}
  {earlier : List Shape} {collected : Collected} {shape : Shape}
  (hfrom : builder.ShapeFrom Below request earlier collected shape)
include hfrom

/-- A shape refines every candidate that fits. -/
theorem ShapeFrom.mem_implements {candidate : Shape}
    (hcandidate : candidate ∈
      builder.candidates request earlier shape.typeSet collected.fragments)
    (hpossible : ∀ concrete ∈ shape.possibleTypes, concrete ∈ candidate.possibleTypes)
    (hnames : ∀ name ∈ candidate.fields.map Field.responseName,
      name ∈ collected.fields.map Prod.fst) :
    candidate.fullPath.toInterface ∈ shape.implements := by
  rw [hfrom.implements, parents]
  exact (mem_map_refined hcandidate (refines_iff.2 ⟨hpossible, hnames⟩)).resolve_right
    List.not_mem_nil

/-- What applies to a shape applies to every shape that stands for some of its concrete types and
for no others. -/
theorem ShapeFrom.applies_of_subset {other : Shape} (hne : other.possibleTypes ≠ [])
    (hsub : ∀ concrete ∈ other.possibleTypes, concrete ∈ shape.possibleTypes) (type : Name)
    (h : builder.schema.applies shape.typeSet shape.possibleTypes type = true) :
    builder.schema.applies other.typeSet other.possibleTypes type = true := by
  rw [hfrom.possibleTypes] at h hsub
  exact Schema.applies_of_subset hne hsub h

end Shapes

section Siblings

variable {builder : Builder} {Below : Request → List Shape → Prop} {request : Request}
  {conditions : List Name} {shapes : List Shape} {shape other : Shape}
  (hlevel : builder.LevelFrom Below request conditions shapes) (hother : other ∈ shapes)
  (hsub : other.typeSet.StrictSubset shape.typeSet)
include hlevel hother hsub

/-- Shapes with smaller type sets are built earlier. -/
theorem LevelFrom.mem_earlier {earlier later : List Shape}
    (hsplit : shapes = earlier ++ shape :: later) : other ∈ earlier := by
  have hsize := hsub.size_lt (Schema.increasing_of_mem_typeSets (hlevel.mem_typeSets hother))
  have hordered : (shapes.map ShapeOf.typeSet).Pairwise (·.precedes · = true) := by
    rw [hlevel.typeSets]
    exact TypeSet.pairwise_inOrder _
  rw [hsplit, List.mem_append, List.mem_cons] at hother
  rcases hother with hother | rfl | hother
  · exact hother
  · omega
  · rw [hsplit, List.map_append, List.map_cons, List.pairwise_append,
      List.pairwise_cons] at hordered
    have hprecedes := hordered.2.1.1 other.typeSet (List.mem_map_of_mem hother)
    rw [TypeSet.precedes_iff] at hprecedes
    omega

/-- A shape that is not the base stands for some concrete type. -/
theorem LevelFrom.possibleTypes_ne_nil (hshape : shape ∈ shapes) : shape.possibleTypes ≠ [] := by
  rcases Schema.mem_typeSets.1 (hlevel.mem_typeSets hshape) with hset | ⟨concrete, hc, hset⟩
  · -- the base has no member besides the type of the field, which every type set has
    obtain ⟨-, name, hname, hnot⟩ := hsub
    rw [hset, TypeSet.mem_single] at hname
    rw [hname] at hnot
    exact absurd (Schema.fieldType_mem_of_mem_typeSets (hlevel.mem_typeSets hother)) hnot
  · obtain ⟨before, after, hsplit⟩ := List.append_of_mem hshape
    exact List.ne_nil_of_mem (hlevel.strictSubset_of_typeSetOf hc hsplit hset).1

theorem LevelFrom.possibleTypes_subset (hshape : shape ∈ shapes) :
    ∀ concrete ∈ shape.possibleTypes, concrete ∈ other.possibleTypes := by
  intro concrete hconcrete
  rw [hlevel.mem_possibleTypes hshape] at hconcrete
  exact (hlevel.mem_possibleTypes hother).2 fun type htype => hconcrete type (hsub.1 type htype)

/-- A shape has the fields of all shapes of the field with smaller type sets. -/
theorem LevelFrom.responseNames_subset (hshape : shape ∈ shapes) :
    ∀ name ∈ other.fields.map Field.responseName, name ∈ shape.fields.map Field.responseName := by
  obtain ⟨earlier, later, collected, -, hfrom⟩ := hlevel.exists_shapeFrom hshape
  obtain ⟨earlier', later', collected', -, hfrom'⟩ := hlevel.exists_shapeFrom hother
  have hsubset := hlevel.possibleTypes_subset hother hsub hshape
  have hne := hlevel.possibleTypes_ne_nil hother hsub hshape
  have hincludes : collected.Includes collected' :=
    includes_of_collect (hfrom'.applies_of_subset hne hsubset) (List.Subset.refl _)
      hfrom'.collects hfrom.collects
  rw [hfrom.map_responseName, hfrom'.map_responseName]
  exact hincludes.mem_names

/-- A shape refines all shapes of the field with smaller type sets. -/
theorem LevelFrom.mem_implements (hshape : shape ∈ shapes) :
    other.fullPath.toInterface ∈ shape.implements := by
  obtain ⟨earlier, later, collected, hsplit, hfrom⟩ := hlevel.exists_shapeFrom hshape
  refine hfrom.mem_implements (mem_candidates.2 (.inl ⟨?_, ?_, hsub.1⟩))
    (hlevel.possibleTypes_subset hother hsub hshape) ?_
  · exact hlevel.mem_earlier hother hsub hsplit
  · intro heq
    obtain ⟨-, name, hname, hnot⟩ := hsub
    exact hnot (heq ▸ hname)
  · rw [← hfrom.map_responseName]
    exact hlevel.responseNames_subset hother hsub hshape

end Siblings

/-! ## Candidates from the tree and from fragments -/

/-- The field is in the tree, or in the tree of a fragment built before. -/
def Known (before : List (Name × FragmentModel)) (data field : Field) : Prop :=
  field ∈ data.all ∨ ∃ entry ∈ before, field ∈ entry.2.dataField.all

theorem Known.sub {before : List (Name × FragmentModel)} {data field sub : Field} {shape : Shape}
    (h : Known before data field) (hshape : shape ∈ field.shapes) (hsub : sub ∈ shape.fields) :
    Known before data sub := by
  rcases h with h | ⟨entry, hentry, h⟩
  · exact .inl (Field.mem_all_of_mem_fields h hshape hsub)
  · exact .inr ⟨entry, hentry, Field.mem_all_of_mem_fields h hshape hsub⟩

/-- The trees around a build: the tree that is built at `root`, and the trees of the fragments built
before, each at its own name.  A fragment is not built before itself. -/
structure Placement (before : List (Name × FragmentModel)) (root : Path) (data : Field) :
    Prop where
  data : data.Placed root
  fragments : ∀ entry ∈ before, entry.2.dataField.Placed (.atRoot entry.2.name .fragment)
  apart : root.root = .fragment → ∀ entry ∈ before, entry.2.name ≠ root.fileName

/-- The fields that a request inherits are known, and none of their shapes stands where the request
asks for shapes. -/
structure Inherits (before : List (Name × FragmentModel)) (data : Field) (request : Request) :
    Prop where
  known : ∀ field ∈ request.inherited, Known before data field
  elsewhere : ∀ field ∈ request.inherited, ∀ shape ∈ field.shapes,
    shape.path.toInterface ≠ request.path.toInterface

section Parents

variable {schema : Schema} {before : List (Name × FragmentModel)} {root : Path} {data : Field}

theorem Placement.placed (h : Placement before root data) {field : Field}
    (hfield : Known before data field) : ∃ path, field.Placed path := by
  rcases hfield with hfield | ⟨entry, hentry, hfield⟩
  · exact h.data.of_mem_all hfield
  · exact (h.fragments entry hentry).of_mem_all hfield

/-- No shape of a fragment built before stands where a shape of the tree stands. -/
theorem Placement.ne_of_fragment (h : Placement before root data) {shape other : Shape}
    (hshape : shape ∈ data.allShapes) {entry : Name × FragmentModel} (hentry : entry ∈ before)
    (hother : other ∈ entry.2.dataField.allShapes) :
    other.fullPath.toInterface ≠ shape.fullPath.toInterface := by
  obtain ⟨hname, hroot⟩ := h.data.root_of_mem_allShapes hshape
  obtain ⟨hname', hroot'⟩ := (h.fragments entry hentry).root_of_mem_allShapes hother
  intro heq
  have hfragment : root.root = .fragment := by
    rw [← hroot, ← Path.root_toInterface_eq_fragment, ← heq, Path.root_toInterface_eq_fragment,
      hroot']
    rfl
  have hfile := congrArg Path.fileName heq
  rw [Path.fileName_toInterface, Path.fileName_toInterface, hname, hname'] at hfile
  exact h.apart hfragment entry hentry hfile

section Level

variable {request : Request} {field : Field} {earlier later : List Shape} {shape : Shape}
  {collected : Collected} (hplacement : Placement before root data) (hfield : field ∈ data.all)
  (hfills : (Linked.builderAfter schema before).Fills request field)
  (hinherits : Inherits before data request) (hsplit : field.shapes = earlier ++ shape :: later)
  (hfrom : (Linked.builderAfter schema before).ShapeFrom (Linked.builderAfter schema before).Built
    request earlier collected shape)
include hplacement hfield hfills hinherits hsplit hfrom

/-- A candidate is known and stands elsewhere. -/
theorem known_of_mem_candidates {candidate : Shape}
    (hcandidate : candidate ∈ (Linked.builderAfter schema before).candidates request earlier
      shape.typeSet collected.fragments) :
    (∃ around, Known before data around ∧ candidate ∈ around.shapes) ∧
      candidate.fullPath.toInterface ≠ shape.fullPath.toInterface := by
  have hshape : shape ∈ field.shapes := by rw [hsplit]; simp
  rcases mem_candidates.1 hcandidate with ⟨hearlier, hset, -⟩ |
    ⟨name, -, shapes, hlookup, hmem⟩ | ⟨around, haround, hmem⟩
  · -- an earlier shape of the field has another type set
    have hmem : candidate ∈ field.shapes := by
      rw [hsplit]
      exact List.mem_append_left _ hearlier
    refine ⟨⟨field, .inl hfield, hmem⟩, fun heq => ?_⟩
    rw [hfills.placed.fullPath_eq hmem, hfills.placed.fullPath_eq hshape,
      Path.toInterface_append, Path.toInterface_append] at heq
    exact hset (congrArg Path.Element.typeSet (Path.append_inj heq).2)
  · obtain ⟨model, hmodel, rfl⟩ := Linked.lookup_fragmentShapes.1 hlookup
    have hentry := mem_of_lookup_eq_some hmodel
    have hself := model.dataField.self_mem_all
    refine ⟨⟨_, .inr ⟨(name, model), hentry, hself⟩, hmem⟩, ?_⟩
    exact hplacement.ne_of_fragment (Field.mem_allShapes.2 ⟨field, hfield, hshape⟩) hentry
      (Field.mem_allShapes.2 ⟨_, hself, hmem⟩)
  · refine ⟨⟨around, hinherits.known around haround, hmem⟩, fun heq => ?_⟩
    rw [ShapeOf.fullPath, ShapeOf.fullPath, Path.toInterface_append, Path.toInterface_append,
      hfrom.path] at heq
    exact hinherits.elsewhere around haround candidate hmem (Path.append_inj heq).1

/-- A shape that is refined is known, stands elsewhere and fits. -/
theorem mem_parents {parent : Shape}
    (hparent : parent ∈
      (Linked.builderAfter schema before).parents request earlier shape collected) :
    (∃ around, Known before data around ∧ parent ∈ around.shapes) ∧
      parent.fullPath.toInterface ≠ shape.fullPath.toInterface ∧
      refines shape.possibleTypes collected parent = true := by
  obtain ⟨hcandidate, hrefines⟩ := mem_refined hparent
  obtain ⟨hknown, hne⟩ :=
    known_of_mem_candidates hplacement hfield hfills hinherits hsplit hfrom hcandidate
  exact ⟨hknown, hne, hrefines⟩

/-- What a request inherits passes to the requests below: the shapes of an inherited field stand
below a shape that is refined, and that one stands elsewhere. -/
theorem Inherits.below (entry : Name × Merged) :
    Inherits before data ((Linked.builderAfter schema before).requestBelow shape.fullPath
      ((Linked.builderAfter schema before).parents request earlier shape collected) entry) := by
  have hinherited : ∀ sub ∈ ((Linked.builderAfter schema before).parents request earlier shape
      collected).filterMap (·.field? entry.1), ∃ parent around, Known before data around ∧
      parent ∈ around.shapes ∧ sub ∈ parent.fields ∧
      parent.fullPath.toInterface ≠ shape.fullPath.toInterface := by
    intro sub hsub
    obtain ⟨parent, hparent, hsub⟩ := List.mem_filterMap.1 hsub
    obtain ⟨⟨around, hknown, hmem⟩, hne, -⟩ :=
      mem_parents hplacement hfield hfills hinherits hsplit hfrom hparent
    exact ⟨parent, around, hknown, hmem, (ShapeOf.field?_eq_some hsub).1, hne⟩
  constructor
  · intro sub hsub
    obtain ⟨parent, around, hknown, hmem, hsub, -⟩ := hinherited sub hsub
    exact hknown.sub hmem hsub
  · intro sub hsub inner hinner
    obtain ⟨parent, around, hknown, hmem, hsub, hne⟩ := hinherited sub hsub
    obtain ⟨path, hplaced⟩ := hplacement.placed hknown
    rw [(hplaced.sub hmem hsub).shape_path hinner]
    exact hne

end Level

/-- The shape refines the given ones: they are known, stand elsewhere and fit, and the fields that
override are those that one of them has. -/
structure RefinedBy (before : List (Name × FragmentModel)) (data : Field) (shape : Shape)
    (parents : List Shape) : Prop where
  implements : shape.implements = parents.map (·.fullPath.toInterface)
  known : ∀ parent ∈ parents, ∃ around, Known before data around ∧ parent ∈ around.shapes
  elsewhere : ∀ parent ∈ parents, parent.fullPath.toInterface ≠ shape.fullPath.toInterface
  possibleTypes : ∀ parent ∈ parents, ∀ concrete ∈ shape.possibleTypes,
    concrete ∈ parent.possibleTypes
  names : ∀ parent ∈ parents, ∀ name ∈ parent.fields.map Field.responseName,
    name ∈ shape.fields.map Field.responseName
  isOverride : ∀ field ∈ shape.fields, field.isOverride = true ↔
    ∃ parent ∈ parents, field.responseName ∈ parent.fields.map Field.responseName

/-- Every shape of a built tree refines shapes that were there when it was built. -/
theorem exists_refinedBy (hplacement : Placement before root data) {type : Name}
    {selections : List Resolved}
    (hdata : (Linked.builderAfter schema before).DataFieldFrom type selections root data) :
    ∀ shape ∈ data.allShapes, ∃ parents, RefinedBy before data shape parents := by
  have hroot : Inherits before data (rootRequest type selections root) :=
    ⟨fun _ h => absurd h List.not_mem_nil, fun _ h => absurd h List.not_mem_nil⟩
  have hall := hdata.fills.forall_mem_all hroot
    fun _ _ _ _ _ _ entry hfield hfills hinherits hsplit hfrom _ =>
      hinherits.below hplacement hfield hfills hsplit hfrom entry
  intro shape hshape
  obtain ⟨field, hfield, hshape⟩ := Field.mem_allShapes.1 hshape
  rcases hall field hfield with hnone | ⟨request, hfills, hinherits⟩
  · rw [hnone] at hshape
    exact absurd hshape List.not_mem_nil
  obtain ⟨conditions, hlevel⟩ := hfills.built.level
  obtain ⟨earlier, later, collected, hsplit, hfrom⟩ := hlevel.exists_shapeFrom hshape
  have hparents := fun parent (hparent : parent ∈ (Linked.builderAfter schema before).parents
      request earlier shape collected) =>
    mem_parents hplacement hfield hfills hinherits hsplit hfrom hparent
  have hrefines := fun parent hparent => refines_iff.1 (hparents parent hparent).2.2
  refine ⟨_, hfrom.implements, fun parent hparent => (hparents parent hparent).1,
    fun parent hparent => (hparents parent hparent).2.1,
    fun parent hparent => (hrefines parent hparent).1, fun parent hparent => ?_,
    fun sub hsub => ?_⟩
  · rw [hfrom.map_responseName]
    exact (hrefines parent hparent).2
  · obtain ⟨entry, -, hname, hsubfrom⟩ := hfrom.exists_entry hsub
    rw [hsubfrom.isOverride, List.any_eq_true, hname]
    simp only [ShapeOf.isSome_field?]

end Parents

end Builder

/-! ## Paths of a model -/

theorem filter_eq_singleton {α β : Type} [DecidableEq β] {f : α → β} {xs : List α}
    (h : (xs.map f).Nodup) {x : α} (hx : x ∈ xs) : xs.filter (fun y => f y = f x) = [x] := by
  obtain ⟨before, after, rfl⟩ := List.append_of_mem hx
  rw [List.map_append, List.map_cons, List.nodup_middle, List.nodup_cons, ← List.map_append] at h
  have hnone : (before ++ after).filter (fun y => f y = f x) = [] := by
    rw [List.filter_eq_nil_iff]
    intro y hy hsame
    exact h.1 (of_decide_eq_true hsame ▸ List.mem_map_of_mem hy)
  rw [List.filter_append, List.append_eq_nil_iff] at hnone
  rw [List.filter_append, List.filter_cons_of_pos (by simp), hnone.1, hnone.2]
  rfl

namespace Model

variable {model : Model} {own : List Shape}

theorem shapesAt_of_mem_fragmentShapes
    (hnodup : (model.fragmentShapes.map ShapeOf.fullPath).Nodup)
    {shape : Shape} (hshape : shape ∈ model.fragmentShapes)
    (hroot : shape.fullPath.root = .fragment) :
    model.shapesAt own shape.fullPath.toInterface = [shape] := by
  have hown : own.filter (fun other =>
      other.fullPath.withRoot .operationInterface = shape.fullPath) = [] := by
    rw [List.filter_eq_nil_iff]
    intro other _ hsame
    have hroots := congrArg Path.root (of_decide_eq_true hsame)
    rw [hroot] at hroots
    nomatch hroots
  rw [Path.toInterface_of_fragment hroot, shapesAt, hown, List.nil_append]
  exact filter_eq_singleton hnodup hshape

theorem shapesAt_of_mem_own (hnodup : (own.map ShapeOf.fullPath).Nodup)
    (hown : ∀ shape ∈ own, shape.fullPath.root = .operationImplementation)
    (hfragments : ∀ shape ∈ model.fragmentShapes, shape.fullPath.root = .fragment)
    {shape : Shape} (hshape : shape ∈ own) :
    model.shapesAt own shape.fullPath.toInterface = [shape] := by
  have hinterfaces :
      (own.map fun shape => shape.fullPath.withRoot .operationInterface).Nodup := by
    refine List.pairwise_map.2 ((List.pairwise_map.1 hnodup).imp_of_mem ?_)
    intro first second hfirst hsecond hne heq
    exact hne (Path.withRoot_inj ((hown first hfirst).trans (hown second hsecond).symm) heq)
  have hnone : model.fragmentShapes.filter (fun other =>
      other.fullPath = shape.fullPath.withRoot .operationInterface) = [] := by
    rw [List.filter_eq_nil_iff]
    intro other hother hsame
    have hroots := congrArg Path.root (of_decide_eq_true hsame)
    rw [hfragments other hother] at hroots
    nomatch hroots
  rw [Path.toInterface_of_implementation (hown shape hshape), shapesAt, hnone, List.append_nil]
  exact filter_eq_singleton hinterfaces hshape

/-- If the paths of the shapes that a shape refines address just these shapes, what the shape says
about refinement is sound and exact. -/
theorem refinesExactly_of_refinedBy {before : List (Name × FragmentModel)} {data : Field}
    {shape : Shape} {parents : List Shape} (h : Builder.RefinedBy before data shape parents)
    (hat : ∀ parent ∈ parents, model.shapesAt own parent.fullPath.toInterface = [parent]) :
    model.RefinesExactly own shape := by
  constructor
  · intro path hpath
    rw [h.implements] at hpath
    obtain ⟨parent, hparent, rfl⟩ := List.mem_map.1 hpath
    refine ⟨Path.root_toInterface _, parent, hat parent hparent, ?_, h.possibleTypes parent hparent,
      h.names parent hparent⟩
    rintro rfl
    exact h.elsewhere parent hparent rfl
  · intro field hfield
    rw [h.isOverride field hfield, h.implements]
    constructor
    · rintro ⟨parent, hparent, hname⟩
      refine ⟨_, List.mem_map_of_mem hparent, parent, ?_, hname⟩
      rw [hat parent hparent]
      exact List.mem_singleton_self parent
    · rintro ⟨path, hpath, target, htarget, hname⟩
      obtain ⟨parent, hparent, rfl⟩ := List.mem_map.1 hpath
      rw [hat parent hparent, List.mem_singleton] at htarget
      exact ⟨parent, hparent, htarget ▸ hname⟩

end Model

/-! ## All shapes of a model -/

namespace Linked

variable {schema : Schema} {documents accompanying : List Document} {linked : Linked}
  {model : Model} {order : List Name} {built : List (Name × FragmentModel)}

section Fragments

variable (hparts : linked.BuildFrom order built model)
include hparts

/-- The tree of a fragment stands at its name. -/
theorem BuildFrom.placed_of_mem_built {entry : Name × FragmentModel} (hentry : entry ∈ built) :
    entry.2.dataField.Placed (.atRoot entry.2.name .fragment) := by
  obtain ⟨before, after, hsplit⟩ := List.append_of_mem hentry
  obtain ⟨fragment, hlookup, hname, hdata⟩ := hparts.fragment_split hsplit
  rw [hname]
  exact hdata.fills.placed

theorem BuildFrom.placed_of_mem_fragments {fragment : FragmentModel}
    (hfragment : fragment ∈ model.fragments) :
    fragment.dataField.Placed (.atRoot fragment.name .fragment) := by
  obtain ⟨name, before, after, hsplit⟩ := hparts.exists_built hfragment
  have hentry : (name, fragment) ∈ built := by rw [hsplit]; simp
  exact hparts.placed_of_mem_built hentry

theorem BuildFrom.root_of_mem_fragmentShapes {shape : Shape}
    (hshape : shape ∈ model.fragmentShapes) : shape.fullPath.root = .fragment := by
  obtain ⟨fragment, hfragment, hshape⟩ := List.mem_flatMap.1 hshape
  exact ((hparts.placed_of_mem_fragments hfragment).root_of_mem_allShapes hshape).2

end Fragments

variable (hfrom : LinkedFrom schema documents accompanying linked)
  (hparts : linked.BuildFrom order built model)
include hfrom hparts

/-- No two shapes in the trees of all fragments have the same path. -/
theorem BuildFrom.nodup_fragmentShapes : (model.fragmentShapes.map ShapeOf.fullPath).Nodup := by
  refine Field.nodup_fullPaths_of_placed
    (fun fragment hfragment => hparts.placed_of_mem_fragments hfragment) ?_
  exact (List.pairwise_map.1 (hparts.nodup_fragment_names hfrom)).imp Or.inl

/-- A shape in the tree of a built fragment is the only one at its path. -/
theorem BuildFrom.shapesAt_of_built {entry : Name × FragmentModel} (hentry : entry ∈ built)
    {shape : Shape} (hshape : shape ∈ entry.2.dataField.allShapes) (own : List Shape) :
    model.shapesAt own shape.fullPath.toInterface = [shape] := by
  have hmem : shape ∈ model.fragmentShapes :=
    List.mem_flatMap.2 ⟨entry.2, hparts.mem_fragments hentry, hshape⟩
  exact Model.shapesAt_of_mem_fragmentShapes (hparts.nodup_fragmentShapes hfrom) hmem
    (hparts.root_of_mem_fragmentShapes hmem)

section Operation

variable {operation : LinkedOperation} {written : OperationModel}
  (hresult : (operationModel linked built operation).result = .ok written)
include hresult

omit hfrom in
/-- The tree of an operation is built after all fragments. -/
theorem BuildFrom.placement_operation :
    Builder.Placement built (.atRoot written.name .operationImplementation) written.dataField :=
  ⟨(operationModel_result hresult).2.fills.placed,
    fun _ hentry => hparts.placed_of_mem_built hentry, nofun⟩

/-- A shape that is known to an operation is the only one at its path. -/
theorem BuildFrom.shapesAt_operation {around : Field}
    (hknown : Builder.Known built written.dataField around) {shape : Shape}
    (hshape : shape ∈ around.shapes) :
    model.shapesAt written.dataField.allShapes shape.fullPath.toInterface = [shape] := by
  have hplaced := (hparts.placement_operation hresult).data
  rcases hknown with hknown | ⟨entry, hentry, hknown⟩
  · refine Model.shapesAt_of_mem_own hplaced.nodup_fullPaths (fun shape hshape => ?_)
      (fun shape hshape => hparts.root_of_mem_fragmentShapes hshape)
      (Field.mem_allShapes.2 ⟨around, hknown, hshape⟩)
    exact (hplaced.root_of_mem_allShapes hshape).2
  · exact hparts.shapesAt_of_built hfrom hentry (Field.mem_allShapes.2 ⟨around, hknown, hshape⟩) _

end Operation

section Fragment

variable {before after : List (Name × FragmentModel)} {name : Name} {fragment : FragmentModel}
  (hsplit : built = before ++ (name, fragment) :: after)
include hsplit

/-- The tree of a fragment is built after those of the fragments before it. -/
theorem BuildFrom.placement_fragment :
    Builder.Placement before (.atRoot fragment.name .fragment) fragment.dataField := by
  have hself : (name, fragment) ∈ built := by rw [hsplit]; simp
  have hbefore : ∀ entry ∈ before, entry ∈ built := by
    intro entry hentry
    rw [hsplit]
    exact List.mem_append_left _ hentry
  refine ⟨hparts.placed_of_mem_built hself,
    fun entry hentry => hparts.placed_of_mem_built (hbefore entry hentry), ?_⟩
  -- a fragment is built once, so it is not among those before it
  intro _ entry hentry hsame
  have hnodup := hparts.nodup_built
  rw [hsplit, List.map_append, List.nodup_append] at hnodup
  refine hnodup.2.2 entry.1 (List.mem_map_of_mem hentry) name (by simp) ?_
  rw [← hparts.name_eq hfrom (hbefore entry hentry), hsame]
  exact hparts.name_eq hfrom hself

/-- A shape that is known to a fragment is the only one at its path. -/
theorem BuildFrom.shapesAt_fragment {around : Field}
    (hknown : Builder.Known before fragment.dataField around) {shape : Shape}
    (hshape : shape ∈ around.shapes) (own : List Shape) :
    model.shapesAt own shape.fullPath.toInterface = [shape] := by
  rcases hknown with hknown | ⟨entry, hentry, hknown⟩
  · have hself : (name, fragment) ∈ built := by rw [hsplit]; simp
    exact hparts.shapesAt_of_built hfrom hself (Field.mem_allShapes.2 ⟨around, hknown, hshape⟩) own
  · have hmem : entry ∈ built := by
      rw [hsplit]
      exact List.mem_append_left _ hentry
    exact hparts.shapesAt_of_built hfrom hmem (Field.mem_allShapes.2 ⟨around, hknown, hshape⟩) own

end Fragment

theorem BuildFrom.refinesExactly_operation {operation : OperationModel}
    (hoperation : operation ∈ model.operations) :
    ∀ shape ∈ operation.dataField.allShapes,
      model.RefinesExactly operation.dataField.allShapes shape := by
  obtain ⟨written, -, hresult⟩ := exists_of_forall₂_of_mem hparts.operations hoperation
  intro shape hshape
  obtain ⟨parents, hrefined⟩ := Builder.exists_refinedBy
    (hparts.placement_operation hresult) (operationModel_result hresult).2 shape hshape
  refine Model.refinesExactly_of_refinedBy hrefined fun parent hparent => ?_
  obtain ⟨around, hknown, hmem⟩ := hrefined.known parent hparent
  exact hparts.shapesAt_operation hfrom hresult hknown hmem

theorem BuildFrom.refinesExactly_fragment {fragment : FragmentModel}
    (hfragment : fragment ∈ model.fragments) :
    ∀ shape ∈ fragment.dataField.allShapes, model.RefinesExactly [] shape := by
  obtain ⟨name, before, after, hsplit⟩ := hparts.exists_built hfragment
  obtain ⟨written, -, hname, hdata⟩ := hparts.fragment_split hsplit
  rw [← hname] at hdata
  intro shape hshape
  obtain ⟨parents, hrefined⟩ :=
    Builder.exists_refinedBy (hparts.placement_fragment hfrom hsplit) hdata shape hshape
  refine Model.refinesExactly_of_refinedBy hrefined fun parent hparent => ?_
  obtain ⟨around, hknown, hmem⟩ := hrefined.known parent hparent
  exact hparts.shapesAt_fragment hfrom hsplit hknown hmem []

end Linked

/-- **What shapes say about refinement is sound and exact.**  Take any shape in the tree of an
operation or a fragment.  Every path that it implements is that of an operation interface or of a
fragment and addresses exactly one shape, in the same operation or in a fragment.  That shape is
another one, stands for all concrete types of the given shape and has no field that it lacks.  A
field of the shape overrides if and only if one of the addressed shapes has a field of its response
name.  Among the paths are those of all shapes of the same field with smaller type sets. -/
theorem refines_exactly {options : Options} {schema : Schema}
    {documents accompanying : List Document}
    {linked : Linked} {config : Config} {model : Model}
    (hlink : Linked.ofDocuments options schema documents accompanying = .ok linked)
    (hbuild : (linked.build config).result = .ok model) :
    (∀ operation ∈ model.operations, ∀ shape ∈ operation.dataField.allShapes,
      model.RefinesExactly operation.dataField.allShapes shape) ∧
    (∀ fragment ∈ model.fragments, ∀ shape ∈ fragment.dataField.allShapes,
      model.RefinesExactly [] shape) ∧
    ∀ data ∈ model.dataFields, ∀ field ∈ data.all, ∀ shape ∈ field.shapes,
      ∀ other ∈ field.shapes, other.typeSet.StrictSubset shape.typeSet →
        other.fullPath.toInterface ∈ shape.implements := by
  have hfrom := Linked.linkedFrom hlink
  obtain ⟨order, built, hparts⟩ := Linked.buildFrom_of_result hbuild
  refine ⟨fun operation hoperation => hparts.refinesExactly_operation hfrom hoperation,
    fun fragment hfragment => hparts.refinesExactly_fragment hfrom hfragment, ?_⟩
  intro data hdata field hfield shape hshape other hother hsub
  obtain ⟨builder, -, request, hfills⟩ :=
    Linked.exists_fills hlink hbuild hdata hfield (List.ne_nil_of_mem hshape)
  obtain ⟨conditions, hlevel⟩ := hfills.built.level
  exact hlevel.mem_implements hother hsub hshape

theorem refines_exactly_cat :
    ∃ shape ∈ Sample.operation.dataField.allShapes, shape.implements.length = 3 ∧
      Sample.model.RefinesExactly Sample.operation.dataField.allShapes shape := by
  have hsome : (Sample.operation.dataField.allShapes.find?
      fun shape => shape.implements.length = 3).isSome = true := by
    decide +kernel
  obtain ⟨shape, hshape⟩ := Option.isSome_iff_exists.1 hsome
  have hmem := List.mem_of_find?_eq_some hshape
  have hlength : shape.implements.length = 3 := by simpa using List.find?_some hshape
  exact ⟨shape, hmem, hlength, (refines_exactly Sample.ofDocuments_eq Sample.build_eq).1
    Sample.operation Sample.operation_mem shape hmem⟩

end ResponseModel

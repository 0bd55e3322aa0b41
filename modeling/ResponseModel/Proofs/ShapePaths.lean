import ResponseModel.Proofs.ConcreteShapes

/-!
# The paths of shapes

The path of a shape is its address.  In a built tree every shape stands at the path of the shape
around it, one step further down (`Field.Placed`), and the steps from one shape differ: those to
different fields by the response name, those to shapes of one field by the type set.  So no two
shapes of a tree have the same path (`Placed.nodup_fullPaths`), nor have shapes of trees at
different roots (`nodup_fullPaths_of_placed`).
-/

namespace ResponseModel

/-! ## Steps below a path -/

namespace Path

/-- The path goes from `base` through the step `element`. -/
def Through (base : Path) (element : Element) (path : Path) : Prop :=
  ∃ rest, path = { base with elements := base.elements ++ element :: rest }

variable {base path : Path} {element other : Element}

theorem through_append (base : Path) (element : Element) :
    base.Through element (base.append element) := ⟨[], rfl⟩

theorem Through.of_append (h : (base.append element).Through other path) :
    base.Through element path := by
  obtain ⟨rest, rfl⟩ := h
  exact ⟨other :: rest, by simp [append]⟩

theorem Through.unique (h : base.Through element path) (h' : base.Through other path) :
    element = other := by
  obtain ⟨rest, rfl⟩ := h
  obtain ⟨rest', heq⟩ := h'
  have helements := List.append_cancel_left (congrArg Path.elements heq)
  exact (List.cons.inj helements).1

/-- A path that goes further is another path. -/
theorem Through.ne_append (h : (base.append element).Through other path) (last : Element) :
    path ≠ base.append last := by
  rintro rfl
  obtain ⟨rest, heq⟩ := h
  have hlength := congrArg (fun path => path.elements.length) heq
  simp [append] at hlength

theorem Through.fileName_eq (h : base.Through element path) : path.fileName = base.fileName := by
  obtain ⟨rest, rfl⟩ := h
  rfl

theorem Through.root_eq (h : base.Through element path) : path.root = base.root := by
  obtain ⟨rest, rfl⟩ := h
  rfl

theorem append_inj (h : path.append element = base.append other) :
    path = base ∧ element = other := by
  obtain ⟨fileName, root, elements⟩ := path
  obtain ⟨fileName', root', elements'⟩ := base
  simp only [append, Path.mk.injEq] at h
  obtain ⟨rfl, rfl, helements⟩ := h
  obtain ⟨rfl, hlast⟩ := List.append_inj' helements rfl
  exact ⟨rfl, (List.cons.inj hlast).1⟩

theorem fileName_toInterface (path : Path) : path.toInterface.fileName = path.fileName := by
  obtain ⟨fileName, root, elements⟩ := path
  cases root <;> rfl

theorem root_toInterface_eq_fragment {path : Path} :
    path.toInterface.root = .fragment ↔ path.root = .fragment := by
  obtain ⟨fileName, root, elements⟩ := path
  cases root <;> simp [toInterface, withRoot]

/-- No shape is refined at the root of an operation itself. -/
theorem root_toInterface (path : Path) :
    path.toInterface.root = .operationInterface ∨ path.toInterface.root = .fragment := by
  obtain ⟨fileName, root, elements⟩ := path
  cases root <;> simp [toInterface, withRoot]

theorem withRoot_inj {path other : Path} {root : Root} (hroot : path.root = other.root)
    (h : path.withRoot root = other.withRoot root) : path = other := by
  obtain ⟨fileName, _, elements⟩ := path
  obtain ⟨fileName', _, elements'⟩ := other
  simp only [withRoot, Path.mk.injEq, true_and] at h
  obtain ⟨rfl, rfl⟩ := h
  exact congrArg (Path.mk fileName · elements) hroot

theorem toInterface_of_fragment {path : Path} (h : path.root = .fragment) :
    path.toInterface = path := by
  obtain ⟨fileName, root, elements⟩ := path
  obtain rfl : root = .fragment := h
  rfl

theorem toInterface_of_implementation {path : Path} (h : path.root = .operationImplementation) :
    path.toInterface = path.withRoot .operationInterface := by
  obtain ⟨fileName, root, elements⟩ := path
  obtain rfl : root = .operationImplementation := h
  rfl

theorem toInterface_append (path : Path) (element : Element) :
    (path.append element).toInterface = path.toInterface.append element := by
  obtain ⟨fileName, root, elements⟩ := path
  cases root <;> rfl

end Path

/-! ## Trees whose shapes stand at their paths -/

namespace Field

theorem allShapes_eq (field : Field) : field.allShapes =
    field.shapes ++ field.shapes.flatMap fun shape => shape.fields.flatMap allShapes := by
  rw [allShapes, all_eq, List.flatMap_cons, List.flatMap_assoc]
  simp only [List.flatMap_assoc]
  rfl

theorem mem_allShapes {top : Field} {shape : Shape} :
    shape ∈ top.allShapes ↔ ∃ field ∈ top.all, shape ∈ field.shapes := List.mem_flatMap

/-- The shapes of the field stand below `path`, told apart by their type sets, and each of them
tells its fields apart by their response names; and so on for the fields of the shapes. -/
inductive Placed : Path → Field → Prop
  | intro {path : Path} {field : Field}
      (here : ∀ shape ∈ field.shapes, shape.path = path ∧ shape.responseName = field.responseName)
      (typeSets : (field.shapes.map ShapeOf.typeSet).Nodup)
      (names : ∀ shape ∈ field.shapes, (shape.fields.map responseName).Nodup)
      (below : ∀ shape ∈ field.shapes, ∀ sub ∈ shape.fields, Placed shape.fullPath sub) :
      Placed path field

theorem placed_of_shapes_eq_nil {field : Field} (path : Path) (h : field.shapes = []) :
    field.Placed path := by
  constructor <;> simp [h]

namespace Placed

variable {path : Path} {top field : Field}

theorem shape_path (h : field.Placed path) {shape : Shape} (hshape : shape ∈ field.shapes) :
    shape.path = path := by
  obtain ⟨here, -, -, -⟩ := h
  exact (here shape hshape).1

theorem sub (h : field.Placed path) {shape : Shape} (hshape : shape ∈ field.shapes) {sub : Field}
    (hsub : sub ∈ shape.fields) : sub.Placed shape.fullPath := by
  obtain ⟨-, -, -, below⟩ := h
  exact below shape hshape sub hsub

theorem of_mem_all (h : top.Placed path) (hfield : field ∈ top.all) :
    ∃ path, field.Placed path :=
  Field.forall_mem_all (P := fun field => ∃ path, field.Placed path) ⟨path, h⟩
    (fun _ ⟨_, hplaced⟩ _ hshape _ hsub => ⟨_, hplaced.sub hshape hsub⟩) field hfield

theorem fullPath_eq (h : field.Placed path) {shape : Shape} (hshape : shape ∈ field.shapes) :
    shape.fullPath = path.append ⟨shape.typeSet, shape.fieldType, field.responseName⟩ := by
  obtain ⟨here, -, -, -⟩ := h
  obtain ⟨hpath, hname⟩ := here shape hshape
  rw [ShapeOf.fullPath, hpath, hname]

/-- The paths in a tree go through a step to the field at its top. -/
theorem through (h : top.Placed path) : ∀ shape ∈ top.allShapes,
    ∃ element, path.Through element shape.fullPath ∧ element.responseName = top.responseName := by
  induction h with
  | @intro path top here typeSets names below ih =>
      have hplaced : top.Placed path := .intro here typeSets names below
      intro shape hshape
      rw [allShapes_eq, List.mem_append] at hshape
      rcases hshape with hshape | hshape
      · rw [hplaced.fullPath_eq hshape]
        exact ⟨_, Path.through_append _ _, rfl⟩
      · obtain ⟨outer, houter, hshape⟩ := List.mem_flatMap.1 hshape
        obtain ⟨sub, hsub, hshape⟩ := List.mem_flatMap.1 hshape
        obtain ⟨element, hthrough, -⟩ := ih outer houter sub hsub shape hshape
        rw [hplaced.fullPath_eq houter] at hthrough
        exact ⟨_, hthrough.of_append, rfl⟩

section Below

variable {outer : Shape} (h : top.Placed path) (houter : outer ∈ top.shapes)
include h houter

theorem through_sub {sub : Field} (hsub : sub ∈ outer.fields) {inner : Path}
    (hinner : inner ∈ sub.allShapes.map ShapeOf.fullPath) :
    ∃ element, outer.fullPath.Through element inner ∧ element.responseName = sub.responseName := by
  obtain ⟨shape, hshape, rfl⟩ := List.mem_map.1 hinner
  exact (h.sub houter hsub).through shape hshape

theorem through_fields {inner : Path}
    (hinner : inner ∈ (outer.fields.flatMap allShapes).map ShapeOf.fullPath) :
    ∃ element, outer.fullPath.Through element inner := by
  rw [List.map_flatMap, List.mem_flatMap] at hinner
  obtain ⟨sub, hsub, hinner⟩ := hinner
  obtain ⟨element, hthrough, -⟩ := h.through_sub houter hsub hinner
  exact ⟨element, hthrough⟩

/-- Shapes below different fields of a shape have different paths. -/
theorem nodup_fields (hsubs : ∀ sub ∈ outer.fields, (sub.allShapes.map ShapeOf.fullPath).Nodup) :
    ((outer.fields.flatMap allShapes).map ShapeOf.fullPath).Nodup := by
  have hnames : (outer.fields.map responseName).Nodup := by
    obtain ⟨-, -, names, -⟩ := h
    exact names outer houter
  rw [List.map_flatMap]
  refine List.nodup_flatMap.2 ⟨hsubs, (List.pairwise_map.1 hnames).imp_of_mem ?_⟩
  intro sub other hsub hother hne inner hinner hinner'
  obtain ⟨element, hthrough, hname⟩ := h.through_sub houter hsub hinner
  obtain ⟨element', hthrough', hname'⟩ := h.through_sub houter hother hinner'
  rw [hthrough.unique hthrough', hname'] at hname
  exact hne hname.symm

end Below

theorem pairwise_typeSet (h : field.Placed path) :
    field.shapes.Pairwise fun shape other => shape.typeSet ≠ other.typeSet := by
  obtain ⟨-, typeSets, -, -⟩ := h
  exact List.pairwise_map.1 typeSets

/-- No two shapes of a tree have the same path. -/
theorem nodup_fullPaths (h : top.Placed path) : (top.allShapes.map ShapeOf.fullPath).Nodup := by
  induction h with
  | @intro path top here typeSets names below ih =>
      have h : top.Placed path := .intro here typeSets names below
      have hfields : ∀ outer ∈ top.shapes,
          ((outer.fields.flatMap allShapes).map ShapeOf.fullPath).Nodup :=
        fun outer houter => h.nodup_fields houter (ih outer houter)
      rw [allShapes_eq, List.map_append, List.map_flatMap]
      refine List.nodup_append.2 ⟨?_, List.nodup_flatMap.2 ⟨hfields, ?_⟩, ?_⟩
      · refine List.pairwise_map.2 (h.pairwise_typeSet.imp_of_mem ?_)
        intro shape other hshape hother hne heq
        rw [h.fullPath_eq hshape, h.fullPath_eq hother] at heq
        exact hne (congrArg Path.Element.typeSet (Path.append_inj heq).2)
      · refine h.pairwise_typeSet.imp_of_mem ?_
        intro shape other hshape hother hne inner hinner hinner'
        obtain ⟨element, hthrough⟩ := h.through_fields hshape hinner
        obtain ⟨element', hthrough'⟩ := h.through_fields hother hinner'
        rw [h.fullPath_eq hshape] at hthrough
        rw [h.fullPath_eq hother] at hthrough'
        exact hne (congrArg Path.Element.typeSet (hthrough.of_append.unique hthrough'.of_append))
      · -- a shape further down has a longer path
        intro own hown inner hinner
        obtain ⟨shape, hshape, rfl⟩ := List.mem_map.1 hown
        obtain ⟨outer, houter, hinner⟩ := List.mem_flatMap.1 hinner
        obtain ⟨element, hthrough⟩ := h.through_fields houter hinner
        rw [h.fullPath_eq houter] at hthrough
        rw [h.fullPath_eq hshape]
        exact (hthrough.ne_append _).symm

/-- The shapes of the fields of a shape stand at its path. -/
theorem path_eq_of_nested (h : top.Placed path) {outer inner : Shape}
    (houter : outer ∈ top.allShapes) (hfield : field ∈ outer.fields)
    (hinner : inner ∈ field.shapes) : inner.path = outer.fullPath := by
  obtain ⟨around, haround, houter⟩ := mem_allShapes.1 houter
  obtain ⟨_, hplaced⟩ := h.of_mem_all haround
  exact (hplaced.sub houter hfield).shape_path hinner

theorem root_of_mem_allShapes (h : top.Placed path) {shape : Shape}
    (hshape : shape ∈ top.allShapes) :
    shape.fullPath.fileName = path.fileName ∧ shape.fullPath.root = path.root := by
  obtain ⟨element, hthrough, -⟩ := h.through shape hshape
  exact ⟨hthrough.fileName_eq, hthrough.root_eq⟩

end Placed

/-- No two shapes of several trees have the same path, if the trees stand at different names or
roots. -/
theorem nodup_fullPaths_of_placed {α : Type} {tops : List α} {tree : α → Field} {root : α → Path}
    (hplaced : ∀ top ∈ tops, (tree top).Placed (root top))
    (hapart : tops.Pairwise fun top other =>
      (root top).fileName ≠ (root other).fileName ∨ (root top).root ≠ (root other).root) :
    ((tops.flatMap fun top => (tree top).allShapes).map ShapeOf.fullPath).Nodup := by
  rw [List.map_flatMap]
  refine List.nodup_flatMap.2
    ⟨fun top htop => (hplaced top htop).nodup_fullPaths, hapart.imp_of_mem ?_⟩
  intro top other htop hother hne path hpath hpath'
  obtain ⟨shape, hshape, rfl⟩ := List.mem_map.1 hpath
  obtain ⟨shape', hshape', hsame⟩ := List.mem_map.1 hpath'
  obtain ⟨hname, hroot⟩ := (hplaced top htop).root_of_mem_allShapes hshape
  obtain ⟨hname', hroot'⟩ := (hplaced other hother).root_of_mem_allShapes hshape'
  rw [hsame] at hname' hroot'
  rcases hne with hne | hne
  · exact hne (hname.symm.trans hname')
  · exact hne (hroot.symm.trans hroot')

end Field

/-! ## Built trees -/

/-- A built tree stands at the path of its request. -/
theorem Builder.Fills.placed {builder : Builder} {request : Request} {field : Field}
    (h : builder.Fills request field) : field.Placed request.path := by
  induction field using Field.induction generalizing request with
  | h field ih =>
      obtain ⟨conditions, hlevel⟩ := h.built.level
      refine .intro (fun shape hshape => ?_) hlevel.nodup_typeSets (fun shape hshape => ?_)
        fun shape hshape sub hsub => ?_
      · obtain ⟨earlier, later, collected, hsplit, hfrom⟩ := hlevel.exists_shapeFrom hshape
        exact ⟨hfrom.path, hfrom.responseName.trans h.responseName⟩
      · obtain ⟨earlier, later, collected, hsplit, hfrom⟩ := hlevel.exists_shapeFrom hshape
        obtain ⟨pieces, -, hgroups⟩ := hfrom.groups
        rw [hfrom.map_responseName]
        exact hgroups.nodup_names
      · obtain ⟨earlier, later, collected, hsplit, hfrom⟩ := hlevel.exists_shapeFrom hshape
        obtain ⟨entry, hentry, hname, hsubfrom⟩ := hfrom.exists_entry hsub
        cases hcomposite : sub.type.leaf.isComposite with
        | false => exact Field.placed_of_shapes_eq_nil _ (hsubfrom.leaf hcomposite)
        | true => exact ih shape hshape sub hsub (hsubfrom.fills hname hcomposite)

end ResponseModel

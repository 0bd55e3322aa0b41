import ResponseModel.Proofs.Dependencies
import ResponseModel.Proofs.Refinement

/-!
# The trees of a model

What is known of the tree of an operation or a fragment, once fragments do not spread themselves
(`Linked.TreeFrom`): it was built after the fragments that its selections spread, and these were
built from the very selections that the spreads carry.

The selection sets that are merged at a field come from the selections at the top, by collecting
once for every shape on the way (`Gathers`).  Every field of a tree has them (`exists_gathers`), and
the shapes of the field were built from them (`Gathers.exists_request`).  All that one shape was
made from is put together in a `Making`.
-/

namespace ResponseModel

namespace Linked

/-! ## Trees and the fragments before them -/

/-- Every fragment that is spread in the selections was built before, from the type and the
selections that the spread carries. -/
def SpreadsBuilt (schema : Schema) (before : List (Name × FragmentModel))
    (selections : List Resolved) : Prop :=
  ∀ name directives type below,
    .spread name directives type below ∈ Resolved.nodesAll selections →
    ∃ model earlier, before.lookup name = some model ∧ earlier <+: before ∧
      (builderAfter schema earlier).DataFieldFrom type below (.atRoot name .fragment)
        model.dataField

/-- `data` is the top of a tree of the model, built at `root` from selections on a type, after the
fragments in `before`. -/
structure TreeFrom (schema : Schema) (model : Model) (before : List (Name × FragmentModel))
    (root : Path) (type : Name) (selections : List Resolved) (data : Field) : Prop where
  dataFrom : (builderAfter schema before).DataFieldFrom type selections root data
  placement : Builder.Placement before root data
  shapesAt : ∀ around, Builder.Known before data around → ∀ shape ∈ around.shapes,
    model.shapesAt data.allShapes shape.fullPath.toInterface = [shape]
  fragments : ∀ entry ∈ before, entry.2 ∈ model.fragments ∧ entry.2.name = entry.1
  spreads : SpreadsBuilt schema before selections
  fields : ∀ parent node definition below,
    .field parent node definition below ∈ Resolved.nodesAll selections →
    schema.field? parent node.name = some definition

variable {options : Options} {schema : Schema} {documents accompanying : List Document}
  {linked : Linked} {config : Config} {model : Model} {order : List Name}
  {built : List (Name × FragmentModel)}

theorem SpreadsBuilt.of_subset {before : List (Name × FragmentModel)}
    {selections part : List Resolved} (h : SpreadsBuilt schema before selections)
    (hsub : Resolved.nodesAll part ⊆ Resolved.nodesAll selections) :
    SpreadsBuilt schema before part :=
  fun name directives type below hnode => h name directives type below (hsub hnode)

section Parts

variable (hfrom : LinkedFrom schema documents accompanying linked)
  (hparts : linked.BuildFrom order built model)
include hfrom hparts

/-- If the spreads of the selections are sound and the fragments that they name were built, these
were built from what the spreads carry. -/
theorem BuildFrom.spreadsBuilt {before after : List (Name × FragmentModel)}
    {selections : List Resolved} (hsplit : built = before ++ after)
    (hsound : ∀ node ∈ Resolved.nodesAll selections, linked.Sound node)
    (hbefore : ∀ name directives type below,
      .spread name directives type below ∈ Resolved.nodesAll selections →
      ∃ entry ∈ before, entry.1 = name) : SpreadsBuilt schema before selections := by
  intro name directives type below hnode
  obtain ⟨model, hmodel⟩ :=
    exists_lookup_of_exists_mem (hbefore name directives type below hnode)
  obtain ⟨fragment, hlookup, rfl, rfl⟩ := hsound _ hnode
  obtain ⟨earlier, later, rfl⟩ := List.append_of_mem (mem_of_lookup_eq_some hmodel)
  obtain ⟨fragment', hlookup', -, hdata⟩ :=
    hparts.fragment_split (hsplit.trans (List.append_assoc ..))
  obtain rfl := Option.some.inj (hlookup.symm.trans hlookup')
  rw [hfrom.name_eq hlookup, hfrom.schema_eq] at hdata
  exact ⟨model, earlier, hmodel, List.prefix_append _ _, hdata⟩

theorem BuildFrom.mem_fragments_of_mem_built {entry : Name × FragmentModel}
    (hentry : entry ∈ built) : entry.2 ∈ model.fragments ∧ entry.2.name = entry.1 :=
  ⟨hparts.mem_fragments hentry, hparts.name_eq hfrom hentry⟩

end Parts

/-- Every tree of a model was built after the fragments that it spreads. -/
theorem exists_treeFrom (hlink : ofDocuments options schema documents accompanying = .ok linked)
    (hbuild : (linked.build config).result = .ok model) (hacyclic : linked.library.Acyclic)
    {selections : List Resolved} {data : Field} (htop : linked.IsTop model selections data) :
    ∃ before root type, TreeFrom schema model before root type selections data := by
  have hfrom := linkedFrom hlink
  obtain ⟨order, built, hparts⟩ := buildFrom_of_result hbuild
  have hfields : ∀ {selections}, (∀ node ∈ Resolved.nodesAll selections, linked.Sound node) →
      ∀ parent node definition below,
        .field parent node definition below ∈ Resolved.nodesAll selections →
        schema.field? parent node.name = some definition :=
    fun hsound parent node definition below hnode => hfrom.schema_eq ▸ hsound _ hnode
  cases htop with
  | @operation operation operationModel hzip =>
      have hoperation := (List.of_mem_zip hzip).1
      have hresult := (List.forall₂_iff_zip.1 hparts.operations).2 hzip
      have hsound := hfrom.sound_of_mem_nodes hacyclic
        (hfrom.resolution_operation hacyclic hoperation)
      have hdata := (operationModel_result hresult).2
      rw [hfrom.schema_eq] at hdata
      refine ⟨built, _, _, hdata, hparts.placement_operation hresult,
        fun around hknown shape hshape => hparts.shapesAt_operation hfrom hresult hknown hshape,
        fun entry hentry => hparts.mem_fragments_of_mem_built hfrom hentry,
        hparts.spreadsBuilt hfrom (List.append_nil _).symm hsound
          fun name directives type below hnode =>
            hparts.exists_built_operation hfrom hacyclic hoperation hnode,
        hfields hsound⟩
  | @fragment fragment fragmentModel hmem hlookup =>
      obtain ⟨name, before, after, hsplit⟩ := hparts.exists_built hmem
      obtain ⟨fragment', hlookup', hname, hdata⟩ := hparts.fragment_split hsplit
      have hself : fragmentModel.name = name := hname.trans (hfrom.name_eq hlookup')
      rw [hself, hlookup'] at hlookup
      obtain rfl := Option.some.inj hlookup
      rw [← hname, hfrom.schema_eq] at hdata
      have hsound := hfrom.sound_of_mem_nodes hacyclic
        (hfrom.resolution_fragment hacyclic hlookup')
      refine ⟨before, _, _, hdata, hparts.placement_fragment hfrom hsplit,
        fun around hknown shape hshape =>
          hparts.shapesAt_fragment hfrom hsplit hknown hshape _,
        fun entry hentry => hparts.mem_fragments_of_mem_built hfrom ?_,
        hparts.spreadsBuilt hfrom hsplit hsound fun name directives type below hnode =>
          hparts.exists_before_fragment hfrom hacyclic hsplit hlookup' hnode,
        hfields hsound⟩
      rw [hsplit]
      exact List.mem_append_left _ hentry

end Linked

/-! ## The selection sets at a field -/

/-- `branches` are the selection sets that are merged at the field, in a tree that holds the given
selections at its top: those below all occurrences of the field that are collected for the shape
around it. -/
inductive Gathers (schema : Schema) (selections : List Resolved) (data : Field) :
    List Branch → Field → Prop
  | top : Gathers schema selections data [(selections, .always)] data
  | step {branches : List Branch} {field sub : Field} {shape : Shape} {collected : Collected}
      {entry : Name × Merged} :
      Gathers schema selections data branches field → shape ∈ field.shapes →
      collect (schema.applies shape.typeSet shape.possibleTypes) branches = .ok collected →
      entry ∈ collected.fields → sub ∈ shape.fields → sub.responseName = entry.1 →
      Gathers schema selections data (entry.2.occurrences.map fun o => (o.selections, o.condition))
        sub

/-- What is selected below a collected field is part of what the selection sets are part of. -/
theorem nodesAll_subset_of_collect {applies : Name → Bool} {branches : List Branch}
    {collected : Collected} {selections : List Resolved}
    (h : collect applies branches = .ok collected)
    (hsub : ∀ part ∈ branches.map Prod.fst, Resolved.nodesAll part ⊆ Resolved.nodesAll selections)
    {entry : Name × Merged} (hentry : entry ∈ collected.fields) :
    ∀ part ∈ (entry.2.occurrences.map fun o => (o.selections, o.condition)).map Prod.fst,
      Resolved.nodesAll part ⊆ Resolved.nodesAll selections := by
  intro part hpart
  obtain ⟨branch, hbranch, rfl⟩ := List.mem_map.1 hpart
  obtain ⟨o, ho, rfl⟩ := List.mem_map.1 hbranch
  obtain ⟨around, haround, -, hnodes⟩ := exists_selections_of_collect h hentry ho
  exact List.Subset.trans hnodes (hsub around haround)

/-- The selection sets at a field are part of the selections at the top. -/
theorem Gathers.nodesAll_subset {schema : Schema} {selections : List Resolved} {data field : Field}
    {branches : List Branch} (h : Gathers schema selections data branches field) :
    ∀ part ∈ branches.map Prod.fst, Resolved.nodesAll part ⊆ Resolved.nodesAll selections := by
  induction h with
  | top => exact List.forall_mem_singleton.2 (List.Subset.refl _)
  | step _ _ hcollect hentry _ _ ih => exact nodesAll_subset_of_collect hcollect ih hentry

section Built

variable {builder : Builder} {type : Name} {selections : List Resolved} {root : Path} {data : Field}

theorem Builder.ShapeFrom.entry_unique {Below : Request → List Shape → Prop} {request : Request}
    {earlier : List Shape} {collected : Collected} {shape : Shape}
    (h : builder.ShapeFrom Below request earlier collected shape) {entry other : Name × Merged}
    (hentry : entry ∈ collected.fields) (hother : other ∈ collected.fields)
    (heq : entry.1 = other.1) : entry = other := by
  obtain ⟨pieces, -, hgroups⟩ := h.groups
  exact List.inj_on_of_nodup_map hgroups.nodup_names hentry hother heq

/-- The shapes of a field were built from the selection sets that are merged at it.  What passes
from a request to those below it holds of the request of the field. -/
theorem Gathers.exists_request {Q : Request → Prop}
    (hdata : builder.DataFieldFrom type selections root data)
    (hQ : Q (Builder.rootRequest type selections root))
    (hstep : ∀ request field earlier shape later collected entry, field ∈ data.all →
      builder.Fills request field → Q request → field.shapes = earlier ++ shape :: later →
      builder.ShapeFrom builder.Built request earlier collected shape → entry ∈ collected.fields →
      Q (builder.requestBelow shape.fullPath (builder.parents request earlier shape collected)
        entry))
    {branches : List Branch} {field : Field}
    (h : Gathers builder.schema selections data branches field) :
    field ∈ data.all ∧ (field.shapes = [] ∨
      ∃ request, request.branches = branches ∧ builder.Fills request field ∧ Q request) := by
  induction h with
  | top => exact ⟨data.self_mem_all, .inr ⟨_, rfl, hdata.fills, hQ⟩⟩
  | @step branches field sub shape collected entry _ hshape hcollect hentry hsub hname ih =>
      obtain ⟨hfield, hfills⟩ := ih
      refine ⟨Field.mem_all_of_mem_fields hfield hshape hsub, ?_⟩
      rcases hfills with hnone | ⟨request, rfl, hfills, hQ⟩
      · rw [hnone] at hshape
        exact absurd hshape List.not_mem_nil
      obtain ⟨conditions, hlevel⟩ := hfills.built.level
      obtain ⟨earlier, later, collected', hsplit, hfrom⟩ := hlevel.exists_shapeFrom hshape
      obtain rfl := Except.ok.inj (hcollect.symm.trans hfrom.collects)
      obtain ⟨entry', hentry', hname', hsubfrom⟩ := hfrom.exists_entry hsub
      obtain rfl := hfrom.entry_unique hentry hentry' (hname.symm.trans hname'.symm)
      cases hcomposite : sub.type.leaf.isComposite with
      | false => exact .inl (hsubfrom.leaf hcomposite)
      | true =>
          exact .inr ⟨_, rfl, hsubfrom.fills hname' hcomposite, hstep request field earlier shape
            later collected entry hfield hfills hQ hsplit hfrom hentry⟩

/-- Every field of a built tree has selection sets that are merged at it. -/
theorem Builder.DataFieldFrom.exists_gathers
    (hdata : builder.DataFieldFrom type selections root data) :
    ∀ field ∈ data.all, ∃ branches, Gathers builder.schema selections data branches field := by
  refine Field.forall_mem_all ⟨_, .top⟩ fun field ⟨branches, hgathers⟩ shape hshape sub hsub => ?_
  obtain ⟨-, hnone | ⟨request, rfl, hfills, -⟩⟩ := hgathers.exists_request
    (Q := fun _ => True) hdata trivial fun _ _ _ _ _ _ _ _ _ _ _ _ _ => trivial
  · rw [hnone] at hshape
    exact absurd hshape List.not_mem_nil
  obtain ⟨conditions, hlevel⟩ := hfills.built.level
  obtain ⟨earlier, later, collected, hsplit, hfrom⟩ := hlevel.exists_shapeFrom hshape
  obtain ⟨entry, hentry, hname, -⟩ := hfrom.exists_entry hsub
  exact ⟨_, hgathers.step hshape hfrom.collects hentry hsub hname.symm⟩

end Built

namespace Linked

/-! ## How a shape was made -/

/-- All that a shape was made from: the fragments built before, the request for the shapes of its
field, the shapes of the field before and after it, and what was collected for it. -/
structure Making where
  before : List (Name × FragmentModel)
  request : Request
  field : Field
  earlier : List Shape
  shape : Shape
  later : List Shape
  collected : Collected

namespace Making

variable {schema : Schema} {making : Making}

/-- The shape was made in this way. -/
structure Valid (schema : Schema) (making : Making) : Prop where
  fills : (builderAfter schema making.before).Fills making.request making.field
  split : making.field.shapes = making.earlier ++ making.shape :: making.later
  shapeFrom : (builderAfter schema making.before).ShapeFrom
    (builderAfter schema making.before).Built making.request making.earlier making.collected
    making.shape

/-- The shapes that the shape could refine. -/
def candidates (schema : Schema) (making : Making) : List Shape :=
  (builderAfter schema making.before).candidates making.request making.earlier
    making.shape.typeSet making.collected.fragments

/-- The shapes that the shape refines. -/
def parents (schema : Schema) (making : Making) : List Shape :=
  (builderAfter schema making.before).parents making.request making.earlier making.shape
    making.collected

theorem Valid.mem_shapes (h : making.Valid schema) : making.shape ∈ making.field.shapes := by
  rw [h.split]
  simp

theorem Valid.mem_shapes_of_mem_earlier (h : making.Valid schema) {shape : Shape}
    (hshape : shape ∈ making.earlier) : shape ∈ making.field.shapes := by
  rw [h.split]
  exact List.mem_append_left _ hshape

theorem Valid.implements (h : making.Valid schema) :
    making.shape.implements = (making.parents schema).map (·.fullPath.toInterface) :=
  h.shapeFrom.implements

/-- Every shape of a field that was built was made in some way. -/
theorem exists_valid {before : List (Name × FragmentModel)} {request : Request} {field : Field}
    (hfills : (builderAfter schema before).Fills request field) {shape : Shape}
    (hshape : shape ∈ field.shapes) :
    ∃ making : Making, making.Valid schema ∧ making.before = before ∧ making.request = request ∧
      making.field = field ∧ making.shape = shape := by
  obtain ⟨conditions, hlevel⟩ := hfills.built.level
  obtain ⟨earlier, later, collected, hsplit, hfrom⟩ := hlevel.exists_shapeFrom hshape
  exact ⟨⟨before, request, field, earlier, shape, later, collected⟩, ⟨hfills, hsplit, hfrom⟩, rfl,
    rfl, rfl, rfl⟩

end Making

end Linked

end ResponseModel

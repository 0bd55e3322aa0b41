import ResponseModel.Proofs.SpreadFragments

/-!
# What shapes inherit

A shape and a shape that it refines were made at different times: the other one may be an earlier
shape of the same field, a shape of a fragment, or a shape of a field that was inherited.  Whichever
it is, what was collected for it is part of what is collected for the shape, and what it could
refine the shape could refine as well (`Making.Extends`).  An inherited field, in particular, was
built for a request that asked for less (`Grounded`), which passes from every request to those below
it (`Grounded.below`).

Main statements: `addresses_trans`, refinement is transitive; and `addresses_field`, it carries over
from two shapes to the shapes of a field of both, concrete type by concrete type.
-/

namespace ResponseModel

/-- One of the paths that the shape implements addresses the target: in the tree with the given top,
or in the tree of a fragment. -/
def Model.Addresses (model : Model) (data : Field) (shape target : Shape) : Prop :=
  ∃ path ∈ shape.implements, target ∈ model.shapesAt data.allShapes path

theorem Model.addresses_of_mem {model : Model} {data : Field} {shape target : Shape}
    (htarget : target ∈ data.allShapes)
    (h : target.fullPath.withRoot .operationInterface ∈ shape.implements) :
    model.Addresses data shape target :=
  ⟨_, h, List.mem_append_left _ (List.mem_filter.2 ⟨htarget, decide_eq_true rfl⟩)⟩

theorem TypeSet.StrictSubset.trans {first second third : TypeSet} (h : first.StrictSubset second)
    (h' : second.StrictSubset third) : first.StrictSubset third := by
  obtain ⟨hsub, -⟩ := h
  obtain ⟨hsub', name, hname, hnot⟩ := h'
  exact ⟨fun x hx => hsub' x (hsub x hx), name, hname, fun hmem => hnot (hsub name hmem)⟩

namespace Linked

/-! ## Shapes made from less -/

namespace Making

variable {schema : Schema} {making other : Making}

/-- The other shape was made from less: what was collected for it, and what it could refine, is part
of what the shape was made from. -/
structure Extends (schema : Schema) (making other : Making) : Prop where
  before : other.before <+: making.before
  includes : making.collected.Includes other.collected
  candidates : ∀ candidate ∈ other.candidates schema, candidate ∈ making.candidates schema

/-- Shapes of merged fragments are candidates after further fragments as well, and where more
fragments are merged. -/
theorem exists_lookup_after {before before' : List (Name × FragmentModel)}
    (hbefore : before' <+: before) {collected collected' : Collected}
    (hincludes : collected.Includes collected') {candidate : Shape}
    (h : ∃ name ∈ collected'.fragments, ∃ shapes,
      (builderAfter schema before').fragmentShapes.lookup name = some shapes ∧
        candidate ∈ shapes) :
    ∃ name ∈ collected.fragments, ∃ shapes,
      (builderAfter schema before).fragmentShapes.lookup name = some shapes ∧
        candidate ∈ shapes := by
  obtain ⟨name, hname, shapes, hlookup, hmem⟩ := h
  obtain ⟨model, hmodel, hshapes⟩ := lookup_fragmentShapes.1 hlookup
  obtain ⟨rest, rfl⟩ := hbefore
  refine ⟨name, hincludes.fragments name hname, shapes,
    lookup_fragmentShapes.2 ⟨model, ?_, hshapes⟩, hmem⟩
  rw [List.lookup_append, hmodel, Option.some_or]

/-! ## The three kinds of candidates -/

section Kinds

variable {parent : Shape} (hvalid : making.Valid schema)
  (hne : making.shape.possibleTypes ≠ [])
  (hsub : ∀ concrete ∈ making.shape.possibleTypes, concrete ∈ parent.possibleTypes)
include hvalid hne hsub

/-- A shape extends the earlier shapes of its field with smaller type sets. -/
theorem extends_earlier (hearlier : parent ∈ making.earlier)
    (hset : parent.typeSet ≠ making.shape.typeSet)
    (hnames : ∀ name ∈ parent.typeSet.names, name ∈ making.shape.typeSet.names) :
    ∃ other : Making, other.Valid schema ∧ other.shape = parent ∧
      making.Extends schema other := by
  obtain ⟨conditions, hlevel⟩ := hvalid.fills.built.level
  have hparent : parent ∈ making.field.shapes := hvalid.mem_shapes_of_mem_earlier hearlier
  have hincreasing : ∀ shape ∈ making.field.shapes, shape.typeSet.Increasing :=
    fun shape hshape => Schema.increasing_of_mem_typeSets (hlevel.mem_typeSets hshape)
  have hstrict : parent.typeSet.StrictSubset making.shape.typeSet :=
    TypeSet.strictSubset_of_ne (hincreasing parent hparent)
      (hincreasing _ hvalid.mem_shapes) hnames hset
  obtain ⟨earlier, later, collected, hsplit, hfrom⟩ := hlevel.exists_shapeFrom hparent
  have hincludes : making.collected.Includes collected :=
    includes_of_collect (hfrom.applies_of_subset hne hsub) (List.Subset.refl _) hfrom.collects
      hvalid.shapeFrom.collects
  let other : Making :=
    ⟨making.before, making.request, making.field, earlier, parent, later, collected⟩
  have hother : other.Valid schema := ⟨hvalid.fills, hsplit, hfrom⟩
  refine ⟨other, hother, rfl, List.prefix_refl _, hincludes, ?_⟩
  intro candidate hcandidate
  rcases Builder.mem_candidates.1 hcandidate with ⟨hmem, hne', hnames'⟩ | hfragment | hinherited
  · -- a smaller type set still is part of a larger one
    have hmem' : candidate ∈ making.field.shapes := hother.mem_shapes_of_mem_earlier hmem
    have hstrict' : candidate.typeSet.StrictSubset making.shape.typeSet :=
      (TypeSet.strictSubset_of_ne (hincreasing candidate hmem') (hincreasing parent hparent)
        hnames' hne').trans hstrict
    refine Builder.mem_candidates.2 (.inl ⟨?_, ?_, hstrict'.1⟩)
    · exact hlevel.mem_earlier hmem' hstrict' hvalid.split
    · intro heq
      obtain ⟨-, name, hname, hnot⟩ := hstrict'
      exact hnot (heq ▸ hname)
  · exact Builder.mem_candidates.2
      (.inr (.inl (exists_lookup_after (List.prefix_refl _) hincludes hfragment)))
  · exact Builder.mem_candidates.2 (.inr (.inr hinherited))

/-- A shape extends the shapes of the fragments merged into it. -/
theorem extends_fragment
    (hspreads : ∀ part ∈ making.request.branches.map Prod.fst,
      SpreadsBuilt schema making.before part)
    {name : Name} (hname : name ∈ making.collected.fragments) {model : FragmentModel}
    (hlookup : making.before.lookup name = some model) (hparent : parent ∈ model.dataField.shapes) :
    ∃ other : Making, other.Valid schema ∧ other.shape = parent ∧
      making.Extends schema other := by
  obtain ⟨type, below, hmerges⟩ := merges_of_mem_fragments hvalid.shapeFrom.collects hname
  obtain ⟨selections, hselections, directives, hnode⟩ := hmerges.spread
  obtain ⟨model', before, hlookup', hbefore, hdata⟩ :=
    hspreads selections hselections name directives type below hnode
  obtain rfl := Option.some.inj (hlookup.symm.trans hlookup')
  obtain ⟨conditions, hlevel⟩ := hdata.fills.built.level
  obtain ⟨earlier, later, collected, hsplit, hfrom⟩ := hlevel.exists_shapeFrom hparent
  have hincludes : making.collected.Includes collected :=
    hmerges.includes _ _ (hfrom.applies_of_subset hne hsub) hfrom.collects
  let other : Making := ⟨before, Builder.rootRequest type below (.atRoot name .fragment),
    model.dataField, earlier, parent, later, collected⟩
  have hother : other.Valid schema := ⟨hdata.fills, hsplit, hfrom⟩
  refine ⟨other, hother, rfl, hbefore, hincludes, ?_⟩
  intro candidate hcandidate
  rcases Builder.mem_candidates.1 hcandidate with ⟨hmem, -, -⟩ | hfragment | ⟨field, hfield, -⟩
  · have hmem' : candidate ∈ model.dataField.shapes := hother.mem_shapes_of_mem_earlier hmem
    exact Builder.mem_candidates.2 (.inr (.inl
      ⟨name, hname, _, lookup_fragmentShapes.2 ⟨model, hlookup, rfl⟩, hmem'⟩))
  · exact Builder.mem_candidates.2
      (.inr (.inl (exists_lookup_after hbefore hincludes hfragment)))
  · exact absurd hfield List.not_mem_nil

end Kinds

end Making

/-! ## Inherited fields -/

/-- A request asks for all that another one asked for, and inherits all that it inherited, after all
fragments that were built before it. -/
structure Exceeds (before : List (Name × FragmentModel)) (request : Request)
    (before' : List (Name × FragmentModel)) (request' : Request) : Prop where
  before : before' <+: before
  branches : request'.branches.map Prod.fst ⊆ request.branches.map Prod.fst
  inherited : request'.inherited ⊆ request.inherited

/-- What holds of every request in a tree with the given selections at its top: it asks for parts of
these selections, what it inherits stands elsewhere, and every field that it inherits either is a
leaf or was built for a request that asked for less. -/
structure Grounded (schema : Schema) (before : List (Name × FragmentModel))
    (selections : List Resolved) (data : Field) (request : Request) : Prop where
  nodes : ∀ part ∈ request.branches.map Prod.fst,
    Resolved.nodesAll part ⊆ Resolved.nodesAll selections
  inherits : Builder.Inherits before data request
  origins : ∀ field ∈ request.inherited,
    field.type.leaf.isComposite = false ∧ field.shapes = [] ∨
    ∃ before' request', (builderAfter schema before').Fills request' field ∧
      Exceeds before request before' request'

/-- A shape extends the shapes of inherited fields. -/
theorem Making.extends_inherited {schema : Schema} {making : Making} {parent : Shape}
    (hvalid : making.Valid schema) (hne : making.shape.possibleTypes ≠ [])
    (hsub : ∀ concrete ∈ making.shape.possibleTypes, concrete ∈ parent.possibleTypes)
    {field : Field} (hfield : field ∈ making.request.inherited) (hparent : parent ∈ field.shapes)
    {before : List (Name × FragmentModel)} {request : Request}
    (hfills : (builderAfter schema before).Fills request field)
    (hexceeds : Exceeds making.before making.request before request) :
    ∃ other : Making, other.Valid schema ∧ other.shape = parent ∧
      making.Extends schema other := by
  obtain ⟨conditions, hlevel⟩ := hfills.built.level
  obtain ⟨earlier, later, collected, hsplit, hfrom⟩ := hlevel.exists_shapeFrom hparent
  have hincludes : making.collected.Includes collected :=
    includes_of_collect (hfrom.applies_of_subset hne hsub) hexceeds.branches hfrom.collects
      hvalid.shapeFrom.collects
  let other : Making := ⟨before, request, field, earlier, parent, later, collected⟩
  have hother : other.Valid schema := ⟨hfills, hsplit, hfrom⟩
  refine ⟨other, hother, rfl, hexceeds.before, hincludes, ?_⟩
  intro candidate hcandidate
  rcases Builder.mem_candidates.1 hcandidate with
    ⟨hmem, -, -⟩ | hfragment | ⟨inherited, hinherited, hmem⟩
  · have hmem' : candidate ∈ field.shapes := hother.mem_shapes_of_mem_earlier hmem
    exact Builder.mem_candidates.2 (.inr (.inr ⟨field, hfield, hmem'⟩))
  · exact Builder.mem_candidates.2
      (.inr (.inl (exists_lookup_after hexceeds.before hincludes hfragment)))
  · exact Builder.mem_candidates.2
      (.inr (.inr ⟨inherited, hexceeds.inherited hinherited, hmem⟩))

/-! ## The makings in one tree -/

section Tree

variable {schema : Schema} {model : Model} {root : Path} {type : Name} {selections : List Resolved}
  {data : Field} {making : Making}
  (htree : TreeFrom schema model making.before root type selections data)
  (hvalid : making.Valid schema) (hfield : making.field ∈ data.all)
  (hgrounded : Grounded schema making.before selections data making.request)
include htree hvalid hfield hgrounded

/-- A candidate is the only shape at its path. -/
theorem Making.shapesAt_of_mem_candidates {candidate : Shape}
    (h : candidate ∈ making.candidates schema) :
    model.shapesAt data.allShapes candidate.fullPath.toInterface = [candidate] := by
  obtain ⟨⟨around, hknown, hmem⟩, -⟩ := Builder.known_of_mem_candidates htree.placement hfield
    hvalid.fills hgrounded.inherits hvalid.split hvalid.shapeFrom h
  exact htree.shapesAt around hknown candidate hmem

/-- The shapes that a shape addresses are those that it refines. -/
theorem Making.addresses_iff {target : Shape} :
    model.Addresses data making.shape target ↔ target ∈ making.parents schema := by
  rw [Model.Addresses, hvalid.implements]
  constructor
  · rintro ⟨path, hpath, htarget⟩
    obtain ⟨parent, hparent, rfl⟩ := List.mem_map.1 hpath
    rw [shapesAt_of_mem_candidates htree hvalid hfield hgrounded (Builder.mem_refined hparent).1,
      List.mem_singleton] at htarget
    exact htarget ▸ hparent
  · intro htarget
    refine ⟨_, List.mem_map_of_mem htarget, ?_⟩
    rw [shapesAt_of_mem_candidates htree hvalid hfield hgrounded (Builder.mem_refined htarget).1]
    exact List.mem_singleton_self target

variable (hne : making.shape.possibleTypes ≠ [])
include hne

omit hfield in
/-- A shape extends every shape that it refines. -/
theorem Making.exists_extends {parent : Shape} (hparent : parent ∈ making.parents schema) :
    ∃ other : Making, other.Valid schema ∧ other.shape = parent ∧
      making.Extends schema other := by
  obtain ⟨hcandidate, hrefines⟩ := Builder.mem_refined hparent
  have hsub := (Builder.refines_iff.1 hrefines).1
  rcases Builder.mem_candidates.1 hcandidate with ⟨hearlier, hset, hnames⟩ |
    ⟨name, hname, shapes, hlookup, hmem⟩ | ⟨field, hfield, hmem⟩
  · exact extends_earlier hvalid hne hsub hearlier hset hnames
  · obtain ⟨fragment, hfragment, rfl⟩ := lookup_fragmentShapes.1 hlookup
    exact extends_fragment hvalid hne hsub
      (fun part hpart => htree.spreads.of_subset (hgrounded.nodes part hpart)) hname hfragment hmem
  · rcases hgrounded.origins field hfield with ⟨-, hnone⟩ | ⟨before, request, hfills, hexceeds⟩
    · rw [hnone] at hmem
      exact absurd hmem List.not_mem_nil
    · exact extends_inherited hvalid hne hsub hfield hmem hfills hexceeds

omit hne in
/-- What is refined by a shape that a shape refines and extends, that shape refines. -/
theorem Making.parents_subset {other : Making} (hparent : other.shape ∈ making.parents schema)
    (hextends : making.Extends schema other) :
    other.parents schema ⊆ making.parents schema := by
  intro target htarget
  obtain ⟨hcandidate, hrefines⟩ := Builder.mem_refined htarget
  obtain ⟨hpossible, hnames⟩ := Builder.refines_iff.1 hrefines
  obtain ⟨hpossible', -⟩ := Builder.refines_iff.1 (Builder.mem_refined hparent).2
  have hmem := hextends.candidates target hcandidate
  have himplements : target.fullPath.toInterface ∈ making.shape.implements :=
    hvalid.shapeFrom.mem_implements hmem
      (fun concrete hconcrete => hpossible concrete (hpossible' concrete hconcrete))
      fun name hname => hextends.includes.mem_names name (hnames name hname)
  have haddresses : model.Addresses data making.shape target := by
    refine ⟨_, himplements, ?_⟩
    rw [shapesAt_of_mem_candidates htree hvalid hfield hgrounded hmem]
    exact List.mem_singleton_self target
  exact (addresses_iff htree hvalid hfield hgrounded).1 haddresses

/-- What holds of a request passes to the requests below it. -/
theorem Grounded.below {entry : Name × Merged} (hentry : entry ∈ making.collected.fields) :
    Grounded schema making.before selections data
      ((builderAfter schema making.before).requestBelow making.shape.fullPath
        (making.parents schema) entry) := by
  refine ⟨nodesAll_subset_of_collect hvalid.shapeFrom.collects hgrounded.nodes hentry,
    hgrounded.inherits.below htree.placement hfield hvalid.fills hvalid.split hvalid.shapeFrom
      entry, ?_⟩
  intro sub hsub
  obtain ⟨parent, hparent, hsub⟩ := List.mem_filterMap.1 hsub
  obtain ⟨other, hother, rfl, hextends⟩ :=
    Making.exists_extends htree hvalid hgrounded hne hparent
  obtain ⟨hmem, hname⟩ := ShapeOf.field?_eq_some hsub
  obtain ⟨entry', hentry', hname', hfrom⟩ := hother.shapeFrom.exists_entry hmem
  cases hcomposite : sub.type.leaf.isComposite with
  | false => exact .inl ⟨rfl, hfrom.leaf hcomposite⟩
  | true =>
      refine .inr ⟨_, _, hfrom.fills hname' hcomposite, hextends.before, ?_, ?_⟩
      · -- every occurrence of the inherited field is one of the field, up to conditions
        intro part hpart
        obtain ⟨branch, hbranch, rfl⟩ := List.mem_map.1 hpart
        obtain ⟨o, ho, rfl⟩ := List.mem_map.1 hbranch
        obtain ⟨found, hfound, hkey, hoccurrences⟩ := hextends.includes.fields entry' hentry'
        have hsame : found.1 = entry.1 := hkey.trans (hname'.trans hname)
        obtain rfl := hvalid.shapeFrom.entry_unique hfound hentry hsame
        obtain ⟨o', ho', hbare⟩ := hoccurrences o ho
        obtain ⟨-, -, -, hselections⟩ := Occurrence.bare_eq_bare.1 hbare
        exact List.mem_map.2 ⟨_, List.mem_map_of_mem ho', hselections⟩
      · show (other.parents schema).filterMap (·.field? entry'.1) ⊆
          (making.parents schema).filterMap (·.field? entry.1)
        rw [hname', hname]
        exact List.filterMap_subset _
          (Making.parents_subset htree hvalid hfield hgrounded hparent hextends)

end Tree

/-- In a tree all of whose shapes stand for some concrete type, every shape was made for a request
that is grounded in the tree. -/
theorem TreeFrom.exists_making {schema : Schema} {model : Model}
    {before : List (Name × FragmentModel)} {root : Path} {type : Name} {selections : List Resolved}
    {data : Field} (htree : TreeFrom schema model before root type selections data)
    (hinhabited : ∀ shape ∈ data.allShapes, shape.possibleTypes ≠ []) {shape : Shape}
    (hshape : shape ∈ data.allShapes) :
    ∃ making : Making, making.before = before ∧ making.shape = shape ∧ making.Valid schema ∧
      making.field ∈ data.all ∧ Grounded schema making.before selections data making.request ∧
      Gathers schema selections data making.request.branches making.field := by
  obtain ⟨field, hfield, hshape⟩ := Field.mem_allShapes.1 hshape
  obtain ⟨branches, hgathers⟩ := htree.dataFrom.exists_gathers field hfield
  have hroot : Grounded schema before selections data
      (Builder.rootRequest type selections root) :=
    ⟨List.forall_mem_singleton.2 (List.Subset.refl _),
      ⟨fun _ h => absurd h List.not_mem_nil, fun _ h => absurd h List.not_mem_nil⟩,
      fun _ h => absurd h List.not_mem_nil⟩
  obtain ⟨-, hnone | ⟨request, rfl, hfills, hgrounded⟩⟩ := hgathers.exists_request
    (Q := Grounded schema before selections data) htree.dataFrom hroot
    fun request field earlier shape later collected entry hfield hfills hgrounded hsplit hfrom
        hentry => by
      have hmem : shape ∈ data.allShapes := by
        refine Field.mem_allShapes.2 ⟨field, hfield, ?_⟩
        rw [hsplit]
        simp
      let making : Making := ⟨before, request, field, earlier, shape, later, collected⟩
      have hvalid : making.Valid schema := ⟨hfills, hsplit, hfrom⟩
      exact Grounded.below htree hvalid hfield hgrounded (hinhabited shape hmem) hentry
  · rw [hnone] at hshape
    exact absurd hshape List.not_mem_nil
  obtain ⟨making, hvalid, rfl, rfl, rfl, rfl⟩ := Making.exists_valid hfills hshape
  exact ⟨making, rfl, rfl, hvalid, hfield, hgrounded, hgathers⟩

end Linked

namespace Sample

theorem length_shapes_pet : pet.shapes.length = 3 := by decide +kernel

/-- The shapes of the pet: for all pets, for noisy ones and for cats. -/
def petShape (i : Fin 3) : Shape := pet.shapes.get (i.cast length_shapes_pet.symm)

theorem petShape_mem (i : Fin 3) : petShape i ∈ data.allShapes :=
  Field.mem_allShapes.2 ⟨pet, pet_mem, List.get_mem _ _⟩

theorem isSome_mate : ∀ i, ((petShape i).field? "mate").isSome = true := by decide +kernel

/-- The mate of the pet, in each of its shapes. -/
def mate (i : Fin 3) : Field := ((petShape i).field? "mate").get (isSome_mate i)

theorem inhabited : ∀ shape ∈ data.allShapes, shape.possibleTypes ≠ [] := by decide +kernel

end Sample

/-- **Refinement is transitive.**  Take any tree of a model whose fragments do not spread
themselves, and let every shape of the tree stand for some concrete type.  If a shape of the tree
addresses another shape, in the tree or in a fragment, and that one addresses a third, then the
first addresses the third. -/
theorem addresses_trans {options : Options} {schema : Schema}
    {documents accompanying : List Document}
    {linked : Linked} {config : Config} {model : Model}
    (hlink : Linked.ofDocuments options schema documents accompanying = .ok linked)
    (hbuild : (linked.build config).result = .ok model) (hacyclic : linked.library.Acyclic)
    {data : Field} (hdata : data ∈ model.dataFields)
    (hinhabited : ∀ shape ∈ data.allShapes, shape.possibleTypes ≠ []) {first second third : Shape}
    (hfirst : first ∈ data.allShapes) (hsecond : model.Addresses data first second)
    (hthird : model.Addresses data second third) : model.Addresses data first third := by
  obtain ⟨selections, htop⟩ := Linked.exists_isTop hlink hbuild hdata
  obtain ⟨before, root, type, htree⟩ := Linked.exists_treeFrom hlink hbuild hacyclic htop
  obtain ⟨making, rfl, rfl, hvalid, hfield, hgrounded, -⟩ :=
    htree.exists_making hinhabited hfirst
  have hparents : ∀ {target}, model.Addresses data making.shape target ↔
      target ∈ making.parents schema :=
    Linked.Making.addresses_iff htree hvalid hfield hgrounded
  have hparent := hparents.1 hsecond
  obtain ⟨other, hother, rfl, hextends⟩ :=
    Linked.Making.exists_extends htree hvalid hgrounded (hinhabited _ hfirst) hparent
  have hsubset :=
    Linked.Making.parents_subset htree hvalid hfield hgrounded hparent hextends
  -- the path of the third shape is that of a shape that the second refines
  obtain ⟨path, hpath, hmem⟩ := hthird
  rw [hother.implements] at hpath
  obtain ⟨target, htarget, rfl⟩ := List.mem_map.1 hpath
  rw [Linked.Making.shapesAt_of_mem_candidates htree hvalid hfield hgrounded
    (Builder.mem_refined (hsubset htarget)).1, List.mem_singleton] at hmem
  exact hparents.2 (hmem ▸ hsubset htarget)

theorem addresses_trans_cat :
    Sample.linked.library.Acyclic ∧ (∀ shape ∈ Sample.data.allShapes, shape.possibleTypes ≠ []) ∧
    Sample.model.Addresses Sample.data (Sample.petShape 2) (Sample.petShape 1) ∧
    Sample.model.Addresses Sample.data (Sample.petShape 1) (Sample.petShape 0) ∧
    Sample.model.Addresses Sample.data (Sample.petShape 2) (Sample.petShape 0) := by
  have hcat : Sample.model.Addresses Sample.data (Sample.petShape 2) (Sample.petShape 1) :=
    Model.addresses_of_mem (Sample.petShape_mem 1) (by decide +kernel)
  have hnoisy : Sample.model.Addresses Sample.data (Sample.petShape 1) (Sample.petShape 0) :=
    Model.addresses_of_mem (Sample.petShape_mem 0) (by decide +kernel)
  exact ⟨Sample.acyclic, Sample.inhabited, hcat, hnoisy,
    addresses_trans Sample.ofDocuments_eq Sample.build_eq Sample.acyclic Sample.data_mem
      Sample.inhabited (Sample.petShape_mem 2) hcat hnoisy⟩

/-- **Refinement carries over to fields.**  Take any tree of a model whose fragments do not spread
themselves, and let every shape of the tree stand for some concrete type.  If a shape of the tree
addresses another shape, and both have a composite field of the same name and with the same
innermost type, then for every concrete type that is possible for it the shape of that type in the
first field addresses the shape of that type in the second. -/
theorem addresses_field {options : Options} {schema : Schema}
    {documents accompanying : List Document}
    {linked : Linked} {config : Config} {model : Model}
    (hlink : Linked.ofDocuments options schema documents accompanying = .ok linked)
    (hbuild : (linked.build config).result = .ok model) (hacyclic : linked.library.Acyclic)
    {data : Field} (hdata : data ∈ model.dataFields)
    (hinhabited : ∀ shape ∈ data.allShapes, shape.possibleTypes ≠ []) {outer outer' : Shape}
    (houter : outer ∈ data.allShapes) (haddresses : model.Addresses data outer outer')
    {name : Name} {field field' : Field} (hfield : outer.field? name = some field)
    (hfield' : outer'.field? name = some field') (hcomposite : field.type.leaf.isComposite = true)
    (hcomposite' : field'.type.leaf.isComposite = true)
    (htype : field.type.leafName = field'.type.leafName) {concrete : Name}
    (hc : schema.Possible field.type.leafName concrete) :
    ∃ shape shape', field.concreteShape? concrete = some shape ∧
      field'.concreteShape? concrete = some shape' ∧ model.Addresses data shape shape' := by
  obtain ⟨selections, htop⟩ := Linked.exists_isTop hlink hbuild hdata
  obtain ⟨before, root, type, htree⟩ := Linked.exists_treeFrom hlink hbuild hacyclic htop
  obtain ⟨making, rfl, rfl, hvalid, haround, hgrounded, -⟩ :=
    htree.exists_making hinhabited houter
  have hparent := (Linked.Making.addresses_iff htree hvalid haround hgrounded).1 haddresses
  -- the first field was built for a request that inherits the second
  obtain ⟨hmem, hname⟩ := ShapeOf.field?_eq_some hfield
  obtain ⟨entry, hentry, hkey, hfrom⟩ := hvalid.shapeFrom.exists_entry hmem
  have hfills := hfrom.fills hkey hcomposite
  have hbelow := Linked.Grounded.below htree hvalid haround hgrounded (hinhabited _ houter) hentry
  have hinherited : field' ∈ (making.parents schema).filterMap (·.field? entry.1) := by
    rw [hkey, hname]
    exact List.mem_filterMap.2 ⟨outer', hparent, hfield'⟩
  obtain ⟨hleaf, -⟩ | ⟨before, request, hfills', hexceeds⟩ := hbelow.origins field' hinherited
  · rw [hcomposite'] at hleaf
    exact absurd hleaf.symm Bool.false_ne_true
  have htypes : request.fieldType = _ :=
    hfills'.fieldType.trans (htype.symm.trans hfills.fieldType.symm)
  rw [← hfills.fieldType] at hc
  obtain ⟨earlier, shape, later, collected, conditions, h⟩ :=
    Linked.Making.exists_concrete hfills hc
  obtain ⟨earlier', shape', later', collected', conditions', h'⟩ :=
    Linked.Making.exists_concrete hfills' (htypes ▸ hc)
  have hshape' : shape' ∈ field'.shapes := h'.valid.mem_shapes
  refine ⟨shape, shape', h.concreteShape, h'.concreteShape, shape'.fullPath.toInterface, ?_, ?_⟩
  · refine h.mem_implements h' (.inl htypes)
      (branchConditions_subset hexceeds.branches h'.level.conditionsOf h.level.conditionsOf)
      (Builder.mem_candidates.2 (.inr (.inr ⟨field', hinherited, hshape'⟩))) fun happlies => ?_
    exact includes_of_collect happlies hexceeds.branches h'.valid.shapeFrom.collects
      h.valid.shapeFrom.collects
  · rw [htree.shapesAt field' (hbelow.inherits.known field' hinherited) shape' hshape']
    exact List.mem_singleton_self shape'

theorem addresses_field_mate :
    Sample.linked.library.Acyclic ∧ (∀ shape ∈ Sample.data.allShapes, shape.possibleTypes ≠ []) ∧
    Sample.model.Addresses Sample.data (Sample.petShape 2) (Sample.petShape 0) ∧
    (Sample.petShape 2).field? "mate" = some (Sample.mate 2) ∧
    (Sample.petShape 0).field? "mate" = some (Sample.mate 0) ∧
    (Sample.mate 2).type.leaf.isComposite = true ∧ (Sample.mate 0).type.leaf.isComposite = true ∧
    (Sample.mate 2).type.leafName = (Sample.mate 0).type.leafName ∧
    Sample.schema.Possible (Sample.mate 2).type.leafName "Cat" ∧
    ∃ shape shape', (Sample.mate 2).concreteShape? "Cat" = some shape ∧
      (Sample.mate 0).concreteShape? "Cat" = some shape' ∧
      Sample.model.Addresses Sample.data shape shape' := by
  have haddresses : Sample.model.Addresses Sample.data (Sample.petShape 2) (Sample.petShape 0) :=
    Model.addresses_of_mem (Sample.petShape_mem 0) (by decide +kernel)
  have hmate : ∀ i, (Sample.petShape i).field? "mate" = some (Sample.mate i) :=
    fun i => (Option.some_get (Sample.isSome_mate i)).symm
  have hcomposite : ∀ i, (Sample.mate i).type.leaf.isComposite = true := by decide +kernel
  have htype : (Sample.mate 2).type.leafName = (Sample.mate 0).type.leafName := by decide +kernel
  have hcat : Sample.schema.Possible (Sample.mate 2).type.leafName "Cat" := by decide +kernel
  exact ⟨Sample.acyclic, Sample.inhabited, haddresses, hmate 2, hmate 0, hcomposite 2, hcomposite 0,
    htype, hcat,
    addresses_field Sample.ofDocuments_eq Sample.build_eq Sample.acyclic Sample.data_mem
      Sample.inhabited (Sample.petShape_mem 2) haddresses (hmate 2) (hmate 0) (hcomposite 2)
      (hcomposite 0) htype hcat⟩

end ResponseModel

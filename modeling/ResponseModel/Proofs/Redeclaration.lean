import ResponseModel.Proofs.Inheritance

/-!
# Fields that are declared again

In a schema whose types keep the promises of their interfaces (`Schema.Covariant`) a field of a type
is at most as wide as the field of the same name in an interface that the type declares.  A merged
field takes its definition from the occurrence whose parent has the fewest possible types
(`Builder.narrowest`).  Where that parent declares the parents of the other occurrences, the
definition is the narrowest one, and a field never is wider than the field of the same name in a
shape that the shape around it refines: `possible_of_addresses`.

The number of possible types alone does not tell which of two interfaces is the narrower one,
though.  An interface that few types declare may give a field a type that is wider than, or
unrelated to, the one that another interface gives it: `guest_wider`.
-/

namespace ResponseModel

/-! ## Covariant schemas -/

namespace Schema

/-- The type is at least as strict as another one: it has the same lists, forbids null wherever the
other one does, and all possible types of its innermost name are possible for that of the other. -/
def Narrows (schema : Schema) : TypeRef → TypeRef → Prop
  | .named name required, .named name' required' =>
      (required' = true → required = true) ∧
        ∀ concrete ∈ schema.possibleTypes name, concrete ∈ schema.possibleTypes name'
  | .list item required, .list item' required' =>
      (required' = true → required = true) ∧ schema.Narrows item item'
  | _, _ => False

instance decidableNarrows (schema : Schema) :
    ∀ type type' : TypeRef, Decidable (schema.Narrows type type')
  | .named .., .named .. => inferInstanceAs (Decidable (_ ∧ _))
  | .list item _, .list item' _ =>
      have := decidableNarrows schema item item'
      inferInstanceAs (Decidable (_ ∧ schema.Narrows item item'))
  | .named .., .list .. => inferInstanceAs (Decidable False)
  | .list .., .named .. => inferInstanceAs (Decidable False)

theorem Narrows.possible {schema : Schema} {type type' : TypeRef} (h : schema.Narrows type type')
    {concrete : Name} (hc : schema.Possible type.innerName concrete) :
    schema.Possible type'.innerName concrete := by
  induction type generalizing type' with
  | named name required =>
      cases type' with
      | named name' required' => exact mem_possibleTypes.1 (h.2 concrete (mem_possibleTypes.2 hc))
      | list item' required' => exact h.elim
  | list item required ih =>
      cases type' with
      | named name' required' => exact h.elim
      | list item' required' =>
          have hitem : schema.Possible item'.innerName concrete := ih h.2 hc
          exact hitem

/-- The interfaces that a declaration lists. -/
def declaredInterfaces : TypeBody → List Name
  | .object interfaces _ => interfaces
  | .interface interfaces _ => interfaces
  | _ => []

/-- The interfaces that a type declares. -/
def interfacesOf (schema : Schema) (name : Name) : List Name :=
  ((schema.type? name).map fun definition => declaredInterfaces definition.body).getD []

/-- Each field of a type is at least as strict as the field of the same name in every interface that
the type declares. -/
def Covariant (schema : Schema) : Prop :=
  ∀ declaration ∈ schema.allTypes, ∀ interface ∈ declaredInterfaces declaration.body,
    ∀ field ∈
        declaredFields declaration.body ++ schema.metaFields declaration.name declaration.body,
      ∀ field' ∈ schema.field? interface field.name, schema.Narrows field.type field'.type

instance (schema : Schema) : Decidable schema.Covariant :=
  inferInstanceAs (Decidable (∀ declaration ∈ schema.allTypes, _))

theorem Covariant.narrows {schema : Schema} (h : schema.Covariant) {type interface name : Name}
    (hinterface : interface ∈ schema.interfacesOf type) {definition definition' : FieldDefinition}
    (hdefinition : schema.field? type name = some definition)
    (hdefinition' : schema.field? interface name = some definition') :
    schema.Narrows definition.type definition'.type := by
  cases htype : schema.type? type with
  | none => simp [interfacesOf, htype] at hinterface
  | some declaration =>
      have hmem : declaration ∈ schema.allTypes := List.mem_of_find?_eq_some htype
      have hname : declaration.name = type := by simpa using List.find?_some htype
      rw [interfacesOf, htype] at hinterface
      rw [field?, body?, htype] at hdefinition
      have hfield := List.mem_of_find?_eq_some hdefinition
      have hsame : definition.name = name := by simpa using List.find?_some hdefinition
      rw [← hname] at hfield
      refine h declaration hmem interface hinterface definition hfield definition' ?_
      rw [hsame]
      exact hdefinition'

/-- If the type does not have more possible types than the other one, it is that type or declares
it. -/
def Nested (schema : Schema) (type other : Name) : Prop :=
  (schema.possibleTypes type).length ≤ (schema.possibleTypes other).length →
    type = other ∨ other ∈ schema.interfacesOf type

instance (schema : Schema) (type other : Name) : Decidable (schema.Nested type other) :=
  inferInstanceAs (Decidable (_ → _))

/-- Of two fields of the same name in nested types, the one in the type with fewer possible types is
the narrower one. -/
theorem Covariant.possible_of_nested {schema : Schema} (h : schema.Covariant)
    {type other name : Name} (hnested : schema.Nested type other)
    (hle : (schema.possibleTypes type).length ≤ (schema.possibleTypes other).length)
    {definition definition' : FieldDefinition}
    (hdefinition : schema.field? type name = some definition)
    (hdefinition' : schema.field? other name = some definition') {concrete : Name}
    (hc : schema.Possible definition.type.innerName concrete) :
    schema.Possible definition'.type.innerName concrete := by
  rcases hnested hle with rfl | hinterface
  · obtain rfl := Option.some.inj (hdefinition.symm.trans hdefinition')
    exact hc
  · exact (h.narrows hinterface hdefinition hdefinition').possible hc

end Schema

/-! ## Merged selections -/

/-- Any two selections that are merged under one response name, anywhere in a tree with the given
selections at its top, are related. -/
def ForallMerged (schema : Schema) (selections : List Resolved) (data : Field)
    (R : Occurrence → Occurrence → Prop) : Prop :=
  ∀ branches field shape collected entry, Gathers schema selections data branches field →
    shape ∈ field.shapes →
    collect (schema.applies shape.typeSet shape.possibleTypes) branches = .ok collected →
    entry ∈ collected.fields →
    ∀ o ∈ entry.2.occurrences, ∀ o' ∈ entry.2.occurrences, R o o'

/-- All fields in a selection set, at any depth, whatever the conditions that lead to them. -/
def Resolved.fieldsAll (selections : List Resolved) : List Occurrence :=
  (nodesAll selections).filterMap fun
    | .field parent node definition below => some ⟨parent, node, definition, below, .always⟩
    | _ => none

/-- It is enough to look at all fields of one response name in the selections. -/
theorem forallMerged_of_fieldsAll {schema : Schema} {selections : List Resolved} {data : Field}
    {R : Occurrence → Occurrence → Prop}
    (h : ∀ o ∈ Resolved.fieldsAll selections, ∀ o' ∈ Resolved.fieldsAll selections,
      o.responseName = o'.responseName → R o o') :
    ForallMerged schema selections data fun o o' => R o.bare o'.bare := by
  intro branches field shape collected entry hgathers _ hcollect hentry o ho o' ho'
  have hfields : ∀ o ∈ entry.2.occurrences, o.bare ∈ Resolved.fieldsAll selections ∧
      o.bare.responseName = entry.1 := by
    intro o ho
    obtain ⟨part, hpart, hnode, -⟩ := exists_selections_of_collect hcollect hentry ho
    obtain ⟨pieces, -, rfl⟩ := collect_eq_ok.1 hcollect
    refine ⟨List.mem_filterMap.2 ⟨_, hgathers.nodesAll_subset part hpart hnode, rfl⟩, ?_⟩
    exact ((groups_ofFlat pieces).mem_of_mem_occurrences hentry ho).2
  obtain ⟨hmem, hname⟩ := hfields o ho
  obtain ⟨hmem', hname'⟩ := hfields o' ho'
  exact h _ hmem _ hmem' (hname.trans hname'.symm)

/-! ## The definitions of a field and of an inherited one -/

namespace Linked.Making

variable {schema : Schema} {making other : Making}

/-- The definition of a collected field is the one that the schema gives it. -/
theorem field?_eq_some {model : Model} {root : Path} {type : Name} {selections : List Resolved}
    {data : Field} (htree : TreeFrom schema model making.before root type selections data)
    (hvalid : making.Valid schema)
    (hgrounded : Grounded schema making.before selections data making.request)
    {entry : Name × Merged} (hentry : entry ∈ making.collected.fields) :
    ∀ o ∈ entry.2.occurrences, schema.field? o.parent o.node.name = some o.definition := by
  intro o ho
  obtain ⟨part, hpart, hnode, -⟩ :=
    exists_selections_of_collect hvalid.shapeFrom.collects hentry ho
  exact htree.fields _ _ _ _ (hgrounded.nodes part hpart hnode)

/-- The field of a shape, and the field of the same name in a shape that it extends, have the types
of two selections that were merged for the first shape.  No other parent has fewer possible types
than that of the first selection. -/
theorem Extends.exists_definitions (hextends : making.Extends schema other)
    (hvalid : making.Valid schema) (hother : other.Valid schema) {name : Name}
    {field field' : Field}
    (hfield : making.shape.field? name = some field)
    (hfield' : other.shape.field? name = some field') :
    ∃ entry ∈ making.collected.fields, ∃ first ∈ entry.2.occurrences,
      ∃ second ∈ entry.2.occurrences,
        field.type.leafName = first.definition.type.innerName ∧
        field'.type.leafName = second.definition.type.innerName ∧
        (schema.possibleTypes first.parent).length ≤
          (schema.possibleTypes second.parent).length := by
  obtain ⟨hmem, hname⟩ := ShapeOf.field?_eq_some hfield
  obtain ⟨hmem', hname'⟩ := ShapeOf.field?_eq_some hfield'
  obtain ⟨entry, hentry, hkey, hfrom⟩ := hvalid.shapeFrom.exists_entry hmem
  obtain ⟨entry', hentry', hkey', hfrom'⟩ := hother.shapeFrom.exists_entry hmem'
  obtain ⟨found, hfound, hsame, hoccurrences⟩ := hextends.includes.fields entry' hentry'
  obtain rfl := hvalid.shapeFrom.entry_unique hfound hentry
    (hsame.trans ((hkey'.trans hname').trans (hkey.trans hname).symm))
  -- the selection that gives the second field its type was merged for the first, too
  obtain ⟨second, hsecond, hbare⟩ := hoccurrences _ (Builder.narrowest_mem _ entry'.2)
  obtain ⟨-, -, hdefinition, -⟩ := Occurrence.bare_eq_bare.1 hbare
  refine ⟨found, hfound, _, Builder.narrowest_mem _ found.2, second, hsecond,
    Schema.leafName_of_modelType hfrom.type, ?_, Builder.narrowest_le _ found.2 second hsecond⟩
  rw [hdefinition]
  exact Schema.leafName_of_modelType hfrom'.type

end Linked.Making

/-- **Fields only narrow where the types that they are selected on are nested.**  Take a covariant
schema and any tree of a model whose fragments do not spread themselves, and let every shape of the
tree stand for some concrete type.  Let selections that are merged under one response name select
the same field and, if the field has possible types at all, let the one of their parents with fewer
possible types declare the other.  If a shape of the tree addresses another shape and both have a
field of the same response name, then all possible types of that field in the first shape are
possible types of the field in the second. -/
theorem possible_of_addresses {options : Options} {schema : Schema}
    {documents accompanying : List Document}
    {linked : Linked} {config : Config} {model : Model}
    (hlink : Linked.ofDocuments options schema documents accompanying = .ok linked)
    (hbuild : (linked.build config).result = .ok model) (hacyclic : linked.library.Acyclic)
    {selections : List Resolved} {data : Field} (htop : linked.IsTop model selections data)
    (hinhabited : ∀ shape ∈ data.allShapes, shape.possibleTypes ≠ [])
    (hcovariant : schema.Covariant)
    (hnames : ForallMerged schema selections data fun o o' => o.node.name = o'.node.name)
    (hnested : ForallMerged schema selections data fun o o' =>
      schema.possibleTypes o.definition.type.innerName ≠ [] → schema.Nested o.parent o'.parent)
    {shape target : Shape} (hshape : shape ∈ data.allShapes)
    (haddresses : model.Addresses data shape target) {name : Name} {field field' : Field}
    (hfield : shape.field? name = some field) (hfield' : target.field? name = some field') :
    ∀ concrete, schema.Possible field.type.leafName concrete →
      schema.Possible field'.type.leafName concrete := by
  obtain ⟨before, root, type, htree⟩ := Linked.exists_treeFrom hlink hbuild hacyclic htop
  obtain ⟨making, rfl, rfl, hvalid, haround, hgrounded, hgathers⟩ :=
    htree.exists_making hinhabited hshape
  have hparent := (Linked.Making.addresses_iff htree hvalid haround hgrounded).1 haddresses
  obtain ⟨other, hother, rfl, hextends⟩ :=
    Linked.Making.exists_extends htree hvalid hgrounded (hinhabited _ hshape) hparent
  obtain ⟨entry, hentry, first, hfirst, second, hsecond, hleaf, hleaf', hle⟩ :=
    hextends.exists_definitions hvalid hother hfield hfield'
  have hcollects := hvalid.shapeFrom.collects
  have hname : first.node.name = second.node.name :=
    hnames _ _ _ _ _ hgathers hvalid.mem_shapes hcollects hentry _ hfirst _ hsecond
  have hdefined := Linked.Making.field?_eq_some htree hvalid hgrounded hentry
  intro concrete hc
  rw [hleaf] at hc
  rw [hleaf']
  have hparents : schema.Nested first.parent second.parent :=
    hnested _ _ _ _ _ hgathers hvalid.mem_shapes hcollects hentry _ hfirst _ hsecond
      (List.ne_nil_of_mem (Schema.mem_possibleTypes.2 hc))
  refine hcovariant.possible_of_nested hparents hle (hdefined first hfirst) ?_ hc
  rw [hname]
  exact hdefined second hsecond

theorem possible_of_addresses_mate :
    Sample.linked.library.Acyclic ∧ (∀ shape ∈ Sample.data.allShapes, shape.possibleTypes ≠ []) ∧
    Sample.schema.Covariant ∧
    ForallMerged Sample.schema Sample.selections Sample.data
      (fun o o' => o.node.name = o'.node.name) ∧
    ForallMerged Sample.schema Sample.selections Sample.data
      (fun o o' => Sample.schema.possibleTypes o.definition.type.innerName ≠ [] →
        Sample.schema.Nested o.parent o'.parent) ∧
    Sample.model.Addresses Sample.data (Sample.petShape 2) (Sample.petShape 0) ∧
    (Sample.petShape 2).field? "mate" = some (Sample.mate 2) ∧
    (Sample.petShape 0).field? "mate" = some (Sample.mate 0) ∧
    ∀ concrete, Sample.schema.Possible (Sample.mate 2).type.leafName concrete →
      Sample.schema.Possible (Sample.mate 0).type.leafName concrete := by
  have hcovariant : Sample.schema.Covariant := by decide +kernel
  have hnames : ForallMerged Sample.schema Sample.selections Sample.data
      fun o o' => o.node.name = o'.node.name :=
    forallMerged_of_fieldsAll (R := fun o o' => o.node.name = o'.node.name)
      (by decide +kernel)
  have hnested : ForallMerged Sample.schema Sample.selections Sample.data
      fun o o' => Sample.schema.possibleTypes o.definition.type.innerName ≠ [] →
        Sample.schema.Nested o.parent o'.parent :=
    forallMerged_of_fieldsAll (R := fun o o' =>
      Sample.schema.possibleTypes o.definition.type.innerName ≠ [] →
        Sample.schema.Nested o.parent o'.parent) (by decide +kernel)
  have haddresses : Sample.model.Addresses Sample.data (Sample.petShape 2) (Sample.petShape 0) :=
    Model.addresses_of_mem (Sample.petShape_mem 0) (by decide +kernel)
  have hmate : ∀ i, (Sample.petShape i).field? "mate" = some (Sample.mate i) :=
    fun i => (Option.some_get (Sample.isSome_mate i)).symm
  exact ⟨Sample.acyclic, Sample.inhabited, hcovariant, hnames, hnested, haddresses, hmate 2,
    hmate 0,
    possible_of_addresses Sample.ofDocuments_eq Sample.build_eq Sample.acyclic Sample.isTop
      Sample.inhabited hcovariant hnames hnested (Sample.petShape_mem 2) haddresses (hmate 2)
      (hmate 0)⟩

/-! ## Interfaces that overlap

A home has a guest, a shelter has an animal as its guest.  A kennel is both, and its guest is a dog.
There are more homes than shelters, so a guest that is selected on both is taken to be an animal,
though not all animals are guests. -/

namespace Homes

open Sample (definition declaration select)

def schema : Schema where
  queryRoot := some "Query"
  mutationRoot := none
  subscriptionRoot := none
  types :=
    let named := [definition "name" "String"]
    [declaration "Query" (.object [] [definition "home" "Home"]),
      declaration "Home" (.interface [] [definition "guest" "Guest"]),
      declaration "Shelter" (.interface [] [definition "guest" "Animal"]),
      declaration "Guest" (.interface [] named),
      declaration "Animal" (.interface [] named),
      declaration "Kennel" (.object ["Home", "Shelter"] [definition "guest" "Dog"]),
      declaration "House" (.object ["Home"] [definition "guest" "Guest"]),
      declaration "Dog" (.object ["Guest", "Animal"] named),
      declaration "Fox" (.object ["Animal"] named)]
  directives := []

def document : Document where
  path := none
  operations :=
    let guest := select "guest" [] [select "name" [] []]
    [{ kind := .query
       name := some "Home"
       vars := []
       directives := []
       selections := [select "home" [] [guest, .inline (some "Shelter") [] [guest]]] }]
  fragments := []

theorem links : (Linked.ofDocuments .standard schema [document] []).toOption.isSome = true := by
  decide +kernel

/-- The documents about homes, linked. -/
@[irreducible]
def linked : Linked := (Linked.ofDocuments .standard schema [document] []).toOption.get links

theorem ofDocuments_eq : Linked.ofDocuments .standard schema [document] [] = .ok linked := by
  rw [linked]
  exact except_eq_ok_get links

theorem builds : (linked.build ⟨[]⟩).result.toOption.isSome = true := by decide +kernel

/-- The model of the documents about homes. -/
@[irreducible]
def model : Model := (linked.build ⟨[]⟩).result.toOption.get builds

theorem build_eq : (linked.build ⟨[]⟩).result = .ok model := by
  rw [model]
  exact except_eq_ok_get builds

theorem zip_operations_ne_nil : linked.operations.zip model.operations ≠ [] :=
  List.ne_nil_of_length_pos (by decide +kernel)

/-- The selections of the operation. -/
def selections : List Resolved :=
  ((linked.operations.zip model.operations).head zip_operations_ne_nil).1.selections

/-- The top of the tree of the operation. -/
def data : Field :=
  ((linked.operations.zip model.operations).head zip_operations_ne_nil).2.dataField

theorem isTop : linked.IsTop model selections data :=
  .operation (List.head_mem zip_operations_ne_nil)

theorem length_allShapes : data.allShapes.length = 5 := by decide +kernel

/-- All shapes of the tree: of the operation, of homes, of shelters among them, of guests in homes
and of guests in shelters. -/
def shape (i : Fin 5) : Shape := data.allShapes.get (i.cast length_allShapes.symm)

end Homes

/-- **A field can widen where interfaces overlap.**  The schema is covariant, every shape stands for
some concrete type and merged selections select the same field; still the guest of a shelter, whose
shape refines that of a home, can be a fox, and the guest of a home cannot. -/
theorem guest_wider :
    Linked.ofDocuments .standard Homes.schema [Homes.document] [] = .ok Homes.linked ∧
    (Homes.linked.build ⟨[]⟩).result = .ok Homes.model ∧ Homes.linked.library.Acyclic ∧
    Homes.linked.IsTop Homes.model Homes.selections Homes.data ∧
    (∀ shape ∈ Homes.data.allShapes, shape.possibleTypes ≠ []) ∧ Homes.schema.Covariant ∧
    ForallMerged Homes.schema Homes.selections Homes.data
      (fun o o' => o.node.name = o'.node.name) ∧
    Homes.shape 2 ∈ Homes.data.allShapes ∧
    Homes.model.Addresses Homes.data (Homes.shape 2) (Homes.shape 1) ∧
    ∃ field field', (Homes.shape 2).field? "guest" = some field ∧
      (Homes.shape 1).field? "guest" = some field' ∧
      (field.type.leaf.isComposite = true ∧ Homes.schema.Possible field.type.leafName "Fox") ∧
      (field'.type.leaf.isComposite = true ∧
        ¬Homes.schema.Possible field'.type.leafName "Fox") := by
  have hacyclic : Homes.linked.library.Acyclic :=
    Library.acyclic_of_rank (fun _ => 0) (by decide +kernel)
  have hinhabited : ∀ shape ∈ Homes.data.allShapes, shape.possibleTypes ≠ [] := by decide +kernel
  have hcovariant : Homes.schema.Covariant := by decide +kernel
  have hnames : ForallMerged Homes.schema Homes.selections Homes.data
      fun o o' => o.node.name = o'.node.name :=
    forallMerged_of_fieldsAll (R := fun o o' => o.node.name = o'.node.name)
      (by decide +kernel)
  have haddresses : Homes.model.Addresses Homes.data (Homes.shape 2) (Homes.shape 1) :=
    Model.addresses_of_mem (List.get_mem _ _) (by decide +kernel)
  have hshelter : ((Homes.shape 2).field? "guest").any (fun field => decide
      (field.type.leaf.isComposite = true ∧
        Homes.schema.Possible field.type.leafName "Fox")) = true := by
    decide +kernel
  have hhome : ((Homes.shape 1).field? "guest").any (fun field => decide
      (field.type.leaf.isComposite = true ∧
        ¬Homes.schema.Possible field.type.leafName "Fox")) = true := by
    decide +kernel
  obtain ⟨field, hfield, hfox⟩ := (Option.any_eq_true _ _).1 hshelter
  obtain ⟨field', hfield', hfox'⟩ := (Option.any_eq_true _ _).1 hhome
  exact ⟨Homes.ofDocuments_eq, Homes.build_eq, hacyclic, Homes.isTop, hinhabited, hcovariant,
    hnames, List.get_mem _ _, haddresses, field, field', hfield, hfield', of_decide_eq_true hfox,
    of_decide_eq_true hfox'⟩

end ResponseModel

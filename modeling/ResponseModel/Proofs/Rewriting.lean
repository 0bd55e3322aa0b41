import ResponseModel.Proofs.Agreement

/-!
# Rewritten selections

Selection sets can be written in several ways.  A way to rewrite them (`Rewriting`) keeps the type
conditions of a selection set and, for every shape, the occurrences that flattening finds, apart
from what is selected below them, which is rewritten in turn.  Then everything that is merged is
merged as before (`forall₂_ofFlat`), and so a tree that is built from rewritten selections has the
same skeleton: `Rewriting.agree_dataField`.  A strict rewriting keeps the fragments that are
entered, too, and gives the same tree.
-/

namespace ResponseModel

variable {strict : Prop} {S : List Resolved → List Resolved → Prop}

/-! ## Like occurrences -/

/-- Occurrences that differ at most in what is selected below them, which is rewritten. -/
structure Occurrence.Like (S : List Resolved → List Resolved → Prop) (o o' : Occurrence) :
    Prop where
  parent : o.parent = o'.parent
  node : o.node = o'.node
  definition : o.definition = o'.definition
  condition : o.condition = o'.condition
  selections : S o.selections o'.selections

/-- Like occurrences merged under the same name. -/
structure Merged.Like (S : List Resolved → List Resolved → Prop) (entry entry' : Name × Merged) :
    Prop where
  name : entry.1 = entry'.1
  occurrences : List.Forall₂ (Occurrence.Like S) entry.2.occurrences entry'.2.occurrences

theorem forall₂_addOccurrence {o o' : Occurrence} (ho : o.Like S o')
    {fields fields' : List (Name × Merged)} (h : List.Forall₂ (Merged.Like S) fields fields') :
    List.Forall₂ (Merged.Like S) (addOccurrence o fields) (addOccurrence o' fields') := by
  have hname : o.node.responseName = o'.node.responseName := by rw [ho.node]
  induction h with
  | nil => exact .cons ⟨hname, .cons ho .nil⟩ .nil
  | @cons entry entry' rest rest' hentry hrest ih =>
      obtain ⟨name, merged⟩ := entry
      obtain ⟨name', merged'⟩ := entry'
      obtain rfl : name = name' := hentry.name
      unfold addOccurrence
      rw [← hname]
      split
      · exact .cons ⟨rfl, List.rel_append hentry.occurrences (.cons ho .nil)⟩ hrest
      · exact .cons hentry ih

/-- Like occurrences are merged in the same way. -/
theorem forall₂_ofFlat {pieces pieces' : List Flat}
    (h : List.Forall₂ (Occurrence.Like S) (Flat.occurrences pieces) (Flat.occurrences pieces')) :
    List.Forall₂ (Merged.Like S) (Collected.ofFlat pieces).fields
      (Collected.ofFlat pieces').fields := by
  rw [Collected.ofFlat, Collected.ofFlat, fields_foldl_add, fields_foldl_add]
  generalize Flat.occurrences pieces = occurrences at h
  generalize Flat.occurrences pieces' = occurrences' at h
  have hfold : ∀ fields fields', List.Forall₂ (Merged.Like S) fields fields' →
      List.Forall₂ (Merged.Like S)
        (occurrences.foldl (fun fields o => addOccurrence o fields) fields)
        (occurrences'.foldl (fun fields o => addOccurrence o fields) fields') := by
    induction h with
    | nil => exact fun _ _ hfields => hfields
    | cons hhead _ ih => exact fun _ _ hfields => ih _ _ (forall₂_addOccurrence hhead hfields)
  exact hfold [] [] .nil

/-- The first occurrence with the smallest key is the same, if like occurrences have the same
key. -/
theorem Merged.Like.leastBy {entry entry' : Name × Merged} (h : Merged.Like S entry entry')
    {key : Occurrence → Nat} (hkey : ∀ o o', o.Like S o' → key o = key o') :
    (entry.2.leastBy key).Like S (entry'.2.leastBy key) := by
  have hfold : ∀ {others others'}, List.Forall₂ (Occurrence.Like S) others others' →
      ∀ best best', best.Like S best' →
        (others.foldl (fun best o => if key o < key best then o else best) best).Like S
          (others'.foldl (fun best o => if key o < key best then o else best) best') := by
    intro others others' hothers
    induction hothers with
    | nil => exact fun _ _ hbest => hbest
    | @cons o o' rest rest' ho _ ih =>
        intro best best' hbest
        rw [List.foldl_cons, List.foldl_cons, ← hkey o o' ho, ← hkey best best' hbest]
        split
        · exact ih o o' ho
        · exact ih best best' hbest
  obtain ⟨hfirst, hothers⟩ := List.forall₂_cons.1 h.occurrences
  exact hfold hothers _ _ hfirst

/-! ## Like pieces -/

/-- The fragments entered in a flattened selection set. -/
def Flat.fragments : List Flat → List Name
  | [] => []
  | .occurrence _ :: rest => Flat.fragments rest
  | .fragment name :: rest => name :: Flat.fragments rest

@[simp] theorem Flat.fragments_append (first second : List Flat) :
    Flat.fragments (first ++ second) = Flat.fragments first ++ Flat.fragments second := by
  induction first with
  | nil => rfl
  | cons piece rest ih => cases piece <;> simp [Flat.fragments, ih]

theorem fragments_ofFlat (pieces : List Flat) :
    (Collected.ofFlat pieces).fragments = distinct (Flat.fragments pieces) := by
  have hfold : ∀ collected : Collected, (pieces.foldl Collected.add collected).fragments =
      (Flat.fragments pieces).foldl insertNew collected.fragments := by
    induction pieces with
    | nil => exact fun _ => rfl
    | cons piece rest ih =>
        intro collected
        rw [List.foldl_cons, ih]
        cases piece <;> rfl
  exact hfold ⟨[], []⟩

/-- Flattened selection sets with like occurrences; in a strict comparison they have entered the
same fragments. -/
structure Flat.Like (strict : Prop) (S : List Resolved → List Resolved → Prop)
    (pieces pieces' : List Flat) : Prop where
  occurrences :
    List.Forall₂ (Occurrence.Like S) (Flat.occurrences pieces) (Flat.occurrences pieces')
  fragments : strict → Flat.fragments pieces = Flat.fragments pieces'

theorem Flat.Like.nil : Flat.Like strict S [] [] := ⟨.nil, fun _ => rfl⟩

theorem Flat.Like.refl (hS : ∀ selections, S selections selections) (pieces : List Flat) :
    Flat.Like strict S pieces pieces :=
  ⟨List.forall₂_same.2 fun o _ => ⟨rfl, rfl, rfl, rfl, hS o.selections⟩, fun _ => rfl⟩

theorem Flat.Like.append {first first' second second' : List Flat}
    (h : Flat.Like strict S first first') (h' : Flat.Like strict S second second') :
    Flat.Like strict S (first ++ second) (first' ++ second') := by
  constructor
  · rw [Flat.occurrences_append, Flat.occurrences_append]
    exact List.rel_append h.occurrences h'.occurrences
  · intro hstrict
    rw [Flat.fragments_append, Flat.fragments_append, h.fragments hstrict, h'.fragments hstrict]

section Flatten

variable {applies : Name → Bool} {condition : Condition}

theorem Agree.append {first first' others others' : Except DocumentError (List Flat)}
    (hfirst : Agree strict (Flat.Like strict S) first first')
    (hothers : Agree strict (Flat.Like strict S) others others') :
    Agree strict (Flat.Like strict S) (do let xs ← first; let ys ← others; .ok (xs ++ ys))
      (do let xs ← first'; let ys ← others'; .ok (xs ++ ys)) :=
  hfirst.bind fun _ _ hpieces => hothers.bind fun _ _ hmore => hpieces.append hmore

theorem agree_flattenBranches {branches branches' : List Branch}
    (h : List.Forall₂ (fun branch branch' => Agree strict (Flat.Like strict S)
      (Resolved.flattenAll applies branch.2 branch.1)
      (Resolved.flattenAll applies branch'.2 branch'.1)) branches branches') :
    Agree strict (Flat.Like strict S) (flattenBranches applies branches)
      (flattenBranches applies branches') := by
  induction h with
  | nil => exact Flat.Like.nil
  | cons hhead _ ih => exact hhead.append ih

end Flatten

/-! ## Rewriting -/

/-- The selection sets below some merged occurrences. -/
def Merged.branches (merged : Merged) : List Branch :=
  merged.occurrences.map fun o => (o.selections, o.condition)

theorem Merged.Like.map_condition {entry entry' : Name × Merged} (h : Merged.Like S entry entry') :
    entry.2.occurrences.map Occurrence.condition =
      entry'.2.occurrences.map Occurrence.condition := by
  have hsame : List.Forall₂ (· = ·) (entry.2.occurrences.map Occurrence.condition)
      (entry'.2.occurrences.map Occurrence.condition) := by
    rw [List.forall₂_map_left_iff, List.forall₂_map_right_iff]
    exact h.occurrences.imp fun o o' ho => ho.condition
  rwa [List.forall₂_eq_eq_eq] at hsame

theorem Merged.Like.branches {entry entry' : Name × Merged} (h : Merged.Like S entry entry') :
    List.Forall₂ (fun branch branch' : Branch => S branch.1 branch'.1 ∧ branch.2 = branch'.2)
      entry.2.branches entry'.2.branches := by
  rw [Merged.branches, Merged.branches, List.forall₂_map_left_iff, List.forall₂_map_right_iff]
  exact h.occurrences.imp fun o o' ho => ⟨ho.selections, ho.condition⟩

/-- The type of the field that some merged occurrences give. -/
def Schema.mergedType (schema : Schema) (merged : Merged) : TypeRef :=
  (merged.leastBy fun o => (schema.possibleTypes o.parent).length).definition.type

/-- `applies` tells the fragments that apply to some shape of a field of the given type with the
given selection sets. -/
def Schema.TestsShape (schema : Schema) (fieldType : Name) (branches : List Branch)
    (applies : Name → Bool) : Prop :=
  ∃ conditions typeSet, branchConditions branches = .ok conditions ∧
    typeSet ∈ schema.typeSets fieldType conditions ∧
    applies = schema.applies typeSet (schema.commonTypes typeSet.names)

/-- `S` rewrites selection sets, and `Inv` is what it needs to know about a field and its selection
sets. -/
structure Rewriting (strict : Prop) (schema : Schema) (S : List Resolved → List Resolved → Prop)
    (Inv : Name → List Branch → Prop) : Prop where
  typeConditions : ∀ {selections selections'}, S selections selections' → Agree strict (· = ·)
    (Resolved.typeConditionsAll selections) (Resolved.typeConditionsAll selections')
  flatten : ∀ {fieldType branches applies branch selections'}, Inv fieldType branches →
    schema.TestsShape fieldType branches applies → branch ∈ branches → S branch.1 selections' →
    Agree strict (Flat.Like strict S) (Resolved.flattenAll applies branch.2 branch.1)
      (Resolved.flattenAll applies branch.2 selections')
  below : ∀ {fieldType branches applies collected entry type}, Inv fieldType branches →
    schema.TestsShape fieldType branches applies → collect applies branches = .ok collected →
    entry ∈ collected.fields → schema.modelType (schema.mergedType entry.2) = .ok type →
    type.leaf.isComposite = true → Inv (schema.mergedType entry.2).innerName entry.2.branches

/-- A request with rewritten selection sets. -/
structure Rewritten (strict : Prop) (S : List Resolved → List Resolved → Prop)
    (Inv : Name → List Branch → Prop) (request request' : Request) : Prop where
  fieldType : request.fieldType = request'.fieldType
  responseName : request.responseName = request'.responseName
  path : request.path = request'.path
  inherited : strict → request.inherited = request'.inherited
  branches : List.Forall₂ (fun branch branch' : Branch => S branch.1 branch'.1 ∧
    branch.2 = branch'.2) request.branches request'.branches
  invariant : Inv request.fieldType request.branches

namespace Rewriting

variable {Inv : Name → List Branch → Prop} {builder builder' : Builder}

theorem agree_branchConditions {schema : Schema} (h : Rewriting strict schema S Inv)
    {branches branches' : List Branch}
    (hbranches : List.Forall₂ (fun branch branch' : Branch => S branch.1 branch'.1 ∧
      branch.2 = branch'.2) branches branches') :
    Agree strict (· = ·) (branchConditions branches) (branchConditions branches') := by
  induction hbranches with
  | nil => exact rfl
  | cons hhead _ ih =>
      refine (h.typeConditions hhead.1).bind ?_
      rintro first _ rfl
      refine ih.bind ?_
      rintro others _ rfl
      exact rfl

theorem agree_collect {schema : Schema} (h : Rewriting strict schema S Inv)
    {request request' : Request} (hrequest : Rewritten strict S Inv request request')
    {applies : Name → Bool}
    (happlies : schema.TestsShape request.fieldType request.branches applies) :
    Agree strict (fun collected collected' =>
        List.Forall₂ (Merged.Like S) collected.fields collected'.fields ∧
          (strict → collected.fragments = collected'.fragments))
      (collect applies request.branches) (collect applies request'.branches) := by
  have hflatten : Agree strict (Flat.Like strict S) (flattenBranches applies request.branches)
      (flattenBranches applies request'.branches) := by
    refine agree_flattenBranches (List.forall₂_iff_zip.2 ⟨hrequest.branches.length_eq, ?_⟩)
    intro branch branch' hzip
    obtain ⟨hselections, hcondition⟩ := (List.forall₂_iff_zip.1 hrequest.branches).2 hzip
    rw [← hcondition]
    exact h.flatten hrequest.invariant happlies (List.of_mem_zip hzip).1 hselections
  refine hflatten.map fun pieces pieces' hpieces => ⟨forall₂_ofFlat hpieces.occurrences, ?_⟩
  intro hstrict
  rw [fragments_ofFlat, fragments_ofFlat, hpieces.fragments hstrict]

/-- What a request is rewritten to passes to the requests below. -/
theorem simulation (h : Rewriting strict builder.schema S Inv)
    (hschema : builder.schema = builder'.schema) (hbuilder : strict → builder = builder') :
    Builder.Simulation strict builder builder' (Rewritten strict S Inv) where
  schema := hschema
  sameField hrequest := ⟨hrequest.fieldType, hrequest.responseName, hrequest.path⟩
  conditions hrequest := (h.agree_branchConditions hrequest.branches).imp
    fun conditions conditions' _ hsame => by rw [hsame]
  collected := by
    intro request request' conditions typeSet hrequest hconditions htypeSet
    have happlies : builder.schema.TestsShape request.fieldType request.branches
        (builder.schema.applies typeSet (builder.schema.commonTypes typeSet.names)) :=
      ⟨conditions, typeSet, hconditions, htypeSet, rfl⟩
    refine (h.agree_collect hrequest happlies).imp ?_
    rintro collected collected' hcollect ⟨hfields, hfragments⟩
    refine ⟨List.forall₂_iff_zip.2 ⟨hfields.length_eq, fun {entry entry'} hzip => ?_⟩, ?_⟩
    · have hentry : entry ∈ collected.fields := (List.of_mem_zip hzip).1
      have hlike := (List.forall₂_iff_zip.1 hfields).2 hzip
      have hnarrowest : (builder.narrowest entry.2).Like S (builder'.narrowest entry'.2) := by
        rw [Builder.narrowest, Builder.narrowest, ← hschema]
        exact hlike.leastBy fun o o' ho => by rw [ho.parent]
      refine ⟨hlike.name, hnarrowest.node, hnarrowest.definition, ?_, ?_⟩
      · rw [hlike.map_condition]
      · intro type htype hcomposite path parents parents' hparents
        refine ⟨?_, hlike.name, rfl, fun hstrict => ?_, hlike.branches, ?_⟩
        · rw [Builder.requestBelow, Builder.requestBelow, hnarrowest.definition]
        · rw [Builder.requestBelow, Builder.requestBelow, hparents hstrict, hlike.name]
        · exact h.below hrequest.invariant happlies hcollect hentry htype hcomposite
    · intro hstrict earlier
      rw [Builder.candidates, Builder.candidates, hbuilder hstrict, hfragments hstrict,
        hrequest.inherited hstrict]

/-- **Rewriting keeps trees.**  Fields at the top of a tree that are built from rewritten selections
are alike. -/
theorem agree_dataField (h : Rewriting strict builder.schema S Inv)
    (hschema : builder.schema = builder'.schema) (hbuilder : strict → builder = builder')
    {type : Name} {selections selections' : List Resolved} (hS : S selections selections')
    (hinv : Inv type [(selections, .always)])
    (hdepth : Resolved.depthAll selections = Resolved.depthAll selections') (root : Path) :
    Agree strict (Field.Like strict) (builder.dataField type selections root).result
      (builder'.dataField type selections' root).result :=
  (h.simulation hschema hbuilder).dataField
    ⟨rfl, rfl, rfl, fun _ => rfl, .cons ⟨hS, rfl⟩ .nil, hinv⟩ hdepth

end Rewriting

end ResponseModel

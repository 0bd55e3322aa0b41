import ResponseModel.Proofs.Conditions
import ResponseModel.Proofs.Redeclaration
import ResponseModel.Proofs.Rewriting
import ResponseModel.Shape.Navigation

/-!
# Plain inline fragments

An inline fragment is plain if it has neither a type condition nor directives.  It asks for nothing,
so its selections might as well stand in its place; `Selection.Unwraps` relates selections that
differ by plain fragments that are written around some of them.

A plain fragment applies where a fragment on the type around it does.  Within one selection set that
is no restriction.  Where selections of a field are merged that were written for different
definitions, though, the type that one of them was written for need not apply to a shape of the
field, and then what its plain fragments select is lost, while what stands beside them is kept:
`walk_wrapped_eq_none`.  Main statement: wherever the types of merged selections do apply, plain
fragments can be unwrapped without any change to the tree, `dataField_unwrapped`.
-/

namespace ResponseModel

/-! ## Unwrapping -/

/-- Taking some plain inline fragments apart, at any depth of the first selections, gives the
second. -/
inductive Selection.Unwraps : List Selection → List Selection → Prop
  | nil : Unwraps [] []
  | field {node : FieldNode} {below below' rest rest' : List Selection} :
      Unwraps below below' → Unwraps rest rest' →
      Unwraps (.field node below :: rest) (.field node below' :: rest')
  | inline {condition : Option Name} {directives : List Directive}
      {below below' rest rest' : List Selection} :
      Unwraps below below' → Unwraps rest rest' →
      Unwraps (.inline condition directives below :: rest)
        (.inline condition directives below' :: rest')
  | spread {name : Name} {directives : List Directive} {rest rest' : List Selection} :
      Unwraps rest rest' →
      Unwraps (.spread name directives :: rest) (.spread name directives :: rest')
  | unwrap {below below' rest rest' : List Selection} :
      Unwraps below below' → Unwraps rest rest' →
      Unwraps (.inline none [] below :: rest) (below' ++ rest')

namespace Resolved

/-- The selection is an inline fragment without a type condition and directives. -/
def isPlain : Resolved → Bool
  | .inline none _ [] _ => true
  | _ => false

/-- Taking some plain inline fragments apart, not those of spread fragments, gives the second
selections. -/
inductive Unwraps : List Resolved → List Resolved → Prop
  | nil : Unwraps [] []
  | same (selection : Resolved) {rest rest' : List Resolved} :
      Unwraps rest rest' → Unwraps (selection :: rest) (selection :: rest')
  | field {parent : Name} {node : FieldNode} {definition : FieldDefinition}
      {below below' rest rest' : List Resolved} :
      Unwraps below below' → Unwraps rest rest' →
      Unwraps (.field parent node definition below :: rest)
        (.field parent node definition below' :: rest')
  | inline {condition : Option Name} {type : Name} {directives : List Directive}
      {below below' rest rest' : List Resolved} :
      Unwraps below below' → Unwraps rest rest' →
      Unwraps (.inline condition type directives below :: rest)
        (.inline condition type directives below' :: rest')
  | unwrap {type : Name} {below below' rest rest' : List Resolved} :
      Unwraps below below' → Unwraps rest rest' →
      Unwraps (.inline none type [] below :: rest) (below' ++ rest')

/-- The first selection can stand for the second at the head of selections that are unwrapped. -/
def Exchanges (selection selection' : Resolved) : Prop :=
  ∀ rest rest', Unwraps rest rest' → Unwraps (selection :: rest) (selection' :: rest')

theorem Unwraps.refl : ∀ selections, Unwraps selections selections
  | [] => .nil
  | selection :: rest => .same selection (.refl rest)

end Resolved

/-! ## Resolving -/

namespace Selection

variable {schema : Schema} {target : Name → List Directive → Except UndefinedField Resolved}

theorem resolveAll_cons (parent : Name) (selection : Selection) (rest : List Selection) :
    resolveAll schema target parent (selection :: rest) =
      (do let xs ← (resolve schema target parent selection).map ([·])
          let ys ← resolveAll schema target parent rest
          .ok (xs ++ ys)) := by
  rw [resolveAll]
  cases resolve schema target parent selection <;> rfl

theorem resolveAll_append (parent : Name) (first second : List Selection) :
    resolveAll schema target parent (first ++ second) =
      (do let xs ← resolveAll schema target parent first
          let ys ← resolveAll schema target parent second
          .ok (xs ++ ys)) :=
  except_append_of_cons (resolveAll schema target parent) rfl (resolveAll_cons parent) first second

/-- Selections that are unwrapped are resolved to resolved selections that are unwrapped. -/
theorem Unwraps.agree_resolveAll {written written' : List Selection} (h : Unwraps written written')
    (parent : Name) : Agree True Resolved.Unwraps (resolveAll schema target parent written)
      (resolveAll schema target parent written') := by
  induction h generalizing parent with
  | nil => exact Resolved.Unwraps.nil
  | @field node below below' rest rest' _ _ ihbelow ihrest =>
      rw [resolveAll, resolveAll, resolve, resolve]
      cases schema.field? parent node.name with
      | none => exact fun _ => rfl
      | some definition =>
          have hfirst : Agree True Resolved.Exchanges
              ((resolveAll schema target definition.type.innerName below).map
                (.field parent node definition))
              ((resolveAll schema target definition.type.innerName below').map
                (.field parent node definition)) :=
            (ihbelow _).map fun part part' hpart rest rest' hrest => .field hpart hrest
          exact hfirst.bind fun first first' hfirst =>
            (ihrest parent).bind fun others others' hothers => hfirst others others' hothers
  | @inline condition directives below below' rest rest' _ _ ihbelow ihrest =>
      rw [resolveAll, resolveAll, resolve, resolve]
      have hfirst : Agree True Resolved.Exchanges
          ((resolveAll schema target (condition.getD parent) below).map
            (.inline condition (condition.getD parent) directives))
          ((resolveAll schema target (condition.getD parent) below').map
            (.inline condition (condition.getD parent) directives)) :=
        (ihbelow _).map fun part part' hpart rest rest' hrest => .inline hpart hrest
      exact hfirst.bind fun first first' hfirst =>
        (ihrest parent).bind fun others others' hothers => hfirst others others' hothers
  | spread _ ihrest =>
      rw [resolveAll, resolveAll]
      refine (Agree.refl _).bind ?_
      rintro first _ ⟨rfl, -⟩
      exact (ihrest parent).bind fun others others' hothers => .same first hothers
  | @unwrap below below' rest rest' _ _ ihbelow ihrest =>
      rw [resolveAll_append, resolveAll, resolve]
      have hfirst : Agree True
          (fun first part' => ∀ rest rest', Resolved.Unwraps rest rest' →
            Resolved.Unwraps (first :: rest) (part' ++ rest'))
          ((resolveAll schema target parent below).map (.inline none parent []))
          (resolveAll schema target parent below') :=
        (ihbelow parent).map_left fun part part' hpart rest rest' hrest => .unwrap hpart hrest
      refine hfirst.bind fun first part' hfirst => ?_
      refine (ihrest parent).bind fun others others' hothers => ?_
      exact hfirst others others' hothers

end Selection

/-! ## Types around selections -/

namespace Resolved

mutual

/-- The selection was resolved on the type: a field has it as its parent, and an inline fragment
without a type condition is on it, too. -/
def On (parent : Name) : Resolved → Prop
  | .field type _ definition selections =>
      type = parent ∧ OnAll definition.type.innerName selections
  | .inline condition type _ selections => type = condition.getD parent ∧ OnAll type selections
  | .spread _ _ type selections => OnAll type selections
  | .dangling .. => True

/-- The selections were resolved on the type. -/
def OnAll (parent : Name) : List Resolved → Prop
  | [] => True
  | selection :: rest => On parent selection ∧ OnAll parent rest

end

end Resolved

theorem Library.Resolution.onAll {library : Library} {schema : Schema} {parent : Name}
    {written : List Selection} {resolved : List Resolved}
    (h : library.Resolution schema parent written resolved) : Resolved.OnAll parent resolved := by
  induction h with
  | nil => trivial
  | field _ _ _ ihbelow ihrest => exact ⟨⟨rfl, ihbelow⟩, ihrest⟩
  | inline _ _ ihbelow ihrest => exact ⟨⟨rfl, ihbelow⟩, ihrest⟩
  | spread _ _ _ ihbelow ihrest => exact ⟨ihbelow, ihrest⟩
  | undefined _ _ ihrest => exact ⟨trivial, ihrest⟩

namespace Resolved

variable {applies : Name → Bool} {condition : Condition} {pieces : List Flat}

/-- What is selected below an occurrence is on the type of its definition. -/
theorem OnAll.of_mem_flattenAll {parent : Name} {selections : List Resolved}
    (hon : OnAll parent selections) (h : flattenAll applies condition selections = .ok pieces) :
    ∀ o ∈ Flat.occurrences pieces, OnAll o.definition.type.innerName o.selections := by
  intro o ho
  refine forall_mem_flattenAll (P := fun selections o => ∀ parent, OnAll parent selections →
    OnAll o.definition.type.innerName o.selections) ?_ ?_ ?_ ?_ h o ho parent hon
  · exact fun _ _ _ _ _ _ _ _ hon => hon.1.2
  · exact fun _ type _ _ _ _ ih _ hon => ih type hon.1.2
  · exact fun _ _ type _ _ _ ih _ hon => ih type hon.1
  · exact fun _ _ _ ih parent hon => ih parent hon.2

/-- The condition of an occurrence is in its one form. -/
theorem simplify_of_mem_flattenAll {selections : List Resolved}
    (h : flattenAll applies condition selections = .ok pieces) :
    ∀ o ∈ Flat.occurrences pieces, o.condition.simplify = o.condition := by
  refine forall_mem_flattenAll (P := fun _ o => o.condition.simplify = o.condition) ?_ ?_ ?_ ?_ h
  · exact fun _ _ _ _ _ _ _ => Condition.simplify_all _
  · exact fun _ _ _ _ _ _ ih => ih
  · exact fun _ _ _ _ _ _ ih => ih
  · exact fun _ _ _ ih => ih

/-! ## Flattening -/

theorem flattenAll_append (first second : List Resolved) :
    flattenAll applies condition (first ++ second) =
      (do let xs ← flattenAll applies condition first
          let ys ← flattenAll applies condition second
          .ok (xs ++ ys)) :=
  except_append_of_cons (flattenAll applies condition) rfl (fun _ _ => rfl) first second

theorem typeConditionsAll_append (first second : List Resolved) :
    typeConditionsAll (first ++ second) =
      (do let xs ← typeConditionsAll first; let ys ← typeConditionsAll second; .ok (xs ++ ys)) :=
  except_append_of_cons typeConditionsAll rfl (fun _ _ => rfl) first second

theorem depthAll_append (first second : List Resolved) :
    depthAll (first ++ second) = max (depthAll first) (depthAll second) := by
  induction first with
  | nil => rw [List.nil_append, depthAll, Nat.zero_max]
  | cons selection rest ih => rw [List.cons_append, depthAll, depthAll, ih, Nat.max_assoc]

namespace Unwraps

variable {selections selections' : List Resolved}

theorem depthAll_eq (h : Unwraps selections selections') :
    depthAll selections = depthAll selections' := by
  induction h with
  | nil => rfl
  | same selection _ ih => rw [depthAll, depthAll, ih]
  | field _ _ ihbelow ihrest => simp only [depthAll, depth, ihbelow, ihrest]
  | inline _ _ ihbelow ihrest => simp only [depthAll, depth, ihbelow, ihrest]
  | unwrap _ _ ihbelow ihrest => rw [depthAll_append, depthAll, depth, ihbelow, ihrest]

/-- A plain fragment has no type condition of its own. -/
theorem typeConditionsAll_eq (h : Unwraps selections selections') :
    typeConditionsAll selections = typeConditionsAll selections' := by
  induction h with
  | nil => rfl
  | same selection _ ih => rw [typeConditionsAll, typeConditionsAll, ih]
  | field _ _ _ ihrest => simp only [typeConditionsAll, typeConditions, ihrest]
  | inline _ _ ihbelow ihrest => simp only [typeConditionsAll, typeConditions, ihbelow, ihrest]
  | @unwrap type below below' rest rest' _ _ ihbelow ihrest =>
      rw [typeConditionsAll_append, typeConditionsAll, typeConditions, ihbelow, ihrest]
      cases typeConditionsAll below' <;> rfl

/-- Unwrapped selections have the same occurrences where the type around them applies, or no plain
fragment stands directly among them. -/
theorem agree_flattenAll (h : Unwraps selections selections') {parent : Name}
    (hon : OnAll parent selections)
    (happlies : ∀ selection ∈ selections, selection.isPlain = true → applies parent = true)
    (hcondition : condition.simplify = condition) :
    Agree True (Flat.Like True Unwraps) (flattenAll applies condition selections)
      (flattenAll applies condition selections') := by
  induction h generalizing parent condition with
  | nil => exact Flat.Like.nil
  | same selection _ ih =>
      refine Agree.append ?_ (ih hon.2 (List.forall_mem_of_forall_mem_cons happlies) hcondition)
      exact (Agree.refl _).imp fun pieces _ _ hsame => hsame.1 ▸ Flat.Like.refl refl pieces
  | field hbelow _ _ ih =>
      refine Agree.append ?_ (ih hon.2 (List.forall_mem_of_forall_mem_cons happlies) hcondition)
      refine (Agree.refl _).bind ?_
      rintro own _ ⟨rfl, -⟩
      exact ⟨.cons ⟨rfl, rfl, rfl, rfl, hbelow⟩ .nil, fun _ => rfl⟩
  | inline _ _ ihbelow ihrest =>
      refine Agree.append ?_
        (ihrest hon.2 (List.forall_mem_of_forall_mem_cons happlies) hcondition)
      rw [flatten, flatten]
      split
      · next htype =>
          refine (Agree.refl _).bind ?_
          rintro own _ ⟨rfl, -⟩
          exact ihbelow hon.1.2 (fun _ _ _ => htype) (Condition.simplify_all _)
      · exact Flat.Like.nil
  | @unwrap type below below' rest rest' _ _ ihbelow ihrest =>
      -- the fragment is on the type around it, which applies, and it asks for nothing
      have htype : applies parent = true := happlies _ List.mem_cons_self rfl
      obtain rfl : type = parent := hon.1.1
      have hfirst : flatten applies condition (.inline none type [] below) =
          flattenAll applies condition below := by
        rw [flatten, if_pos htype]
        show flattenAll applies (condition.and .always) below = _
        rw [Condition.and_always, hcondition]
      rw [flattenAll_append, flattenAll, hfirst]
      exact Agree.append (ihbelow hon.1.2 (fun _ _ _ => htype) hcondition)
        (ihrest hon.2 (List.forall_mem_of_forall_mem_cons happlies) hcondition)

end Unwraps

end Resolved

/-! ## Types that apply to merged selections -/

namespace Schema

/-- A fragment on the type applies to the base shape of a field of type `fieldType`. -/
def AppliesTo (schema : Schema) (fieldType type : Name) : Prop :=
  schema.applies (.single fieldType) (schema.commonTypes (TypeSet.single fieldType).names) type =
    true

instance (schema : Schema) (fieldType type : Name) : Decidable (schema.AppliesTo fieldType type) :=
  inferInstanceAs (Decidable (_ = true))

/-- What applies to the base shape of a field applies to all of its shapes. -/
theorem AppliesTo.applies {schema : Schema} {fieldType type : Name} {conditions : List Name}
    {typeSet : TypeSet} (h : schema.AppliesTo fieldType type)
    (htypeSet : typeSet ∈ schema.typeSets fieldType conditions) :
    schema.applies typeSet (schema.commonTypes typeSet.names) type = true := by
  have hfieldType := fieldType_mem_of_mem_typeSets htypeSet
  rcases mem_typeSets.1 htypeSet with rfl | ⟨concrete, hconcrete, rfl⟩
  · exact h
  · have hne := List.ne_nil_of_mem hfieldType
    have hmem : concrete ∈ schema.commonTypes
        (schema.typeSetOf fieldType (schema.narrowing fieldType conditions) concrete).names := by
      refine (mem_commonTypes hne).2 fun name hname => ?_
      rcases mem_typeSetOf.1 hname with rfl | ⟨-, hpossible⟩
      · exact hconcrete
      · exact hpossible
    refine applies_of_subset (List.ne_nil_of_mem hmem) ?_ h
    · intro other hother
      refine (mem_commonTypes (List.cons_ne_nil _ _)).2 fun name hname => ?_
      rw [TypeSet.mem_single.1 hname]
      exact (mem_commonTypes hne).1 hother fieldType hfieldType

/-- The selections `merged` of a composite field are merged for some shape, at some depth below a
field of the given type with the given selection sets. -/
inductive MergedBelow (schema : Schema) : Name → List Branch → Merged → Prop
  | here {fieldType : Name} {branches : List Branch} {applies : Name → Bool}
      {collected : Collected} {entry : Name × Merged} {type : ModelType} :
      schema.TestsShape fieldType branches applies → collect applies branches = .ok collected →
      entry ∈ collected.fields → schema.modelType (schema.mergedType entry.2) = .ok type →
      type.leaf.isComposite = true → MergedBelow schema fieldType branches entry.2
  | deeper {fieldType : Name} {branches : List Branch} {merged merged' : Merged} :
      MergedBelow schema fieldType branches merged →
      MergedBelow schema (schema.mergedType merged).innerName merged.branches merged' →
      MergedBelow schema fieldType branches merged'

/-- If a plain fragment stands directly in one of the selection sets that are merged below a field,
then the type that this selection set was written for applies to the merged field. -/
def EntersPlain (schema : Schema) (fieldType : Name) (branches : List Branch) : Prop :=
  ∀ merged, schema.MergedBelow fieldType branches merged → ∀ o ∈ merged.occurrences,
    ∀ selection ∈ o.selections, selection.isPlain = true →
      schema.AppliesTo (schema.mergedType merged).innerName o.definition.type.innerName

/-- Selections that are merged have one response name and are fields of the selection sets, or of
larger ones. -/
theorem MergedBelow.exists_responseName {schema : Schema} {fieldType : Name}
    {branches : List Branch} {merged : Merged} (h : schema.MergedBelow fieldType branches merged)
    {selections : List Resolved} (hsub : ∀ part ∈ branches.map Prod.fst,
      Resolved.nodesAll part ⊆ Resolved.nodesAll selections) :
    ∃ name, ∀ o ∈ merged.occurrences, o.responseName = name ∧
      .field o.parent o.node o.definition o.selections ∈ Resolved.nodesAll selections ∧
        Resolved.nodesAll o.selections ⊆ Resolved.nodesAll selections := by
  induction h with
  | @here _ _ _ _ entry _ _ hcollect hentry _ _ =>
      refine ⟨entry.1, fun o ho => ?_⟩
      obtain ⟨part, hpart, hnode, hbelow⟩ := exists_selections_of_collect hcollect hentry ho
      obtain ⟨pieces, -, rfl⟩ := collect_eq_ok.1 hcollect
      exact ⟨((groups_ofFlat pieces).mem_of_mem_occurrences hentry ho).2, hsub part hpart hnode,
        List.Subset.trans hbelow (hsub part hpart)⟩
  | deeper _ _ ih ihdeeper =>
      obtain ⟨name, hoccurrences⟩ := ih hsub
      refine ihdeeper fun part hpart => ?_
      obtain ⟨branch, hbranch, rfl⟩ := List.mem_map.1 hpart
      obtain ⟨o, ho, rfl⟩ := List.mem_map.1 hbranch
      exact (hoccurrences o ho).2.2

/-- It is enough to look at all fields of one response name in the selections. -/
theorem entersPlain_of_fieldsAll {schema : Schema} {fieldType : Name} {selections : List Resolved}
    {condition : Condition}
    (h : ∀ o ∈ Resolved.fieldsAll selections, ∀ o' ∈ Resolved.fieldsAll selections,
      o.responseName = o'.responseName → ∀ selection ∈ o'.selections, selection.isPlain = true →
        schema.AppliesTo o.definition.type.innerName o'.definition.type.innerName) :
    schema.EntersPlain fieldType [(selections, condition)] := by
  intro merged hmerged o ho
  have hparts : ∀ part ∈ [(selections, condition)].map Prod.fst,
      Resolved.nodesAll part ⊆ Resolved.nodesAll selections :=
    List.forall_mem_singleton.2 (List.Subset.refl _)
  obtain ⟨name, hoccurrences⟩ := hmerged.exists_responseName hparts
  have hfields : ∀ o ∈ merged.occurrences,
      o.bare ∈ Resolved.fieldsAll selections ∧ o.bare.responseName = name := fun o ho =>
    ⟨List.mem_filterMap.2 ⟨_, (hoccurrences o ho).2.1, rfl⟩, (hoccurrences o ho).1⟩
  have hleast := hfields _ (merged.leastBy_mem fun o => (schema.possibleTypes o.parent).length)
  exact h _ hleast.1 o.bare (hfields o ho).1 (hleast.2.trans (hfields o ho).2.symm)

/-- What unwrapping needs to know about a field and its selection sets. -/
structure Unwrappable (schema : Schema) (fieldType : Name) (branches : List Branch) : Prop where
  conditions : ∀ branch ∈ branches, branch.2.simplify = branch.2
  types : ∀ branch ∈ branches, ∃ parent, Resolved.OnAll parent branch.1 ∧
    ∀ selection ∈ branch.1, selection.isPlain = true → schema.AppliesTo fieldType parent
  below : schema.EntersPlain fieldType branches

end Schema

theorem rewriting_unwraps (schema : Schema) :
    Rewriting True schema Resolved.Unwraps schema.Unwrappable where
  typeConditions := by
    intro selections selections' h
    rw [h.typeConditionsAll_eq]
    exact (Agree.refl _).imp fun _ _ _ hsame => hsame.1
  flatten := by
    rintro fieldType branches _ branch selections' hinv ⟨conditions, typeSet, -, htypeSet, rfl⟩
      hbranch h
    obtain ⟨parent, hon, happlies⟩ := hinv.types branch hbranch
    refine h.agree_flattenAll hon (fun selection hselection hplain => ?_)
      (hinv.conditions branch hbranch)
    exact (happlies selection hselection hplain).applies htypeSet
  below := by
    intro fieldType branches applies collected entry type hinv htests hcollect hentry htype
      hcomposite
    have hmerged : schema.MergedBelow fieldType branches entry.2 :=
      .here htests hcollect hentry htype hcomposite
    have hoccurrence : ∀ o ∈ entry.2.occurrences, o.condition.simplify = o.condition ∧
        Resolved.OnAll o.definition.type.innerName o.selections := by
      intro o ho
      obtain ⟨branch, hbranch, pieces, hpieces, hmem⟩ :=
        exists_flattenAll_of_collect hcollect hentry ho
      obtain ⟨parent, hon, -⟩ := hinv.types branch hbranch
      exact ⟨Resolved.simplify_of_mem_flattenAll hpieces o hmem,
        hon.of_mem_flattenAll hpieces o hmem⟩
    refine ⟨?_, ?_, fun merged hbelow => hinv.below merged (.deeper hmerged hbelow)⟩
    · intro branch hbranch
      obtain ⟨o, ho, rfl⟩ := List.mem_map.1 hbranch
      exact (hoccurrence o ho).1
    · intro branch hbranch
      obtain ⟨o, ho, rfl⟩ := List.mem_map.1 hbranch
      exact ⟨_, (hoccurrence o ho).2, hinv.below entry.2 hmerged o ho⟩

/-- **Plain fragments can be unwrapped where they are entered.**  Take a library whose fragments do
not spread themselves and selections on a type, and take some plain inline fragments in the
selections apart, at any depth.  Wherever selections of one field are merged and a plain fragment
stands directly in one of them, let the type that it was written for apply to the merged field.
Then the selections without these fragments can be resolved, too, and building a tree from them
gives the same tree, or fails with the same error. -/
theorem dataField_unwrapped {library : Library} {schema : Schema} {rounds : Nat} {type : Name}
    {written written' : List Selection} {resolved : List Resolved} (hacyclic : library.Acyclic)
    (hunwraps : Selection.Unwraps written written')
    (hresolve : library.resolve schema rounds type written = .ok resolved)
    (henters : schema.EntersPlain type [(resolved, .always)]) :
    ∃ resolved', library.resolve schema rounds type written' = .ok resolved' ∧
      ∀ builder : Builder, builder.schema = schema → ∀ root,
        (builder.dataField type resolved' root).result =
          (builder.dataField type resolved root).result := by
  have hagree : Agree True Resolved.Unwraps (library.resolve schema rounds type written)
      (library.resolve schema rounds type written') := hunwraps.agree_resolveAll type
  rw [hresolve] at hagree
  cases hresolve' : library.resolve schema rounds type written' with
  | error error =>
      rw [hresolve'] at hagree
      exact hagree.elim
  | ok resolved' =>
      rw [hresolve'] at hagree
      refine ⟨resolved', rfl, fun builder hschema root => ?_⟩
      subst hschema
      have hinv : builder.schema.Unwrappable type [(resolved, .always)] := by
        have hon := (Library.resolution_of_resolve hacyclic hresolve).onAll
        refine ⟨List.forall_mem_singleton.2 rfl, List.forall_mem_singleton.2 ⟨type, hon, ?_⟩,
          henters⟩
        intro _ _ _
        rw [Schema.AppliesTo, Schema.applies, Bool.or_eq_true]
        exact .inl (decide_eq_true (TypeSet.mem_single.2 rfl))
      have htrees := (rewriting_unwraps builder.schema).agree_dataField rfl (fun _ => rfl) hagree
        hinv hagree.depthAll_eq root
      exact (htrees.imp fun _ _ _ hlike => hlike.2 trivial).eq.symm

/-! ## Lodgings

A home has a guest, a dog or a person; a shelter has an animal, a dog or a fox.  A kennel is both
and has a dog.  Where a guest is selected for the homes that are kennels, all that is selected for
homes is selected for dogs.  Where it is selected for the homes that are shelters, the guest is
taken to be an animal, and not all animals are guests. -/

namespace Lodging

open Sample (definition declaration select)

def schema : Schema where
  queryRoot := some "Query"
  mutationRoot := none
  subscriptionRoot := none
  types :=
    let named := [definition "name" "String"]
    [declaration "Query" (.object [] [definition "home" "Home"]),
      declaration "Home" (.interface [] [definition "guest" "Guest"]),
      declaration "Shelter" (.interface [] [definition "guest" "Animal"]),
      declaration "Guest" (.interface [] named),
      declaration "Animal" (.interface [] named),
      declaration "Kennel" (.object ["Home", "Shelter"] [definition "guest" "Dog"]),
      declaration "House" (.object ["Home"] [definition "guest" "Guest"]),
      declaration "Dog" (.object ["Guest", "Animal"] named),
      declaration "Person" (.object ["Guest"] named),
      declaration "Fox" (.object ["Animal"] named)]
  directives := []

/-- No fragments. -/
def library : Library := ⟨[]⟩

theorem acyclic : library.Acyclic := Library.acyclic_of_rank (fun _ => 0) (by decide +kernel)

/-- Selects something of the guests in all homes, and the type of the guests in the homes that are
of some type. -/
def selections (type : Name) (guest : List Selection) : List Selection :=
  [select "home" []
    [select "guest" [] guest,
      .inline (some type) [] [select "guest" [] [select "__typename" [] []]]]]

/-- The names of guests in a plain fragment. -/
def wrapped : List Selection := [.inline none [] [select "name" [] []]]

/-- The names of guests. -/
def unwrapped : List Selection := [select "name" [] []]

theorem unwraps (type : Name) :
    Selection.Unwraps (selections type wrapped) (selections type unwrapped) :=
  .field (.field (.unwrap (.field .nil .nil) .nil) (.inline (.field (.field .nil .nil) .nil) .nil))
    .nil

def builder : Builder := ⟨schema, []⟩

def root : Path := .atRoot "Home" .operationImplementation

/-- To the name of the dog in a kennel. -/
def dogName : List Place.Step :=
  [.concrete "Query", .field "home", .concrete "Kennel", .field "guest", .concrete "Dog",
    .field "name"]

theorem kennel_resolves :
    (library.resolve schema 0 "Query" (selections "Kennel" wrapped)).toOption.isSome = true := by
  decide +kernel

/-- The selections for kennels, with the plain fragment. -/
def kennel : List Resolved :=
  (library.resolve schema 0 "Query" (selections "Kennel" wrapped)).toOption.get kennel_resolves

theorem entersPlain_kennel : schema.EntersPlain "Query" [(kennel, .always)] :=
  Schema.entersPlain_of_fieldsAll (by decide +kernel)

theorem shelter_resolves :
    (library.resolve schema 0 "Query" (selections "Shelter" wrapped)).toOption.isSome = true ∧
    (library.resolve schema 0 "Query" (selections "Shelter" unwrapped)).toOption.isSome = true := by
  decide +kernel

/-- The selections for shelters, with the plain fragment. -/
def shelter : List Resolved :=
  (library.resolve schema 0 "Query" (selections "Shelter" wrapped)).toOption.get shelter_resolves.1

/-- The selections for shelters, without the plain fragment. -/
def shelter' : List Resolved :=
  (library.resolve schema 0 "Query" (selections "Shelter" unwrapped)).toOption.get
    shelter_resolves.2

theorem shelter_builds :
    (builder.dataField "Query" shelter root).result.toOption.isSome = true ∧
    (builder.dataField "Query" shelter' root).result.toOption.isSome = true := by
  decide +kernel

end Lodging

theorem dataField_unwrapped_kennel :
    Lodging.library.Acyclic ∧
    Selection.Unwraps (Lodging.selections "Kennel" Lodging.wrapped)
      (Lodging.selections "Kennel" Lodging.unwrapped) ∧
    Lodging.library.resolve Lodging.schema 0 "Query" (Lodging.selections "Kennel" Lodging.wrapped) =
      .ok Lodging.kennel ∧
    Lodging.schema.EntersPlain "Query" [(Lodging.kennel, .always)] ∧
    (Lodging.builder.dataField "Query" Lodging.kennel Lodging.root).result.toOption.isSome = true ∧
    ∃ resolved', Lodging.library.resolve Lodging.schema 0 "Query"
        (Lodging.selections "Kennel" Lodging.unwrapped) = .ok resolved' ∧
      ∀ builder : Builder, builder.schema = Lodging.schema → ∀ root,
        (builder.dataField "Query" resolved' root).result =
          (builder.dataField "Query" Lodging.kennel root).result :=
  have hresolve := except_eq_ok_get Lodging.kennel_resolves
  ⟨Lodging.acyclic, Lodging.unwraps "Kennel", hresolve, Lodging.entersPlain_kennel,
    by decide +kernel,
    dataField_unwrapped Lodging.acyclic (Lodging.unwraps "Kennel") hresolve
      Lodging.entersPlain_kennel⟩

/-- **A plain fragment can be lost.**  The schema is covariant and the library has no fragments.  In
the homes that are shelters guests are animals, and the plain fragment that was written for guests
does not apply to them: it leaves no trace of the names of dogs in kennels, though they are there
if the fragment is unwrapped. -/
theorem walk_wrapped_eq_none :
    Lodging.schema.Covariant ∧ Lodging.library.Acyclic ∧
    Selection.Unwraps (Lodging.selections "Shelter" Lodging.wrapped)
      (Lodging.selections "Shelter" Lodging.unwrapped) ∧
    ∃ resolved resolved' data data',
      Lodging.library.resolve Lodging.schema 0 "Query"
        (Lodging.selections "Shelter" Lodging.wrapped) = .ok resolved ∧
      Lodging.library.resolve Lodging.schema 0 "Query"
        (Lodging.selections "Shelter" Lodging.unwrapped) = .ok resolved' ∧
      (Lodging.builder.dataField "Query" resolved Lodging.root).result = .ok data ∧
      (Lodging.builder.dataField "Query" resolved' Lodging.root).result = .ok data' ∧
      (Place.field data).walk Lodging.dogName = none ∧
      ((Place.field data').walk Lodging.dogName).isSome = true :=
  ⟨by decide +kernel, Lodging.acyclic, Lodging.unwraps "Shelter", Lodging.shelter,
    Lodging.shelter', _, _, except_eq_ok_get Lodging.shelter_resolves.1,
    except_eq_ok_get Lodging.shelter_resolves.2, except_eq_ok_get Lodging.shelter_builds.1,
    except_eq_ok_get Lodging.shelter_builds.2, Option.isNone_iff_eq_none.1 (by decide +kernel),
    by decide +kernel⟩

end ResponseModel

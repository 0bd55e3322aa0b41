import ResponseModel.Proofs.Models

/-!
# Builds that agree

Two builds of a tree are compared level by level.  What a shape refines is passed along the build
and ends up in the marks `implements` and `isOverride` only; the rest of a tree is its skeleton
(`Field.skeleton`).  Requests may be related in any way that is kept from level to level
(`Simulation`): the type sets have to be the same, and what is collected for a type set has to give
the same fields.  Main statement: `Simulation.shapes`, the shapes that are built for related
requests have the same skeletons, and neither build succeeds without the other.  A comparison that
is `strict` asks for the same candidates of refinement, too, and then the shapes are the same, and
so are the errors.
-/

namespace ResponseModel

/-! ## Computations that agree -/

/-- Two computations agree: both give a result, and the results are related, or both fail, in a
strict comparison with the same error. -/
def Agree {ε α β : Type} (strict : Prop) (R : α → β → Prop) : Except ε α → Except ε β → Prop
  | .ok a, .ok b => R a b
  | .error error, .error error' => strict → error = error'
  | _, _ => False

namespace Agree

variable {ε α β : Type} {strict : Prop} {R : α → β → Prop} {first : Except ε α}
  {second : Except ε β}

/-- A computation agrees with itself, on the result that it gives. -/
theorem refl (first : Except ε α) :
    Agree strict (fun a b => a = b ∧ first = .ok a) first first := by
  cases first with
  | error error => exact fun _ => rfl
  | ok a => exact ⟨rfl, rfl⟩

/-- If each of two computations gives a result whenever the other does, they agree up to errors. -/
theorem of_ok (h : ∀ a, first = .ok a → ∃ b, second = .ok b ∧ R a b)
    (h' : ∀ b, second = .ok b → ∃ a, first = .ok a) : Agree False R first second := by
  cases first with
  | ok a =>
      obtain ⟨b, rfl, hab⟩ := h a rfl
      exact hab
  | error error =>
      cases second with
      | ok b =>
          obtain ⟨a, ha⟩ := h' b rfl
          nomatch ha
      | error error' => exact False.elim

theorem exists_of_ok (h : Agree strict R first second) {a : α} (ha : first = .ok a) :
    ∃ b, second = .ok b ∧ R a b := by
  subst ha
  match second, h with
  | .ok b, h => exact ⟨b, rfl, h⟩

theorem imp {S : α → β → Prop} (h : Agree strict R first second)
    (himp : ∀ a b, first = .ok a → R a b → S a b) : Agree strict S first second := by
  match first, second, h with
  | .ok a, .ok b, h => exact himp a b rfl h
  | .error _, .error _, h => exact h

theorem bind {γ δ : Type} {S : γ → δ → Prop} {next : α → Except ε γ} {next' : β → Except ε δ}
    (h : Agree strict R first second) (hnext : ∀ a b, R a b → Agree strict S (next a) (next' b)) :
    Agree strict S (first >>= next) (second >>= next') := by
  match first, second, h with
  | .ok a, .ok b, h => exact hnext a b h
  | .error _, .error _, h => exact h

theorem trans {γ : Type} {S : β → γ → Prop} {T : α → γ → Prop} {third : Except ε γ}
    (h : Agree strict R first second) (h' : Agree strict S second third)
    (hcomp : ∀ a b c, R a b → S b c → T a c) : Agree strict T first third := by
  match first, second, third, h, h' with
  | .ok a, .ok b, .ok c, h, h' => exact hcomp a b c h h'
  | .error _, .error _, .error _, h, h' => exact fun hstrict => (h hstrict).trans (h' hstrict)

theorem of_map_eq {γ : Type} {f : α → γ} {g : β → γ} (h : first.map f = second.map g) :
    Agree strict (fun a b => f a = g b) first second := by
  match first, second, h with
  | .ok _, .ok _, h => exact Except.ok.inj h
  | .error _, .error _, h => exact fun _ => Except.error.inj h

theorem map {γ δ : Type} {S : γ → δ → Prop} {f : α → γ} {g : β → δ}
    (h : Agree strict R first second) (hmap : ∀ a b, R a b → S (f a) (g b)) :
    Agree strict S (first.map f) (second.map g) := by
  match first, second, h with
  | .ok a, .ok b, h => exact hmap a b h
  | .error _, .error _, h => exact h

theorem map_left {γ : Type} {S : γ → β → Prop} {f : α → γ} (h : Agree strict R first second)
    (hmap : ∀ a b, R a b → S (f a) b) : Agree strict S (first.map f) second := by
  match first, second, h with
  | .ok a, .ok b, h => exact hmap a b h
  | .error _, .error _, h => exact h

/-- Only the first computation goes on, with a result of its own. -/
theorem andThen_ok {γ : Type} {S : γ → β → Prop} {f : α → γ} (h : Agree strict R first second)
    (hmap : ∀ a b, R a b → S (f a) b) :
    Agree strict S (first >>= fun a => .ok (f a)) second := by
  match first, second, h with
  | .ok a, .ok b, h => exact hmap a b h
  | .error _, .error _, h => exact h

theorem mapError {ε' : Type} {f : ε → ε'} (h : Agree strict R first second) :
    Agree strict R (first.mapError f) (second.mapError f) := by
  match first, second, h with
  | .ok _, .ok _, h => exact h
  | .error _, .error _, h => exact fun hstrict => congrArg f (h hstrict)

theorem toOption_map_eq {γ : Type} {f : α → γ} {g : β → γ} (h : Agree strict R first second)
    (hmap : ∀ a b, R a b → f a = g b) : first.toOption.map f = second.toOption.map g := by
  match first, second, h with
  | .ok a, .ok b, h => exact congrArg some (hmap a b h)
  | .error _, .error _, _ => rfl

theorem eq {second : Except ε α} (h : Agree True (· = ·) first second) : first = second := by
  match first, second, h with
  | .ok _, .ok _, h => exact congrArg Except.ok h
  | .error _, .error _, h => exact congrArg Except.error (h trivial)

end Agree

namespace Traced

variable {strict : Prop}

theorem result_bind {α β : Type} (first : Traced α) (next : α → Traced β) :
    (first >>= next).result = first.result >>= fun a => (next a).result := by
  cases h : first.result with
  | error error => rw [bind_error_result next h]; rfl
  | ok a => rw [bind_ok_result next h]; rfl

/-- Traversals agree if they do at every element. -/
theorem agree_each {α β γ δ : Type} {R : γ → δ → Prop} {f : α → Traced γ} {g : β → Traced δ}
    {xs : List α} {ys : List β}
    (h : List.Forall₂ (fun x y => Agree strict R (f x).result (g y).result) xs ys) :
    Agree strict (List.Forall₂ R) (each f xs).result (each g ys).result := by
  induction h with
  | nil => exact List.Forall₂.nil
  | cons hhead _ ih =>
      rw [each, each, result_bind, result_bind]
      refine hhead.bind fun a b hab => ?_
      rw [result_bind, result_bind]
      exact ih.bind fun as bs hrest => List.Forall₂.cons hab hrest

end Traced

/-! ## Skeletons -/

mutual

/-- The tree below a field without the marks of refinement. -/
def Field.skeleton : Field → Field
  | ⟨name, aliasName, arguments, description, deprecationReason, type, _, condition, shapes⟩ =>
      ⟨name, aliasName, arguments, description, deprecationReason, type, false, condition,
        skeletonsOfShapes shapes⟩

/-- Shapes without the marks of refinement. -/
def skeletonsOfShapes : List (ShapeOf Field) → List (ShapeOf Field)
  | [] => []
  | shape :: rest => skeletonOfShape shape :: skeletonsOfShapes rest

/-- A shape without the marks of refinement. -/
def skeletonOfShape : ShapeOf Field → ShapeOf Field
  | ⟨path, responseName, typeSet, fieldType, fields, possibleTypes, _⟩ =>
      ⟨path, responseName, typeSet, fieldType, skeletonsOfFields fields, possibleTypes, []⟩

/-- Fields without the marks of refinement. -/
def skeletonsOfFields : List Field → List Field
  | [] => []
  | field :: rest => field.skeleton :: skeletonsOfFields rest

end

theorem skeletonsOfFields_eq (fields : List Field) :
    skeletonsOfFields fields = fields.map Field.skeleton := by
  induction fields with
  | nil => rfl
  | cons field rest ih => rw [skeletonsOfFields, ih, List.map_cons]

theorem skeletonsOfShapes_eq (shapes : List Shape) :
    skeletonsOfShapes shapes = shapes.map skeletonOfShape := by
  induction shapes with
  | nil => rfl
  | cons shape rest ih => rw [skeletonsOfShapes, ih, List.map_cons]

/-- Two fields have the same skeleton; in a strict comparison they are the same. -/
def Field.Like (strict : Prop) (field field' : Field) : Prop :=
  field.skeleton = field'.skeleton ∧ (strict → field = field')

/-- Two shapes have the same skeleton; in a strict comparison they are the same. -/
def ShapeOf.Like (strict : Prop) (shape shape' : Shape) : Prop :=
  skeletonOfShape shape = skeletonOfShape shape' ∧ (strict → shape = shape')

theorem map_eq_of_forall₂ {α β : Type} {f : α → β} {strict : Prop} {xs ys : List α}
    (h : List.Forall₂ (fun x y => f x = f y ∧ (strict → x = y)) xs ys) :
    xs.map f = ys.map f ∧ (strict → xs = ys) := by
  induction h with
  | nil => exact ⟨rfl, fun _ => rfl⟩
  | cons hhead _ ih =>
      exact ⟨by rw [List.map_cons, List.map_cons, hhead.1, ih.1],
        fun hstrict => by rw [hhead.2 hstrict, ih.2 hstrict]⟩

/-- Fields that share everything but their marks and their shapes are alike if their shapes are. -/
theorem Field.like_of_shapes {strict : Prop} {field field' : Field}
    (hshapes : List.Forall₂ (ShapeOf.Like strict) field.shapes field'.shapes)
    (hrest : field' = { field with isOverride := field'.isOverride, shapes := field'.shapes })
    (hoverride : strict → field.isOverride = field'.isOverride) : field.Like strict field' := by
  obtain ⟨hskeletons, hsame⟩ := map_eq_of_forall₂ hshapes
  rw [hrest]
  cases field
  constructor
  · simp only [skeleton, skeletonsOfShapes_eq, hskeletons]
  · intro hstrict
    simp only [← hsame hstrict, ← hoverride hstrict]

/-- Shapes that share everything but their fields and what they refine are alike if their fields
are. -/
theorem ShapeOf.like_of_fields {strict : Prop} {shape shape' : Shape}
    (hfields : List.Forall₂ (Field.Like strict) shape.fields shape'.fields)
    (hrest : shape' = { shape with fields := shape'.fields, implements := shape'.implements })
    (himplements : strict → shape.implements = shape'.implements) : shape.Like strict shape' := by
  obtain ⟨hskeletons, hsame⟩ := map_eq_of_forall₂ hfields
  rw [hrest]
  cases shape
  constructor
  · simp only [skeletonOfShape, skeletonsOfFields_eq, hskeletons]
  · intro hstrict
    simp only [← hsame hstrict, ← himplements hstrict]

/-! ## Simulation -/

namespace Builder

/-- Merged occurrences that give the same field, apart from what is selected below them; for a
field with sub-selections the requests below are related. -/
structure EntryLike (strict : Prop) (builder builder' : Builder) (R : Request → Request → Prop)
    (entry entry' : Name × Merged) : Prop where
  name : entry.1 = entry'.1
  node : (builder.narrowest entry.2).node = (builder'.narrowest entry'.2).node
  definition : (builder.narrowest entry.2).definition = (builder'.narrowest entry'.2).definition
  condition : Condition.any (entry.2.occurrences.map Occurrence.condition) =
    Condition.any (entry'.2.occurrences.map Occurrence.condition)
  below : ∀ type, builder.schema.modelType (builder.narrowest entry.2).definition.type = .ok type →
    type.leaf.isComposite = true → ∀ path parents parents', (strict → parents = parents') →
    R (builder.requestBelow path parents entry) (builder'.requestBelow path parents' entry')

/-- What is collected for a type set gives the same fields and, in a strict comparison, the same
candidates of refinement. -/
structure CollectedLike (strict : Prop) (builder builder' : Builder)
    (R : Request → Request → Prop) (request request' : Request) (typeSet : TypeSet)
    (collected collected' : Collected) : Prop where
  fields : List.Forall₂ (EntryLike strict builder builder' R) collected.fields collected'.fields
  candidates : strict → ∀ earlier, builder.candidates request earlier typeSet collected.fragments =
    builder'.candidates request' earlier typeSet collected'.fragments

/-- A relation of requests that is kept from level to level. -/
structure Simulation (strict : Prop) (builder builder' : Builder)
    (R : Request → Request → Prop) : Prop where
  schema : builder.schema = builder'.schema
  sameField : ∀ {request request'}, R request request' →
    request.fieldType = request'.fieldType ∧ request.responseName = request'.responseName ∧
      request.path = request'.path
  conditions : ∀ {request request'}, R request request' →
    Agree strict (fun conditions conditions' =>
      builder.schema.typeSets request.fieldType conditions =
        builder.schema.typeSets request.fieldType conditions')
      (branchConditions request.branches) (branchConditions request'.branches)
  collected : ∀ {request request' conditions typeSet}, R request request' →
    branchConditions request.branches = .ok conditions →
    typeSet ∈ builder.schema.typeSets request.fieldType conditions →
    Agree strict (CollectedLike strict builder builder' R request request' typeSet)
      (collect (builder.schema.applies typeSet (builder.schema.commonTypes typeSet.names))
        request.branches)
      (collect (builder.schema.applies typeSet (builder.schema.commonTypes typeSet.names))
        request'.branches)

variable {strict : Prop} {builder builder' : Builder} {R : Request → Request → Prop}
  {below below' : Request → Traced (List Shape)}

/-- Arguments depend on the schema only. -/
theorem argument_congr (h : builder.schema = builder'.schema) (field : Name)
    (definition : FieldDefinition) (written : Name × Literal) :
    builder.argument field definition written = builder'.argument field definition written := by
  obtain ⟨schema, shapes⟩ := builder
  obtain ⟨schema', shapes'⟩ := builder'
  obtain rfl : schema = schema' := h
  rfl

/-- What a shape refines depends on the response names that are collected, not on the
occurrences. -/
theorem refined_congr {collected collected' : Collected}
    (h : collected.fields.map Prod.fst = collected'.fields.map Prod.fst)
    (possibleTypes : List Name) (seen : List Path) (candidates : List Shape) :
    refined possibleTypes collected seen candidates =
      refined possibleTypes collected' seen candidates := by
  have hselects : collected.selects = collected'.selects := by
    funext name
    rw [Bool.eq_iff_iff, Collected.selects_iff, Collected.selects_iff, h]
  have hrefines : refines possibleTypes collected = refines possibleTypes collected' := by
    funext candidate
    simp only [refines, hselects]
  induction candidates generalizing seen with
  | nil => rfl
  | cons candidate rest ih => simp only [refined, hrefines, ih]

theorem map_fst_eq_of_entryLike {fields fields' : List (Name × Merged)}
    (h : List.Forall₂ (EntryLike strict builder builder' R) fields fields') :
    fields.map Prod.fst = fields'.map Prod.fst := by
  induction h with
  | nil => rfl
  | cons hhead _ ih => rw [List.map_cons, List.map_cons, hhead.name, ih]

/-- The steps that lead to a field, by the occurrence that gives its definition. -/
theorem result_field (builder : Builder) (below : Request → Traced (List Shape)) (path : Path)
    (parents : List Shape) (entry : Name × Merged) :
    (builder.field below path parents entry).result = (do
      let narrowest := builder.narrowest entry.2
      let type ← (Traced.mapType builder.schema narrowest.definition.type).result
      let arguments ← (Traced.each (builder.argument narrowest.node.name narrowest.definition)
        narrowest.node.arguments).result
      let shapes ←
        (belowField below path parents entry.1 entry.2 narrowest.definition type).result
      .ok
        { name := narrowest.node.name
          aliasName := narrowest.node.aliasName
          arguments
          description := narrowest.definition.description
          deprecationReason := deprecationReason? narrowest.definition.directives
          type
          isOverride := parents.any fun parent => (parent.field? entry.1).isSome
          condition := Condition.any (entry.2.occurrences.map Occurrence.condition)
          shapes }) := by
  obtain ⟨name, merged⟩ := entry
  simp only [field, Traced.result_bind]
  rfl

namespace Simulation

variable (h : Simulation strict builder builder' R)
include h

section Level

variable (hbelow : ∀ request request', R request request' →
  Agree strict (List.Forall₂ (ShapeOf.Like strict)) (below request).result
    (below' request').result)
include hbelow

theorem agree_field {path : Path} {parents parents' : List Shape} {entry entry' : Name × Merged}
    (hentry : EntryLike strict builder builder' R entry entry')
    (hparents : strict → parents = parents') :
    Agree strict (Field.Like strict) (builder.field below path parents entry).result
      (builder'.field below' path parents' entry').result := by
  have hargument := funext (argument_congr h.schema (builder.narrowest entry.2).node.name
    (builder.narrowest entry.2).definition)
  simp only [result_field, ← hentry.node, ← hentry.definition, ← hentry.condition, ← hentry.name,
    ← h.schema, ← hargument]
  refine (Agree.refl _).bind ?_
  rintro type _ ⟨rfl, htype⟩
  refine (Agree.refl _).bind ?_
  rintro arguments _ ⟨rfl, -⟩
  refine Agree.bind (R := List.Forall₂ (ShapeOf.Like strict)) ?_ fun shapes shapes' hshapes => ?_
  · unfold belowField
    cases hcomposite : type.leaf.isComposite with
    | false => exact List.Forall₂.nil
    | true =>
        rw [if_pos rfl, if_pos rfl]
        have hrequest := hentry.below type (Traced.result_mapType.1 htype) hcomposite path
          parents parents' hparents
        rw [requestBelow, requestBelow, ← hentry.definition, ← hentry.name] at hrequest
        exact hbelow _ _ hrequest
  · exact Field.like_of_shapes hshapes rfl fun hstrict => by rw [hparents hstrict]

theorem agree_shape {request request' : Request} {conditions : List Name} {typeSet : TypeSet}
    {earlier earlier' : List Shape} (hrequest : R request request')
    (hconditions : branchConditions request.branches = .ok conditions)
    (htypeSet : typeSet ∈ builder.schema.typeSets request.fieldType conditions)
    (hearlier : strict → earlier = earlier') :
    Agree strict (ShapeOf.Like strict) (builder.shape below request earlier typeSet).result
      (builder'.shape below' request' earlier' typeSet).result := by
  obtain ⟨hfieldType, hresponseName, hpath⟩ := h.sameField hrequest
  simp only [shape, Traced.result_bind, ← h.schema, ← hfieldType, ← hresponseName, ← hpath]
  refine (h.collected hrequest hconditions htypeSet).mapError.bind ?_
  intro collected collected' hcollected
  have hparents : strict →
      refined (builder.schema.commonTypes typeSet.names) collected []
        (builder.candidates request earlier typeSet collected.fragments) =
      refined (builder.schema.commonTypes typeSet.names) collected' []
        (builder'.candidates request' earlier' typeSet collected'.fragments) := by
    intro hstrict
    rw [← hearlier hstrict, ← hcollected.candidates hstrict,
      refined_congr (map_fst_eq_of_entryLike hcollected.fields)]
  refine (Traced.agree_each (hcollected.fields.imp fun entry entry' hentry =>
    h.agree_field hbelow hentry hparents)).bind fun fields fields' hfields => ?_
  exact ShapeOf.like_of_fields hfields rfl fun hstrict => by rw [hparents hstrict]

theorem agree_shapesFrom {request request' : Request} {conditions : List Name}
    {typeSets : List TypeSet} {earlier earlier' : List Shape} (hrequest : R request request')
    (hconditions : branchConditions request.branches = .ok conditions)
    (htypeSets : ∀ typeSet ∈ typeSets,
      typeSet ∈ builder.schema.typeSets request.fieldType conditions)
    (hearlier : List.Forall₂ (ShapeOf.Like strict) earlier earlier') :
    Agree strict (List.Forall₂ (ShapeOf.Like strict))
      (builder.shapesFrom below request earlier typeSets).result
      (builder'.shapesFrom below' request' earlier' typeSets).result := by
  induction typeSets generalizing earlier earlier' with
  | nil => exact hearlier
  | cons typeSet rest ih =>
      rw [shapesFrom, shapesFrom, Traced.result_bind, Traced.result_bind]
      have hshape := h.agree_shape hbelow hrequest hconditions
        (htypeSets typeSet List.mem_cons_self) (map_eq_of_forall₂ hearlier).2
      refine hshape.bind fun shape shape' hlike => ?_
      exact ih (fun other hother => htypeSets other (List.mem_cons_of_mem _ hother))
        (List.rel_append hearlier (.cons hlike .nil))

/-- One level: what holds of the requests below holds of the request. -/
theorem agree_level {request request' : Request} (hrequest : R request request') :
    Agree strict (List.Forall₂ (ShapeOf.Like strict)) (builder.level below request).result
      (builder'.level below' request').result := by
  rw [level, level, Traced.result_bind, Traced.result_bind, ← h.schema,
    ← (h.sameField hrequest).1]
  have hconditions := (h.conditions hrequest).imp
    (S := fun conditions conditions' => branchConditions request.branches = .ok conditions ∧
      builder.schema.typeSets request.fieldType conditions =
        builder.schema.typeSets request.fieldType conditions')
    fun conditions conditions' hok hsame => ⟨hok, hsame⟩
  refine hconditions.mapError.bind ?_
  rintro conditions conditions' ⟨hok, hsame⟩
  rw [← hsame]
  exact h.agree_shapesFrom hbelow hrequest hok (fun _ htypeSet => htypeSet) .nil

end Level

/-- **Related requests have like shapes.** -/
theorem shapes {request request' : Request} (hrequest : R request request') (depth : Nat) :
    Agree strict (List.Forall₂ (ShapeOf.Like strict)) (builder.shapes depth request).result
      (builder'.shapes depth request').result := by
  induction depth generalizing request request' with
  | zero =>
      have hbelow : ∀ request request', R request request' →
          Agree strict (List.Forall₂ (ShapeOf.Like strict)) (Traced.ok []).result
            (Traced.ok []).result := fun _ _ _ => List.Forall₂.nil
      exact h.agree_level hbelow hrequest
  | succ depth ih => exact h.agree_level (fun _ _ hrequest => ih hrequest) hrequest

/-- Fields at the top of a tree are alike if their requests are related. -/
theorem dataField {type : Name} {selections selections' : List Resolved} {root : Path}
    (hrequest : R (rootRequest type selections root) (rootRequest type selections' root))
    (hdepth : Resolved.depthAll selections = Resolved.depthAll selections') :
    Agree strict (Field.Like strict) (builder.dataField type selections root).result
      (builder'.dataField type selections' root).result := by
  unfold Builder.dataField
  rw [← h.schema, ← hdepth]
  split
  · exact fun _ => rfl
  · rw [Traced.result_bind, Traced.result_bind]
    refine (h.shapes hrequest _).bind fun shapes shapes' hshapes => ?_
    exact Field.like_of_shapes hshapes rfl fun _ => rfl

end Simulation

end Builder

end ResponseModel

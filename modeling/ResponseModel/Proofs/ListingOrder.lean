import ResponseModel.Proofs.Agreement
import ResponseModel.Proofs.Listing

/-!
# Declarations, whatever the order of the types

The types of a model are found in some order, and the input objects that they need are listed in
that order.  Two listings that start from the same types in different orders go through the same
rounds: what a round lists are the same input objects, and after it the same types are needed
(`Listing.Same.agree_foldlM`), or both listings fail, though they may stop at different input
objects.  The declarations are read off in the order of the schema.  Main statement:
`agree_ofMarks`, they depend on the set of marked types only.
-/

namespace ResponseModel

namespace Declarations

variable {schema : Schema}

/-! ## Rounds -/

/-- An input object has the name that it is listed by. -/
theorem name_of_inputObject {name : Name} {object : InputObject}
    (h : inputObject schema name = .ok object) : object.name = name := by
  obtain ⟨definition, hdefinition, _, _, hname, -⟩ := inputObject_eq_ok.1 h
  rw [hname, Schema.name_of_type? hdefinition]

/-- A round lists the input objects of its names, and the types of all their fields are needed. -/
theorem foldlM_add_eq_ok {names : List Name} {listing final : Listing} :
    names.foldlM (Listing.add schema) listing = .ok final ↔
      ∃ objects, List.Forall₂ (fun name object => inputObject schema name = .ok object)
          names objects ∧
        final = ⟨listing.needed.addAll
          (objects.flatMap fun object => object.fields.map fun field => field.type.leaf),
          listing.listed ++ objects⟩ := by
  induction names generalizing listing with
  | nil => simp [pure, Except.pure, NeededTypes.addAll, eq_comm]
  | cons name rest ih =>
      simp only [List.foldlM_cons, Listing.add, except_bind_eq_ok, ih, Except.ok.injEq,
        List.forall₂_cons_left_iff]
      constructor
      · rintro ⟨_, ⟨object, hobject, rfl⟩, objects, hobjects, rfl⟩
        refine ⟨object :: objects, ⟨object, objects, hobject, hobjects, rfl⟩, ?_⟩
        simp [NeededTypes.addAll]
      · rintro ⟨_, ⟨object, objects, hobject, hobjects, rfl⟩, rfl⟩
        refine ⟨_, ⟨object, hobject, rfl⟩, objects, hobjects, ?_⟩
        simp [NeededTypes.addAll]

/-- In both listings the same types are needed, and the same input objects are listed, each as the
schema gives it. -/
structure Listing.Same (schema : Schema) (listing listing' : Listing) : Prop where
  needed : ∀ type, type ∈ listing.needed.types ↔ type ∈ listing'.needed.types
  listed : ∀ object, object ∈ listing.listed ↔ object ∈ listing'.listed
  made : ∀ object ∈ listing.listed, inputObject schema object.name = .ok object

/-- The results for the members of a list, in terms of its set of members. -/
theorem mem_iff_of_forall₂_inputObject {names : List Name} {objects : List InputObject}
    (h : List.Forall₂ (fun name object => inputObject schema name = .ok object) names objects)
    {object : InputObject} :
    object ∈ objects ↔ ∃ name ∈ names, inputObject schema name = .ok object := by
  constructor
  · exact exists_of_forall₂_of_mem h
  · rintro ⟨name, hname, hobject⟩
    obtain ⟨other, hother, hmade⟩ := exists_of_forall₂_of_mem h.flip hname
    rwa [← Except.ok.inj (hmade.symm.trans hobject)]

namespace Listing.Same

variable {listing listing' : Listing}

theorem symm (h : listing.Same schema listing') : listing'.Same schema listing :=
  ⟨fun type => (h.needed type).symm, fun object => (h.listed object).symm,
    fun object hobject => h.made object ((h.listed object).2 hobject)⟩

theorem mem_pending (h : listing.Same schema listing') {name : Name} :
    name ∈ listing.pending ↔ name ∈ listing'.pending := by
  simp only [Listing.mem_pending, List.mem_map, ← NeededTypes.mem_types_inputObject, h.needed,
    h.listed]

/-- A round that succeeds in one of the listings succeeds in the other. -/
theorem exists_foldlM (h : listing.Same schema listing') {names names' : List Name}
    (hnames : ∀ name, name ∈ names ↔ name ∈ names') {final : Listing}
    (hfinal : names.foldlM (Listing.add schema) listing = .ok final) :
    ∃ final', names'.foldlM (Listing.add schema) listing' = .ok final' ∧
      final.Same schema final' := by
  obtain ⟨objects, hobjects, rfl⟩ := foldlM_add_eq_ok.1 hfinal
  have hmade : ∀ name ∈ names', ∃ object, inputObject schema name = .ok object := by
    intro name hname
    obtain ⟨object, -, hobject⟩ := exists_of_forall₂_of_mem hobjects.flip ((hnames name).2 hname)
    exact ⟨object, hobject⟩
  obtain ⟨objects', hobjects'⟩ := exists_forall₂_of_forall_mem hmade
  have hmem : ∀ object, object ∈ objects ↔ object ∈ objects' := by
    intro object
    rw [mem_iff_of_forall₂_inputObject hobjects, mem_iff_of_forall₂_inputObject hobjects']
    simp only [hnames]
  refine ⟨_, foldlM_add_eq_ok.2 ⟨objects', hobjects', rfl⟩, ?_, ?_, ?_⟩
  · intro type
    simp only [NeededTypes.mem_types_addAll, List.mem_flatMap, h.needed, hmem]
  · intro object
    simp only [List.mem_append, h.listed, hmem]
  · intro object hobject
    rcases List.mem_append.1 hobject with hobject | hobject
    · exact h.made object hobject
    · obtain ⟨name, -, hname⟩ := exists_of_forall₂_of_mem hobjects hobject
      rw [name_of_inputObject hname]
      exact hname

theorem agree_foldlM (h : listing.Same schema listing') {names names' : List Name}
    (hnames : ∀ name, name ∈ names ↔ name ∈ names') :
    Agree False (Listing.Same schema) (names.foldlM (Listing.add schema) listing)
      (names'.foldlM (Listing.add schema) listing') := by
  refine .of_ok (fun final hfinal => h.exists_foldlM hnames hfinal) fun final' hfinal' => ?_
  obtain ⟨final, hfinal, -⟩ := h.symm.exists_foldlM (fun name => (hnames name).symm) hfinal'
  exact ⟨final, hfinal⟩

/-- All rounds keep listings the same. -/
theorem agree_complete (h : listing.Same schema listing') (fuel : Nat) :
    Agree False (Listing.Same schema) (Listing.complete schema fuel listing)
      (Listing.complete schema fuel listing') := by
  induction fuel generalizing listing listing' with
  | zero => exact h
  | succ fuel ih =>
      have hpending : ∀ name, name ∈ listing.pending ↔ name ∈ listing'.pending :=
        fun name => h.mem_pending
      rw [complete, complete]
      cases hnames : listing.pending with
      | nil =>
          have hnil : listing'.pending = [] := by
            rw [List.eq_nil_iff_forall_not_mem]
            intro name hname
            have hmem := (hpending name).2 hname
            rw [hnames] at hmem
            exact List.not_mem_nil hmem
          rw [hnil]
          exact h
      | cons name rest =>
          cases hnames' : listing'.pending with
          | nil =>
              have hmem := (hpending name).1 (hnames ▸ List.mem_cons_self)
              rw [hnames'] at hmem
              exact absurd hmem List.not_mem_nil
          | cons name' rest' =>
              rw [hnames, hnames'] at hpending
              exact (h.agree_foldlM hpending).bind fun _ _ hsame => ih hsame

/-! ## The listed declarations -/

/-- The schema gives one input object for a name, wherever it stands in the list. -/
theorem find?_eq (h : listing.Same schema listing') (name : Name) :
    listing.listed.find? (·.name = name) = listing'.listed.find? (·.name = name) := by
  cases hfound : listing.listed.find? (·.name = name) with
  | none =>
      rw [List.find?_eq_none] at hfound
      exact (List.find?_eq_none.2 fun object hobject =>
        hfound object ((h.listed object).2 hobject)).symm
  | some object =>
      have hobject := List.mem_of_find?_eq_some hfound
      have hname := List.find?_some hfound
      cases hfound' : listing'.listed.find? (·.name = name) with
      | none =>
          rw [List.find?_eq_none] at hfound'
          exact absurd hname (hfound' object ((h.listed object).1 hobject))
      | some object' =>
          have hmade' := h.symm.made object' (List.mem_of_find?_eq_some hfound')
          have hname' := List.find?_some hfound'
          simp only [decide_eq_true_eq] at hname hname'
          rw [hname', ← hname, h.made object hobject] at hmade'
          exact congrArg some (Except.ok.inj hmade')

theorem listedObject?_eq (h : listing.Same schema listing') :
    listedObject? listing = listedObject? listing' := by
  funext definition
  simp only [listedObject?, h.find?_eq]

theorem neededEnum?_eq (h : listing.Same schema listing') :
    neededEnum? listing.needed = neededEnum? listing'.needed := by
  funext definition
  simp only [neededEnum?, ← NeededTypes.mem_types_enum, h.needed]

theorem neededScalar?_eq (h : listing.Same schema listing') :
    neededScalar? listing.needed = neededScalar? listing'.needed := by
  funext definition
  simp only [neededScalar?, ← NeededTypes.mem_types_customScalar, h.needed]

end Listing.Same

/-- **Declarations depend on the set of marked types only.** -/
theorem agree_ofMarks (schema : Schema) (config : Config) {marks marks' : List NamedType}
    (h : ∀ type, type ∈ marks ↔ type ∈ marks') :
    Agree False (· = ·) (ofMarks schema config marks) (ofMarks schema config marks') := by
  have hstart : Listing.Same schema
      ⟨schema.types.foldl (NeededTypes.addConfigured config) (NeededTypes.empty.addAll marks), []⟩
      ⟨schema.types.foldl (NeededTypes.addConfigured config) (NeededTypes.empty.addAll marks'),
        []⟩ := by
    refine ⟨fun type => ?_, fun object => Iff.rfl, fun object hobject => ?_⟩
    · simp only [NeededTypes.mem_types_foldl_addConfigured, NeededTypes.mem_types_addAll, h]
    · exact absurd hobject List.not_mem_nil
  refine (hstart.agree_complete _).bind fun listing listing' hsame => ?_
  rw [hsame.listedObject?_eq, hsame.neededEnum?_eq, hsame.neededScalar?_eq]
  exact rfl

end Declarations

end ResponseModel

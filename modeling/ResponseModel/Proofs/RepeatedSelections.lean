import ResponseModel.Proofs.CanonicalConditions
import ResponseModel.Proofs.PlainFragments
import ResponseModel.Proofs.Repetitions

/-!
# Repeated selections

A selection set may hold the same selection twice.  The copy comes after the original, so all that
is found in it was found before: flattening finds the same pieces in the order of their first
occurrence.  One level down, a field that was repeated has the same selection set twice, and a field
around it has a selection set in which something is repeated (`Flat.Echoes`, `Branch.Echoes`).

Nothing that is made from the pieces takes notice.  Response names and fragments are in the order of
their first occurrence (`forall₂_ofFlat_of_distinct`), the first occurrence on the narrowest type
stays the first (`Merged.leastBy_congr`), and merged conditions and type sets do not depend on
repetitions at all.  Main statement: `dataField_repeated`.
-/

namespace ResponseModel

open scoped Classical

/-! ## Copies of selections -/

/-- A copy of a selection is put at the end of the selection set that it belongs to, at any depth of
the first selections. -/
inductive Selection.Repeats : List Selection → List Selection → Prop
  | here {selections : List Selection} {selection : Selection} :
      selection ∈ selections → Repeats selections (selections ++ [selection])
  | field {before after : List Selection} {node : FieldNode} {below below' : List Selection} :
      Repeats below below' →
      Repeats (before ++ .field node below :: after) (before ++ .field node below' :: after)
  | inline {before after : List Selection} {condition : Option Name} {directives : List Directive}
      {below below' : List Selection} :
      Repeats below below' →
      Repeats (before ++ .inline condition directives below :: after)
        (before ++ .inline condition directives below' :: after)

/-- The same for resolved selections; or the selections are the same. -/
inductive Resolved.Repeats : List Resolved → List Resolved → Prop
  | same (selections : List Resolved) : Repeats selections selections
  | here {selections : List Resolved} {selection : Resolved} :
      selection ∈ selections → Repeats selections (selections ++ [selection])
  | field {before after : List Resolved} {parent : Name} {node : FieldNode}
      {definition : FieldDefinition} {below below' : List Resolved} :
      Repeats below below' →
      Repeats (before ++ .field parent node definition below :: after)
        (before ++ .field parent node definition below' :: after)
  | inline {before after : List Resolved} {condition : Option Name} {type : Name}
      {directives : List Directive} {below below' : List Resolved} :
      Repeats below below' →
      Repeats (before ++ .inline condition type directives below :: after)
        (before ++ .inline condition type directives below' :: after)

/-- Something is repeated in the first selection, which gives the second. -/
def Resolved.RepeatsIn (selection selection' : Resolved) : Prop :=
  ∀ earlier later, Repeats (earlier ++ selection :: later) (earlier ++ selection' :: later)

/-- What is put together from a list is related if one element is exchanged for another one, and
what the two contribute is related, whatever is around it. -/
theorem agree_around {ε α β : Type} {strict : Prop} {one : α → Except ε (List β)}
    (all : List α → Except ε (List β)) (hnil : all [] = .ok [])
    (hcons : ∀ x rest, all (x :: rest) = (do let xs ← one x; let ys ← all rest; .ok (xs ++ ys)))
    {R : List β → List β → Prop} {x x' : α} (before after : List α)
    (h : Agree strict (fun xs xs' => ∀ earlier later, R (earlier ++ (xs ++ later))
      (earlier ++ (xs' ++ later))) (one x) (one x')) :
    Agree strict R (all (before ++ x :: after)) (all (before ++ x' :: after)) := by
  rw [except_append_of_cons all hnil hcons, except_append_of_cons all hnil hcons, hcons, hcons]
  refine (Agree.refl _).bind ?_
  rintro earlier _ ⟨rfl, -⟩
  have hpart : Agree strict (fun part part' => R (earlier ++ part) (earlier ++ part'))
      (do let xs ← one x; let ys ← all after; .ok (xs ++ ys))
      (do let xs ← one x'; let ys ← all after; .ok (xs ++ ys)) := by
    refine h.bind fun xs xs' hxs => (Agree.refl _).bind ?_
    rintro later _ ⟨rfl, -⟩
    exact hxs earlier later
  exact hpart.bind fun part part' hrelated => hrelated

/-! ## Resolving -/

namespace Selection

variable {schema : Schema} {target : Name → List Directive → Except UndefinedField Resolved}

/-- A repeated selection is resolved to a repeated one. -/
theorem Repeats.agree_resolveAll {written written' : List Selection} (h : Repeats written written')
    (parent : Name) : Agree True Resolved.Repeats (resolveAll schema target parent written)
      (resolveAll schema target parent written') := by
  induction h generalizing parent with
  | @here selections selection hmem =>
      rw [resolveAll_append]
      cases hresolve : resolveAll schema target parent selections with
      | error error => exact fun _ => rfl
      | ok resolved =>
          obtain ⟨own, hown, hsub⟩ := exists_one_of_mem _ (resolveAll_cons parent) hresolve hmem
          obtain ⟨first, hfirst, rfl⟩ := except_map_eq_ok.1 hown
          simp only [resolveAll, hfirst]
          exact Resolved.Repeats.here (hsub (List.mem_singleton_self first))
  | @field before after node below below' _ ih =>
      refine agree_around (resolveAll schema target parent) rfl (resolveAll_cons parent) before
        after ?_
      rw [resolve, resolve]
      cases schema.field? parent node.name with
      | none => exact fun _ => rfl
      | some definition =>
          refine Agree.map (R := Resolved.RepeatsIn) ?_ fun _ _ hrepeats => hrepeats
          exact (ih _).map fun _ _ hbelow _ _ => .field hbelow
  | @inline before after condition directives below below' _ ih =>
      refine agree_around (resolveAll schema target parent) rfl (resolveAll_cons parent) before
        after ?_
      rw [resolve, resolve]
      refine Agree.map (R := Resolved.RepeatsIn) ?_ fun _ _ hrepeats => hrepeats
      exact (ih _).map fun _ _ hbelow _ _ => .inline hbelow

end Selection

/-! ## Flattening -/

/-- The second pieces are the first ones, up to copies of selections below them, and up to pieces
that are found again. -/
def Flat.Echoes (pieces pieces' : List Flat) : Prop :=
  ∃ middle, Flat.Like True Resolved.Repeats pieces middle ∧ distinct middle = distinct pieces'

theorem Flat.Echoes.of_distinct {pieces pieces' : List Flat}
    (h : distinct pieces = distinct pieces') : Flat.Echoes pieces pieces' :=
  ⟨pieces, .refl .same pieces, h⟩

theorem Flat.Echoes.append {first first' second second' : List Flat}
    (h : Flat.Echoes first first') (h' : Flat.Echoes second second') :
    Flat.Echoes (first ++ second) (first' ++ second') := by
  obtain ⟨middle, hlike, hdistinct⟩ := h
  obtain ⟨middle', hlike', hdistinct'⟩ := h'
  exact ⟨middle ++ middle', hlike.append hlike', distinct_append_congr hdistinct hdistinct'⟩

theorem Flat.Echoes.around {pieces pieces' : List Flat} (h : Flat.Echoes pieces pieces')
    (earlier later : List Flat) :
    Flat.Echoes (earlier ++ (pieces ++ later)) (earlier ++ (pieces' ++ later)) :=
  .append (.of_distinct rfl) (h.append (.of_distinct rfl))

namespace Resolved

variable {selections selections' : List Resolved}

theorem distinct_concat_of_mem {selection : Resolved} (h : selection ∈ selections) :
    distinct (selections ++ [selection]) = distinct selections :=
  distinct_append_of_subset (List.cons_subset.2 ⟨h, List.nil_subset _⟩)

/-- Flattening finds nothing new in a copy. -/
theorem Repeats.agree_flattenAll (h : Repeats selections selections') (applies : Name → Bool)
    (condition : Condition) :
    Agree True Flat.Echoes (flattenAll applies condition selections)
      (flattenAll applies condition selections') := by
  induction h generalizing condition with
  | same selections =>
      refine (Agree.refl _).imp ?_
      rintro pieces _ - ⟨rfl, -⟩
      exact .of_distinct rfl
  | here hmem =>
      have hsame := map_distinct_congr (flattenAll applies condition) rfl (fun _ _ => rfl)
        (distinct_concat_of_mem hmem).symm
      exact (Agree.of_map_eq hsame).imp fun _ _ _ => .of_distinct
  | @field before after parent node definition below below' hbelow _ =>
      refine agree_around (flattenAll applies condition) rfl (fun _ _ => rfl) before after ?_
      rw [flatten, flatten]
      refine (Agree.refl _).bind ?_
      rintro own _ ⟨rfl, -⟩
      refine Flat.Echoes.around
        ⟨[.occurrence ⟨parent, node, definition, below', condition.and own⟩], ?_, rfl⟩
      exact ⟨.cons ⟨rfl, rfl, rfl, rfl, hbelow⟩ .nil, fun _ => rfl⟩
  | @inline before after written type directives below below' _ ih =>
      refine agree_around (flattenAll applies condition) rfl (fun _ _ => rfl) before after ?_
      rw [flatten, flatten]
      split
      · refine (Agree.refl _).bind ?_
        rintro own _ ⟨rfl, -⟩
        exact (ih (condition.and own)).imp fun _ _ _ => Flat.Echoes.around
      · exact Flat.Echoes.around (.of_distinct rfl)

/-- There are no new type conditions in a copy. -/
theorem Repeats.agree_typeConditionsAll (h : Repeats selections selections') :
    Agree True (fun conditions conditions' => distinct conditions = distinct conditions')
      (typeConditionsAll selections) (typeConditionsAll selections') := by
  induction h with
  | same selections => exact Agree.of_map_eq rfl
  | here hmem =>
      exact Agree.of_map_eq (map_distinct_congr typeConditionsAll rfl (fun _ _ => rfl)
        (distinct_concat_of_mem hmem).symm)
  | @field before after parent node definition below below' _ _ =>
      exact agree_around typeConditionsAll rfl (fun _ _ => rfl) before after fun _ _ => rfl
  | @inline before after condition type directives below below' _ ih =>
      refine agree_around typeConditionsAll rfl (fun _ _ => rfl) before after ?_
      rw [typeConditions, typeConditions]
      refine ih.map fun _ _ hbelow earlier later => ?_
      exact distinct_append_congr rfl
        (distinct_append_congr (distinct_append_congr rfl hbelow) rfl)

theorem depth_le_depthAll {selection : Resolved} (h : selection ∈ selections) :
    depth selection ≤ depthAll selections := by
  induction selections with
  | nil => exact absurd h List.not_mem_nil
  | cons first rest ih =>
      rw [depthAll]
      rcases List.mem_cons.1 h with rfl | h
      · exact Nat.le_max_left _ _
      · exact Nat.le_trans (ih h) (Nat.le_max_right _ _)

theorem Repeats.depthAll_eq (h : Repeats selections selections') :
    depthAll selections = depthAll selections' := by
  induction h with
  | same selections => rfl
  | @here selections selection hmem =>
      have hle := depth_le_depthAll hmem
      simp only [depthAll_append, depthAll]
      omega
  | field _ ih => simp only [depthAll_append, depthAll, depth, ih]
  | inline _ ih => simp only [depthAll_append, depthAll, depth, ih]

end Resolved

/-- The second selection sets are the first ones, up to copies of selections in them, and up to
selection sets that come again. -/
def Branch.Echoes (branches branches' : List Branch) : Prop :=
  ∃ middle, List.Forall₂ (fun branch branch' : Branch => Resolved.Repeats branch.1 branch'.1 ∧
    branch.2 = branch'.2) branches middle ∧ distinct middle = distinct branches'

namespace Branch.Echoes

variable {branches branches' : List Branch}

theorem agree_flattenBranches (h : Branch.Echoes branches branches') (applies : Name → Bool) :
    Agree True Flat.Echoes (flattenBranches applies branches)
      (flattenBranches applies branches') := by
  obtain ⟨middle, hbranches, hdistinct⟩ := h
  have hcopies : Agree True Flat.Echoes (flattenBranches applies branches)
      (flattenBranches applies middle) := by
    clear hdistinct
    induction hbranches with
    | nil => exact Flat.Echoes.of_distinct rfl
    | @cons branch branch' _ _ hhead _ ih =>
        have hfirst := hhead.1.agree_flattenAll applies branch.2
        nth_rewrite 2 [hhead.2] at hfirst
        exact hfirst.bind fun _ _ hpieces => ih.bind fun _ _ hmore => hpieces.append hmore
  have hagain := map_distinct_congr (flattenBranches applies) rfl (fun _ _ => rfl) hdistinct
  refine hcopies.trans (Agree.of_map_eq hagain) ?_
  rintro pieces between pieces' ⟨middle, hlike, hsame⟩ hsame'
  exact ⟨middle, hlike, hsame.trans hsame'⟩

theorem agree_branchConditions (h : Branch.Echoes branches branches') :
    Agree True (fun conditions conditions' => distinct conditions = distinct conditions')
      (branchConditions branches) (branchConditions branches') := by
  obtain ⟨middle, hbranches, hdistinct⟩ := h
  have hcopies : Agree True
      (fun conditions conditions' => distinct conditions = distinct conditions')
      (branchConditions branches) (branchConditions middle) := by
    clear hdistinct
    induction hbranches with
    | nil => exact Agree.of_map_eq rfl
    | cons hhead _ ih =>
        exact hhead.1.agree_typeConditionsAll.bind fun _ _ hfirst =>
          ih.bind fun _ _ hothers => distinct_append_congr hfirst hothers
  have hagain := map_distinct_congr branchConditions rfl (fun _ _ => rfl) hdistinct
  exact hcopies.trans (Agree.of_map_eq hagain) fun _ _ _ => Eq.trans

end Branch.Echoes

/-! ## Merging -/

/-- The occurrence, if the piece is one. -/
def Flat.occurrence? : Flat → Option Occurrence
  | .occurrence o => some o
  | .fragment _ => none

/-- The fragment, if the piece is one. -/
def Flat.fragment? : Flat → Option Name
  | .occurrence _ => none
  | .fragment name => some name

theorem Flat.occurrences_eq_filterMap (pieces : List Flat) :
    Flat.occurrences pieces = pieces.filterMap Flat.occurrence? := by
  induction pieces with
  | nil => rfl
  | cons piece rest ih =>
      cases piece with
      | occurrence o => exact congrArg (o :: ·) ih
      | fragment name => exact ih

theorem Flat.fragments_eq_filterMap (pieces : List Flat) :
    Flat.fragments pieces = pieces.filterMap Flat.fragment? := by
  induction pieces with
  | nil => rfl
  | cons piece rest ih =>
      cases piece with
      | occurrence o => exact ih
      | fragment name => exact congrArg (name :: ·) ih

/-- Occurrences merged under the same name, up to those that come again. -/
structure Merged.Same (entry entry' : Name × Merged) : Prop where
  name : entry.1 = entry'.1
  occurrences : distinct entry.2.occurrences = distinct entry'.2.occurrences

theorem forall₂_of_map_eq {α β γ : Type} {f : α → γ} {g : β → γ} {R : α → β → Prop} {xs : List α}
    {ys : List β} (h : xs.map f = ys.map g) (hR : ∀ x ∈ xs, ∀ y ∈ ys, f x = g y → R x y) :
    List.Forall₂ R xs ys := by
  have heq : List.Forall₂ (· = ·) (xs.map f) (ys.map g) := h ▸ List.forall₂_refl _
  rw [List.forall₂_map_left_iff, List.forall₂_map_right_iff, List.forall₂_iff_zip] at heq
  rw [List.forall₂_iff_zip]
  refine ⟨heq.1, fun {x y} hzip => ?_⟩
  exact hR x (List.of_mem_zip hzip).1 y (List.of_mem_zip hzip).2 (heq.2 hzip)

/-- Pieces that are found again are merged into what is there. -/
theorem forall₂_ofFlat_of_distinct {pieces pieces' : List Flat}
    (h : distinct pieces = distinct pieces') :
    List.Forall₂ Merged.Same (Collected.ofFlat pieces).fields
      (Collected.ofFlat pieces').fields := by
  have hoccurrences : distinct (Flat.occurrences pieces) = distinct (Flat.occurrences pieces') := by
    rw [Flat.occurrences_eq_filterMap, Flat.occurrences_eq_filterMap]
    exact distinct_filterMap_congr _ h
  have hgroups := groups_ofFlat pieces
  have hgroups' := groups_ofFlat pieces'
  refine forall₂_of_map_eq (f := Prod.fst) (g := Prod.fst) ?_ ?_
  · rw [hgroups.names, hgroups'.names]
    exact distinct_map_congr _ hoccurrences
  · intro entry hentry entry' hentry' hname
    refine ⟨hname, ?_⟩
    rw [hgroups.occurrences entry hentry, hgroups'.occurrences entry' hentry', hname,
      ← List.filterMap_eq_filter]
    exact distinct_filterMap_congr _ hoccurrences

/-- The better of two occurrences, the first of equals. -/
def Merged.better (key : Occurrence → Nat) : Option Occurrence → Occurrence → Option Occurrence
  | none, o => some o
  | some best, o => some (if key o < key best then o else best)

theorem Merged.foldl_better (merged : Merged) (key : Occurrence → Nat) :
    merged.occurrences.foldl (Merged.better key) none = some (merged.leastBy key) := by
  have hfold : ∀ (others : List Occurrence) best, others.foldl (Merged.better key) (some best) =
      some (others.foldl (fun best o => if key o < key best then o else best) best) := by
    intro others
    induction others with
    | nil => exact fun _ => rfl
    | cons o rest ih => exact fun best => ih _
  exact hfold merged.others merged.first

/-- An occurrence that comes again is not better than itself. -/
theorem Merged.leastBy_congr {merged merged' : Merged}
    (h : distinct merged.occurrences = distinct merged'.occurrences) (key : Occurrence → Nat) :
    merged.leastBy key = merged'.leastBy key := by
  apply Option.some.inj
  rw [← Merged.foldl_better, ← Merged.foldl_better]
  refine foldl_congr_distinct (fun occurrences o ho => ?_) h
  cases occurrences with
  | nil => exact absurd ho List.not_mem_nil
  | cons first others =>
      have hle := Merged.leastBy_le key ⟨first, others⟩ o ho
      rw [show (first :: others).foldl (Merged.better key) none = _ from
        Merged.foldl_better ⟨first, others⟩ key, Merged.better, if_neg (Nat.not_lt.2 hle)]

/-! ## Building -/

/-- A request for the same field, up to what comes again in its selection sets. -/
structure Request.Echoes (request request' : Request) : Prop where
  fieldType : request.fieldType = request'.fieldType
  responseName : request.responseName = request'.responseName
  path : request.path = request'.path
  inherited : request.inherited = request'.inherited
  branches : Branch.Echoes request.branches request'.branches

namespace Builder

variable {builder : Builder}

/-- Merged occurrences give the same field, up to copies of selections below them, and up to those
that come again. -/
theorem entryLike_of_like_of_same {entry middle entry' : Name × Merged}
    (hlike : Merged.Like Resolved.Repeats entry middle) (hsame : Merged.Same middle entry') :
    EntryLike True builder builder Request.Echoes entry entry' := by
  have hnarrowest : (builder.narrowest entry.2).Like Resolved.Repeats
      (builder.narrowest entry'.2) := by
    rw [narrowest, narrowest, ← Merged.leastBy_congr hsame.occurrences]
    exact hlike.leastBy fun o o' ho => by rw [ho.parent]
  have hname := hlike.name.trans hsame.name
  refine ⟨hname, hnarrowest.node, hnarrowest.definition, ?_, ?_⟩
  · rw [hlike.map_condition]
    exact Condition.any_congr
      (mem_congr_distinct (distinct_map_congr Occurrence.condition hsame.occurrences))
  · intro type htype hcomposite path parents parents' hparents
    refine ⟨?_, hname, rfl, ?_, middle.2.branches, hlike.branches, ?_⟩
    · rw [requestBelow, requestBelow, hnarrowest.definition]
    · rw [requestBelow, requestBelow, hparents trivial, hname]
    · exact distinct_map_congr _ hsame.occurrences

/-- What comes again in a request comes again in the requests below. -/
theorem simulation_echoes (builder : Builder) :
    Simulation True builder builder Request.Echoes where
  schema := rfl
  sameField hrequest := ⟨hrequest.fieldType, hrequest.responseName, hrequest.path⟩
  conditions hrequest := hrequest.branches.agree_branchConditions.imp fun _ _ _ hsame =>
    Schema.typeSets_congr (mem_congr_distinct hsame)
  collected := by
    intro request request' conditions typeSet hrequest _ _
    refine (hrequest.branches.agree_flattenBranches _).map ?_
    rintro pieces pieces' ⟨middle, hlike, hdistinct⟩
    constructor
    · exact forall₂_comp (forall₂_ofFlat hlike.occurrences) (forall₂_ofFlat_of_distinct hdistinct)
        fun _ _ _ => entryLike_of_like_of_same
    · intro _ earlier
      rw [candidates, candidates, hrequest.inherited, fragments_ofFlat, fragments_ofFlat,
        hlike.fragments trivial, Flat.fragments_eq_filterMap, Flat.fragments_eq_filterMap,
        distinct_filterMap_congr Flat.fragment? hdistinct]

end Builder

/-- **Merging is idempotent.**  Add to a selection set of an operation, at any depth, a copy of a
selection that is in this selection set: a field with its sub-selections, an inline fragment or a
spread, with its directives.  Then the selections can still be resolved, and the tree that is built
from them is the same, or the build fails with the same error. -/
theorem dataField_repeated {library : Library} {schema : Schema} {rounds : Nat} {type : Name}
    {written written' : List Selection} {resolved : List Resolved}
    (hrepeats : Selection.Repeats written written')
    (hresolve : library.resolve schema rounds type written = .ok resolved) :
    ∃ resolved', library.resolve schema rounds type written' = .ok resolved' ∧
      ∀ (builder : Builder) (root : Path),
        (builder.dataField type resolved' root).result =
          (builder.dataField type resolved root).result := by
  have hagree : Agree True Resolved.Repeats (library.resolve schema rounds type written)
      (library.resolve schema rounds type written') := hrepeats.agree_resolveAll type
  obtain ⟨resolved', hresolve', hrepeated⟩ := hagree.exists_of_ok hresolve
  refine ⟨resolved', hresolve', fun builder root => ?_⟩
  have hrequest : Request.Echoes (Builder.rootRequest type resolved root)
      (Builder.rootRequest type resolved' root) :=
    ⟨rfl, rfl, rfl, rfl, [(resolved', .always)], .cons ⟨hrepeated, rfl⟩ .nil, rfl⟩
  have htrees := builder.simulation_echoes.dataField hrequest hrepeated.depthAll_eq
  exact (htrees.imp fun _ _ _ hlike => hlike.2 trivial).eq.symm

/-! ## Twins

The mate of a pet is selected twice, each time unless the response is to be brief. -/

namespace Twins

open Sample (select)

/-- The mate of a pet. -/
def mate : Selection := select "mate" [⟨"skip", [("if", .var "brief")]⟩] [select "name" [] []]

/-- What is selected for a pet. -/
def below : List Selection :=
  [select "name" [] [], mate, .inline (some "Noisy") [] [select "volume" [] []],
    .spread "CatMate" []]

/-- The pet with the given selections. -/
def pet (selections : List Selection) : List Selection := [select "pet" [] selections]

/-- The fragments of the sample. -/
def library : Library := .ofDocuments [Sample.document] []

theorem resolves :
    (library.resolve Sample.schema 0 "Query" (pet below)).toOption.isSome = true := by
  decide +kernel

/-- The selections of the operation. -/
def resolved : List Resolved :=
  (library.resolve Sample.schema 0 "Query" (pet below)).toOption.get resolves

theorem repeats : Selection.Repeats (pet below) (pet (below ++ [mate])) := by
  have hmate : mate ∈ below := List.mem_cons_of_mem _ List.mem_cons_self
  show Selection.Repeats ([] ++ select "pet" [] below :: [])
    ([] ++ select "pet" [] (below ++ [mate]) :: [])
  exact .field (.here hmate)

end Twins

theorem dataField_repeated_twins :
    Selection.Repeats (Twins.pet Twins.below) (Twins.pet (Twins.below ++ [Twins.mate])) ∧
    Twins.library.resolve Sample.schema 0 "Query" (Twins.pet Twins.below) = .ok Twins.resolved ∧
    ((⟨Sample.schema, []⟩ : Builder).dataField "Query" Twins.resolved
      (.atRoot "Pets" .operationImplementation)).result.toOption.isSome = true ∧
    ∃ resolved', Twins.library.resolve Sample.schema 0 "Query"
        (Twins.pet (Twins.below ++ [Twins.mate])) = .ok resolved' ∧
      ∀ (builder : Builder) (root : Path),
        (builder.dataField "Query" resolved' root).result =
          (builder.dataField "Query" Twins.resolved root).result :=
  have hresolve := except_eq_ok_get Twins.resolves
  ⟨Twins.repeats, hresolve, by decide +kernel, dataField_repeated Twins.repeats hresolve⟩

end ResponseModel

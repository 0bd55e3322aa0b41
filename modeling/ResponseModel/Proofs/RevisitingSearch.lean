import Mathlib.Order.Bounds.Basic
import ResponseModel.Proofs.Repetitions
import ResponseModel.Proofs.VariableTypes

/-!
# Entering fragments again

The search for the variables of a fragment enters every fragment that it meets once.  A search that
enters a fragment again at every spread of it finds more uses, but none that is new: both find the
same uses in the order of their first occurrence (`distinct_usesAll`), since a fragment that is
passed by was left before.  A use that was taken into account once is absorbed from then on
(`record_of_mem`).  So the two searches end alike, also where they fail.

What they find is said without any search: the variables in the order of their first use, each with
the greatest lower bound of the types of its positions, or two positions of one variable whose types
have no common refinement.  Main statement: `infer_eq_revisiting`.
-/

namespace ResponseModel

/-! ## Uses that are found again -/

namespace Resolved

variable {schema : Schema} {content : Name → List Use} {inside entered : List Name}

theorem Covers.mono {Known Known' : Use → Prop} (h : Covers Known content inside entered)
    (hknown : ∀ use, Known use → Known' use) : Covers Known' content inside entered :=
  fun name hname => (h name hname).imp_right fun hall use huse => hknown use (hall use huse)

/-- What a walk has found covers the fragments that it has entered. -/
theorem Covers.walk {selections : List Resolved} {before : List Use}
    (hopens : ∀ node ∈ nodesAll selections, node.Opens schema content)
    (hinside : ∀ node ∈ nodesAll selections, ∀ name ∈ inside, node.entered? ≠ some name)
    (hcovers : Covers (· ∈ before) content inside entered) :
    (∀ use ∈ allUses schema selections, use ∈ before ++ (usesAll schema entered selections).1) ∧
      Covers (· ∈ before ++ (usesAll schema entered selections).1) content inside
        (usesAll schema entered selections).2 :=
  known_of_mem_allUses hopens hinside (hcovers.mono fun _ => List.mem_append_left _)
    fun _ => List.mem_append_right _

/-- A walk that passes by the fragments entered before finds the same uses as one that enters them
again, apart from those that are found again. -/
theorem distinct_usesAll {selections : List Resolved} {before : List Use}
    (hopens : ∀ node ∈ nodesAll selections, node.Opens schema content)
    (hinside : ∀ node ∈ nodesAll selections, ∀ name ∈ inside, node.entered? ≠ some name)
    (hcovers : Covers (· ∈ before) content inside entered) :
    distinct (before ++ (usesAll schema entered selections).1) =
      distinct (before ++ allUses schema selections) := by
  induction selections using Resolved.forest_induction generalizing inside entered before with
  | nil => rfl
  | field parent node definition selections rest ihbelow ihrest =>
      simp only [mem_nodesAll_field, or_imp, forall_and, forall_eq] at hopens hinside
      simp only [usesAll, uses, allUses_field]
      have hown := hcovers.mono fun _ => List.mem_append_left
        (directiveUses schema node.directives ++ node.uses schema definition)
      exact distinct_append_append_congr (ihbelow hopens.2.1 hinside.2.1 hown)
        (ihrest hopens.2.2 hinside.2.2 (hown.walk hopens.2.1 hinside.2.1).2)
  | inline condition type directives selections rest ihbelow ihrest =>
      simp only [mem_nodesAll_inline, or_imp, forall_and, forall_eq] at hopens hinside
      simp only [usesAll, uses, allUses_inline]
      have hown := hcovers.mono fun _ => List.mem_append_left (directiveUses schema directives)
      exact distinct_append_append_congr (ihbelow hopens.2.1 hinside.2.1 hown)
        (ihrest hopens.2.2 hinside.2.2 (hown.walk hopens.2.1 hinside.2.1).2)
  | spread name directives type selections rest ihbelow ihrest =>
      simp only [mem_nodesAll_spread, or_imp, forall_and, forall_eq] at hopens hinside
      obtain ⟨⟨hcontent, hapart⟩, hopensBelow, hopensRest⟩ := hopens
      obtain ⟨hself, hinsideBelow, hinsideRest⟩ := hinside
      have hown := hcovers.mono fun _ => List.mem_append_left (directiveUses schema directives)
      rw [allUses_spread]
      by_cases hmem : name ∈ entered
      · -- the fragment was entered before and left again, so what is in it was found
        have hbelow : allUses schema selections ⊆ before ++ directiveUses schema directives :=
          hcontent ▸ hown.known hmem fun hname => hself name hname rfl
        simp only [usesAll, uses, if_pos hmem]
        rw [← List.append_assoc before, ihrest hopensRest hinsideRest hown,
          ← List.append_assoc before, ← List.append_assoc _ (allUses schema selections)]
        exact distinct_append_congr (distinct_append_of_subset hbelow).symm rfl
      · have hinside' : ∀ node ∈ nodesAll selections, ∀ other ∈ name :: inside,
            node.entered? ≠ some other := fun node hnode =>
          List.forall_mem_cons.2 ⟨hapart node hnode, hinsideBelow node hnode⟩
        obtain ⟨hbelow, hentered⟩ := hown.enter.walk hopensBelow hinside'
        simp only [usesAll, uses, if_neg hmem]
        exact distinct_append_append_congr (ihbelow hopensBelow hinside' hown.enter)
          (ihrest hopensRest hinsideRest (hentered.leave (hcontent ▸ hbelow)))
  | dangling name directives reason rest ihrest =>
      simp only [mem_nodesAll_dangling, or_imp, forall_and, forall_eq] at hopens hinside
      obtain ⟨hcontent, hopensRest⟩ := hopens
      obtain ⟨hself, hinsideRest⟩ := hinside
      rw [Opens] at hcontent
      have hown := hcovers.mono fun _ => List.mem_append_left (directiveUses schema directives)
      rw [allUses_dangling, ← List.append_assoc before, List.append_cons _ _ (allUses schema rest)]
      by_cases hmem : name ∈ entered
      · have hfault := hown.known hmem fun hname => hself name hname rfl
        simp only [usesAll, uses, if_pos hmem]
        rw [← List.append_assoc before, ihrest hopensRest hinsideRest hown]
        exact distinct_append_congr (distinct_append_of_subset (hcontent ▸ hfault)).symm rfl
      · have hfound := hown.mono fun _ => List.mem_append_left [.fault (reason.error name)]
        have hleft := hfound.enter.leave
          (hcontent ▸ fun _ => List.mem_append_right _ : ∀ use ∈ content name, use ∈ _)
        simp only [usesAll, uses, if_neg hmem]
        rw [← ihrest hopensRest hinsideRest hleft]
        simp only [List.append_assoc]

end Resolved

/-! ## Uses that are taken into account again -/

theorem put_of_lookup_eq_some {β : Type} {key : Name} {value : β} {entries : List (Name × β)}
    (h : entries.lookup key = some value) : put key value entries = entries := by
  induction entries with
  | nil => cases h
  | cons first rest ih =>
      obtain ⟨k, v⟩ := first
      rw [lookup_cons_ite] at h
      split_ifs at h with hk
      · obtain rfl := Option.some.inj h
        rw [put, if_pos hk.symm]
      · rw [put, if_neg (Ne.symm hk), ih h]

namespace Inference

variable {fragment : Name} {uses : List Use} {types result : List (Name × TypeRef)}

theorem recordAll_eq_foldl : recordAll fragment types uses =
    uses.foldl (fun found use => found >>= fun types => record fragment types use) (.ok types) := by
  induction uses generalizing types with
  | nil => rfl
  | cons use rest ih =>
      show (record fragment types use >>= fun types => recordAll fragment types rest) = _
      rw [List.foldl_cons]
      show _ = List.foldl _ (record fragment types use) rest
      cases hrecord : record fragment types use with
      | ok types' => exact ih
      | error error =>
          clear ih hrecord
          induction rest with
          | nil => rfl
          | cons _ _ ih => exact ih

/-- Only uses with types can be taken into account. -/
theorem typed_of_recordAll (h : recordAll fragment types uses = .ok result) :
    ∀ use ∈ uses, ∃ name type, use = .typed name type := by
  induction uses generalizing types with
  | nil => exact fun use huse => absurd huse List.not_mem_nil
  | cons use rest ih =>
      obtain ⟨types', hfirst, hrest⟩ := except_bind_eq_ok.1 h
      obtain ⟨name, type, -, rfl, -⟩ := record_eq_ok hfirst
      exact List.forall_mem_cons.2 ⟨⟨name, type, rfl⟩, ih hrest⟩

/-- A use that was taken into account changes nothing any more. -/
theorem record_of_mem (h : recordAll fragment [] uses = .ok types) {use : Use}
    (huse : use ∈ uses) : record fragment types use = .ok types := by
  obtain ⟨name, type, rfl⟩ := typed_of_recordAll h use huse
  have htypes : TypesOf uses types := TypesOf.nil.recordAll h
  obtain ⟨known, hknown⟩ := htypes.exists_lookup huse
  have hle : known ≤ type := (htypes.le_iff hknown).1 le_rfl type huse
  simp only [record, hknown, TypeRef.meet?_eq_left hle, put_of_lookup_eq_some hknown]

/-- Uses with the same first occurrences have the same outcome. -/
theorem recordAll_congr_distinct {more : List Use} (h : distinct uses = distinct more) :
    recordAll fragment [] uses = recordAll fragment [] more := by
  rw [recordAll_eq_foldl, recordAll_eq_foldl]
  refine foldl_congr_distinct (fun before use huse => ?_) h
  rw [← recordAll_eq_foldl]
  cases hrecord : recordAll fragment [] before with
  | ok types => exact record_of_mem hrecord huse
  | error error => rfl

/-- The variables of a fragment with their types, as a search finds them that enters a fragment
again at every spread of it. -/
def inferRevisiting (schema : Schema) (fragment : Name) (body : List Resolved) :
    Except DocumentError (List (Name × TypeRef)) :=
  recordAll fragment [] (Resolved.allUses schema body)

/-! ## What the uses ask for -/

/-- The variables are in the order of their first use. -/
theorem keys_recordAll (h : recordAll fragment types uses = .ok result) :
    result.map Prod.fst = (Use.names uses).foldl insertNew (types.map Prod.fst) := by
  induction uses generalizing types with
  | nil =>
      obtain rfl := Except.ok.inj h
      rfl
  | cons use rest ih =>
      obtain ⟨types', hfirst, hrest⟩ := except_bind_eq_ok.1 h
      obtain ⟨name, type, both, rfl, rfl, -⟩ := record_eq_ok hfirst
      rw [ih hrest, keys_put]
      rfl

theorem isGLB_of_recordAll (h : recordAll fragment [] uses = .ok types) {name : Name}
    {type : TypeRef} (hmem : (name, type) ∈ types) :
    IsGLB {position | .typed name position ∈ uses} type := by
  have htypes : TypesOf uses types := TypesOf.nil.recordAll h
  rw [isGLB_iff_le_iff]
  intro other
  exact htypes.le_iff (lookup_eq_some_of_mem htypes.nodup hmem)

theorem alike_of_recordAll (h : recordAll fragment [] uses = .ok types) {name : Name}
    {type other : TypeRef} (htype : .typed name type ∈ uses) (hother : .typed name other ∈ uses) :
    type.Alike other := by
  have htypes : TypesOf uses types := TypesOf.nil.recordAll h
  obtain ⟨known, hknown⟩ := htypes.exists_lookup htype
  have hle := (htypes.le_iff hknown).1 le_rfl
  exact (TypeRef.alike_of_le (hle type htype)).symm.trans (TypeRef.alike_of_le (hle other hother))

/-- The ways in which taking a use into account fails. -/
theorem record_eq_error {use : Use} {error : DocumentError}
    (h : record fragment types use = .error error) :
    use = .fault error ∨ (∃ name, use = .untyped name ∧ error = .untypedVariable fragment name) ∨
      ∃ name type known, use = .typed name type ∧ types.lookup name = some known ∧
        ¬known.Alike type ∧ error = .ambiguousVariable fragment name known.text type.text := by
  cases use with
  | fault fault =>
      obtain rfl := Except.error.inj h
      exact .inl rfl
  | untyped name =>
      obtain rfl := Except.error.inj h
      exact .inr (.inl ⟨name, rfl, rfl⟩)
  | typed name type =>
      rw [record] at h
      split at h
      · cases h
      · next known hknown =>
          split at h
          · next hmeet =>
              obtain rfl := Except.error.inj h
              exact .inr (.inr ⟨name, type, known, rfl, hknown, TypeRef.meet?_eq_none_iff.1 hmeet,
                rfl⟩)
          · cases h

/-- A failure comes from one of the uses, where those before it have types. -/
theorem exists_of_recordAll_eq_error {before : List Use} (hbefore : TypesOf before types)
    {error : DocumentError} (h : recordAll fragment types uses = .error error) :
    ∃ earlier found, ∃ use ∈ uses, earlier ⊆ before ++ uses ∧ TypesOf earlier found ∧
      record fragment found use = .error error := by
  induction uses generalizing before types with
  | nil => cases h
  | cons use rest ih =>
      cases hfirst : record fragment types use with
      | error first =>
          simp only [recordAll, hfirst] at h
          obtain rfl := Except.error.inj h
          exact ⟨before, types, use, List.mem_cons_self, List.subset_append_left _ _, hbefore,
            hfirst⟩
      | ok types' =>
          simp only [recordAll, hfirst] at h
          obtain ⟨earlier, found, last, hlast, hsub, hfound, hrecord⟩ :=
            ih (hbefore.record hfirst) h
          rw [← List.append_cons] at hsub
          exact ⟨earlier, found, last, List.mem_cons_of_mem use hlast, hsub, hfound, hrecord⟩

/-- The uses fail with a fault, with a variable that has no type, or with two positions of one
variable that are not alike. -/
theorem exists_of_recordAll_nil_eq_error {error : DocumentError}
    (h : recordAll fragment [] uses = .error error) :
    .fault error ∈ uses ∨ (∃ name, .untyped name ∈ uses ∧ error = .untypedVariable fragment name) ∨
      ∃ name type other first second, .typed name type ∈ uses ∧ .typed name other ∈ uses ∧
        ¬type.Alike other ∧ error = .ambiguousVariable fragment name first second := by
  obtain ⟨earlier, found, use, huse, hsub, hfound, hrecord⟩ :=
    exists_of_recordAll_eq_error TypesOf.nil h
  rcases record_eq_error hrecord with
    rfl | ⟨name, rfl, rfl⟩ | ⟨name, type, known, rfl, hknown, hne, rfl⟩
  · exact .inl huse
  · exact .inr (.inl ⟨name, huse, rfl⟩)
  · -- the type that is known so far is below an earlier position, so that is not alike either
    obtain ⟨position, hposition⟩ := hfound.used hknown
    have hle : known ≤ position := (hfound.le_iff hknown).1 le_rfl position hposition
    refine .inr (.inr ⟨name, position, type, _, _, hsub hposition, huse, fun halike => hne ?_, rfl⟩)
    exact (TypeRef.alike_of_le hle).trans halike

end Inference

/-! ## Faults -/

namespace Literal

variable {schema : Schema}

mutual

/-- The uses in a literal are all of variables. -/
theorem isSome_name?_of_mem_uses : ∀ {literal : Literal} {type : TypeRef} {use : Use},
    use ∈ literal.uses schema type → use.name?.isSome = true
  | .var name, type, use, h => by
      rw [uses, List.mem_singleton] at h
      rw [h]
      rfl
  | .list items, .list item _, use, h => by
      rw [uses] at h
      exact isSome_name?_of_mem_usesOfItems h
  | .list items, .named .., use, h => by
      rw [uses] at h
      obtain ⟨name, -, rfl⟩ := List.mem_map.1 h
      rfl
  | .object fields, type, use, h => by
      rw [uses] at h
      split at h
      · exact isSome_name?_of_mem_usesOfFields h
      · obtain ⟨name, -, rfl⟩ := List.mem_map.1 h
        rfl
  | .null, type, use, h | .boolean _, type, use, h | .string _, type, use, h
  | .int _, type, use, h | .float _, type, use, h | .enum _, type, use, h => by
      simp [uses] at h

theorem isSome_name?_of_mem_usesOfItems : ∀ {items : List Literal} {item : TypeRef} {use : Use},
    use ∈ usesOfItems schema item items → use.name?.isSome = true
  | [], item, use, h => by simp [usesOfItems] at h
  | literal :: rest, item, use, h => by
      rw [usesOfItems] at h
      exact (List.mem_append.1 h).elim isSome_name?_of_mem_uses isSome_name?_of_mem_usesOfItems

theorem isSome_name?_of_mem_usesOfFields : ∀ {fields : List (Name × Literal)}
    {definitions : List InputDefinition} {use : Use},
    use ∈ usesOfFields schema definitions fields → use.name?.isSome = true
  | [], definitions, use, h => by simp [usesOfFields] at h
  | (name, literal) :: rest, definitions, use, h => by
      rw [usesOfFields] at h
      rcases List.mem_append.1 h with h | h
      · split at h
        · exact isSome_name?_of_mem_uses h
        · cases h
      · exact isSome_name?_of_mem_usesOfFields h

end

end Literal

theorem Directive.isSome_name?_of_mem_uses {schema : Schema} {directive : Directive} {use : Use}
    (h : use ∈ directive.uses schema) : use.name?.isSome = true := by
  rw [uses] at h
  split at h
  · cases h
  · obtain ⟨⟨name, literal⟩, -, h⟩ := List.mem_flatMap.1 h
    dsimp only at h
    split at h
    · exact Literal.isSome_name?_of_mem_uses h
    · cases h

/-- The faults in selections are arguments that the schema does not declare and spreads that lead
nowhere. -/
theorem Resolved.fault_of_mem_allUses {schema : Schema} {selections : List Resolved}
    {error : DocumentError} (h : .fault error ∈ allUses schema selections) :
    (∃ field argument, error = .unknownArgument field argument) ∨
      ∃ name reason, error = Dangling.error name reason := by
  obtain ⟨node, -, h⟩ := List.mem_flatMap.1 h
  rcases List.mem_append.1 h with h | h
  · obtain ⟨directive, -, h⟩ := List.mem_flatMap.1 h
    cases Directive.isSome_name?_of_mem_uses h
  · cases node with
    | field parent node definition below =>
        obtain ⟨⟨name, literal⟩, -, h⟩ := List.mem_flatMap.1 h
        dsimp only at h
        split at h
        · cases Literal.isSome_name?_of_mem_uses h
        · obtain rfl := Use.fault.inj (List.mem_singleton.1 h)
          exact .inl ⟨node.name, name, rfl⟩
    | inline condition type directives below => cases h
    | spread name directives type below => cases h
    | dangling name directives reason =>
        obtain rfl := Use.fault.inj (List.mem_singleton.1 h)
        exact .inr ⟨name, reason, rfl⟩

/-! ## The two searches -/

/-- Both searches find the same. -/
theorem Library.Resolution.infer_eq {library : Library} {schema : Schema} {parent : Name}
    {written : List Selection} {body : List Resolved}
    (h : library.Resolution schema parent written body) (hacyclic : library.AcyclicBelow written)
    (fragment : Name) :
    Inference.infer schema fragment body = Inference.inferRevisiting schema fragment body := by
  obtain ⟨content, hopens⟩ := h.exists_opens hacyclic
  apply Inference.recordAll_congr_distinct
  have hnone : Resolved.Covers (· ∈ ([] : List Use)) content [] [] :=
    fun name hname => absurd hname List.not_mem_nil
  exact Resolved.distinct_usesAll hopens (fun _ _ _ hname => absurd hname List.not_mem_nil) hnone

/-- **A search that enters every fragment once is as good as one that enters it at every spread.**
Let no fragment that a fragment leads to spread itself.  Then the variables that are inferred for
the fragment, with their types and in their order, or the error, are those that a search finds which
looks into a fragment at every spread of it.

The variables are those that are used, in the order of their first use, and the type of a variable
is the greatest lower bound of the types of all its positions.  If every use is of a variable at a
position with a type, then nothing but an ambiguous variable can go wrong; and if nothing else goes
wrong, then there is one exactly if two positions of one variable have different lists or different
names in them. -/
theorem infer_eq_revisiting {library : Library} {schema : Schema} {rounds : Nat}
    {fragment : Fragment} {body : List Resolved}
    (hacyclic : library.AcyclicBelow fragment.selections)
    (hresolve : library.resolve schema rounds fragment.onType fragment.selections = .ok body) :
    let uses := Resolved.allUses schema body
    let result := Inference.infer schema fragment.name body
    let ambiguous := ∃ name first second,
      result = .error (.ambiguousVariable fragment.name name first second)
    result = Inference.inferRevisiting schema fragment.name body ∧
    (∀ types, result = .ok types → types.map Prod.fst = distinct (Use.names uses) ∧
      ∀ name type, (name, type) ∈ types → IsGLB {position | .typed name position ∈ uses} type) ∧
    ((∀ use ∈ uses, ∃ name type, use = .typed name type) →
      ambiguous ∨ ∃ types, result = .ok types) ∧
    (ambiguous ∨ (∃ types, result = .ok types) → (ambiguous ↔ ∃ name type other,
      .typed name type ∈ uses ∧ .typed name other ∈ uses ∧ ¬type.Alike other)) := by
  intro uses result ambiguous
  have hsame : result = Inference.recordAll fragment.name [] uses :=
    (hacyclic.resolution hresolve).infer_eq hacyclic fragment.name
  refine ⟨hsame, fun types htypes => ?_, fun htyped => ?_, fun hother => ⟨?_, ?_⟩⟩
  · rw [hsame] at htypes
    exact ⟨Inference.keys_recordAll htypes, fun name type => Inference.isGLB_of_recordAll htypes⟩
  · cases hresult : result with
    | ok types => exact .inr ⟨types, rfl⟩
    | error error =>
        rw [hsame] at hresult
        rcases Inference.exists_of_recordAll_nil_eq_error hresult with
          hfault | ⟨name, huntyped, -⟩ | ⟨name, _, _, first, second, -, -, -, rfl⟩
        · obtain ⟨name, type, heq⟩ := htyped _ hfault
          cases heq
        · obtain ⟨name, type, heq⟩ := htyped _ huntyped
          cases heq
        · exact .inl ⟨name, first, second, hsame.trans hresult⟩
  · rintro ⟨name, first, second, hresult⟩
    rw [hsame] at hresult
    rcases Inference.exists_of_recordAll_nil_eq_error hresult with
      hfault | ⟨name, -, heq⟩ | ⟨name, type, other, _, _, htype, hother, hne, -⟩
    · rcases Resolved.fault_of_mem_allUses hfault with ⟨_, _, heq⟩ | ⟨_, reason, heq⟩
      · cases heq
      · cases reason <;> cases heq
    · cases heq
    · exact ⟨name, type, other, htype, hother, hne⟩
  · rintro ⟨name, type, other, htype, hposition, hne⟩
    refine hother.resolve_right ?_
    rintro ⟨types, hresult⟩
    rw [hsame] at hresult
    exact hne (Inference.alike_of_recordAll hresult htype hposition)

/-! ## Full houses

A house spreads its rooms twice, and shelves are spread in the house and in its rooms. -/

namespace FullHouses

open Houses (schema selectTagged)
open Sample (select)

/-- The fragment for houses. -/
def house : Fragment :=
  ⟨"House", "Place", [],
    [.spread "Room" [], select "part" [] [.spread "Room" [], .spread "Shelf" []],
      selectTagged "count" []]⟩

/-- The fragments for houses, rooms and shelves. -/
def library : Library :=
  .ofDocuments [⟨none, [],
    [house, ⟨"Room", "Place", [], [.inline none [] [.spread "Shelf" []], selectTagged "owner" []]⟩,
      ⟨"Shelf", "Place", [], [selectTagged "book" []]⟩]⟩] []

theorem acyclic : library.Acyclic :=
  Library.acyclic_of_rank
    (fun name => if name = "House" then 2 else if name = "Room" then 1 else 0) (by decide +kernel)

theorem resolves :
    (library.resolve schema 0 house.onType house.selections).toOption.isSome = true := by
  decide +kernel

/-- The selections for houses. -/
def body : List Resolved :=
  (library.resolve schema 0 house.onType house.selections).toOption.get resolves

/-- The type of the tags. -/
def tags : TypeRef := .list (.named "String" true) true

/-- The uses in all selections for houses. -/
def uses : List Use := Resolved.allUses schema body

end FullHouses

theorem infer_eq_revisiting_fullHouses :
    FullHouses.library.AcyclicBelow FullHouses.house.selections ∧
    FullHouses.library.resolve Houses.schema 0 "Place" FullHouses.house.selections =
      .ok FullHouses.body ∧
    FullHouses.uses.length = 6 ∧
    (Resolved.usesAll Houses.schema [] FullHouses.body).1.length = 3 ∧
    Inference.infer Houses.schema "House" FullHouses.body = .ok [("tags", FullHouses.tags)] ∧
    Inference.inferRevisiting Houses.schema "House" FullHouses.body =
      .ok [("tags", FullHouses.tags)] ∧
    IsGLB {position | .typed "tags" position ∈ FullHouses.uses} FullHouses.tags ∧
    ¬∃ name type other, .typed name type ∈ FullHouses.uses ∧ .typed name other ∈ FullHouses.uses ∧
      ¬type.Alike other := by
  have hacyclic := FullHouses.acyclic.below FullHouses.house.selections
  have hresolve := except_eq_ok_get FullHouses.resolves
  have hinfer : Inference.infer Houses.schema "House" FullHouses.body =
      .ok [("tags", FullHouses.tags)] := by decide +kernel
  obtain ⟨hsame, htypes, -, hambiguous⟩ := infer_eq_revisiting hacyclic hresolve
  have hfine : ¬∃ name first second, Inference.infer Houses.schema "House" FullHouses.body =
      .error (.ambiguousVariable "House" name first second) := by
    rintro ⟨name, first, second, herror⟩
    cases hinfer.symm.trans herror
  have halike := (hambiguous (.inr ⟨_, hinfer⟩)).not.1 hfine
  exact ⟨hacyclic, hresolve, by decide +kernel, by decide +kernel, hinfer,
    hsame.symm.trans hinfer, (htypes _ hinfer).2 _ _ (List.mem_singleton_self _), halike⟩

end ResponseModel

import ResponseModel.Proofs.Collection

/-!
# What is collected where more applies

Where more fragments apply, and where more selection sets are merged, at least the same fields and
fragments are collected (`includes_of_collect`); only the conditions on the way to a field can
differ.  A fragment that was merged is spread in one of the selection sets, on a type that applies,
and what it selects by itself is part of what was collected (`merges_of_mem_fragments`).
-/

namespace ResponseModel

/-! ## Flattening, up to conditions -/

/-- The occurrence, whatever the conditions that lead to it. -/
def Occurrence.bare (o : Occurrence) : Occurrence := { o with condition := .always }

theorem Occurrence.bare_eq_bare {o o' : Occurrence} : o.bare = o'.bare ↔
    o.parent = o'.parent ∧ o.node = o'.node ∧ o.definition = o'.definition ∧
      o.selections = o'.selections := by
  simp [Occurrence.bare]

/-- The piece, whatever the conditions that lead to it. -/
def Flat.bare : Flat → Flat
  | .occurrence o => .occurrence o.bare
  | .fragment name => .fragment name

theorem append_subset_append {α : Type} {xs xs' ys ys' : List α} (hxs : xs ⊆ xs')
    (hys : ys ⊆ ys') : xs ++ ys ⊆ xs' ++ ys' :=
  List.append_subset.2 ⟨List.Subset.trans hxs (List.subset_append_left _ _),
    List.Subset.trans hys (List.subset_append_right _ _)⟩

theorem map_append_subset {α β : Type} {f : α → β} {xs xs' ys ys' : List α}
    (hxs : xs.map f ⊆ xs'.map f) (hys : ys.map f ⊆ ys'.map f) :
    (xs ++ ys).map f ⊆ (xs' ++ ys').map f := by
  rw [List.map_append, List.map_append]
  exact append_subset_append hxs hys

namespace Resolved

variable {applies applies' : Name → Bool} {condition condition' : Condition}
  {pieces pieces' : List Flat} {selections : List Resolved}

/-- Where more fragments apply, no piece is lost. -/
theorem bare_subset_of_flattenAll (himp : ∀ type, applies type = true → applies' type = true)
    (h : flattenAll applies condition selections = .ok pieces)
    (h' : flattenAll applies' condition' selections = .ok pieces') :
    pieces.map Flat.bare ⊆ pieces'.map Flat.bare := by
  induction selections using Resolved.forest_induction
    generalizing condition condition' pieces pieces' with
  | nil =>
      obtain rfl := Except.ok.inj h
      exact List.nil_subset _
  | field parent node definition selections rest _ ihrest =>
      obtain ⟨first, others, hfirst, hothers, rfl⟩ := flattenAll_cons_eq_ok.1 h
      obtain ⟨first', others', hfirst', hothers', rfl⟩ := flattenAll_cons_eq_ok.1 h'
      obtain ⟨own, -, rfl⟩ := flatten_field_eq_ok.1 hfirst
      obtain ⟨own', -, rfl⟩ := flatten_field_eq_ok.1 hfirst'
      exact map_append_subset (List.Subset.refl _) (ihrest hothers hothers')
  | inline written type directives selections rest ihbelow ihrest =>
      obtain ⟨first, others, hfirst, hothers, rfl⟩ := flattenAll_cons_eq_ok.1 h
      obtain ⟨first', others', hfirst', hothers', rfl⟩ := flattenAll_cons_eq_ok.1 h'
      refine map_append_subset ?_ (ihrest hothers hothers')
      rcases flatten_inline_eq_ok.1 hfirst with ⟨-, rfl⟩ | ⟨hyes, own, -, hinner⟩
      · exact List.nil_subset _
      · rcases flatten_inline_eq_ok.1 hfirst' with ⟨hno, -⟩ | ⟨-, own', -, hinner'⟩
        · rw [himp type hyes] at hno
          exact absurd hno.symm Bool.false_ne_true
        · exact ihbelow hinner hinner'
  | spread name directives type selections rest ihbelow ihrest =>
      obtain ⟨first, others, hfirst, hothers, rfl⟩ := flattenAll_cons_eq_ok.1 h
      obtain ⟨first', others', hfirst', hothers', rfl⟩ := flattenAll_cons_eq_ok.1 h'
      refine map_append_subset ?_ (ihrest hothers hothers')
      rcases flatten_spread_eq_ok.1 hfirst with ⟨-, rfl⟩ | ⟨hyes, own, inner, -, hinner, rfl⟩
      · exact List.nil_subset _
      · rcases flatten_spread_eq_ok.1 hfirst' with ⟨hno, -⟩ | ⟨-, own', inner', -, hinner', rfl⟩
        · rw [himp type hyes] at hno
          exact absurd hno.symm Bool.false_ne_true
        · rw [List.map_cons, List.map_cons]
          exact List.cons_subset_cons _ (ihbelow hinner hinner')
  | dangling name directives reason rest _ =>
      obtain ⟨first, others, hfirst, -, -⟩ := flattenAll_cons_eq_ok.1 h
      exact absurd hfirst flatten_dangling_ne_ok

/-- The fragment `name` is spread in the selections, on a type that applies, and `pieces` hold what
its selections `below` give. -/
structure Enters (applies : Name → Bool) (selections : List Resolved) (pieces : List Flat)
    (name type : Name) (below : List Resolved) : Prop where
  spread : ∃ directives, .spread name directives type below ∈ nodesAll selections
  flattens : ∃ condition inner, flattenAll applies condition below = .ok inner ∧ inner ⊆ pieces
  entered : applies type = true
  conditions : ∀ conditions, typeConditionsAll selections = .ok conditions →
    type ∈ conditions ∧ ∃ inner, typeConditionsAll below = .ok inner ∧ inner ⊆ conditions

/-- A spread that is entered in a part of the selections is entered in them. -/
theorem Enters.of_part {part : List Resolved} {found : List Flat} {name type : Name}
    {below : List Resolved} (h : Enters applies part found name type below)
    (hnodes : nodesAll part ⊆ nodesAll selections) (hfound : found ⊆ pieces)
    (hpart : ∀ conditions, typeConditionsAll selections = .ok conditions →
      ∃ inner, typeConditionsAll part = .ok inner ∧ inner ⊆ conditions) :
    Enters applies selections pieces name type below := by
  obtain ⟨⟨directives, hnode⟩, ⟨condition, inner, hinner, hsub⟩, hentered, hconditions⟩ := h
  refine ⟨⟨directives, hnodes hnode⟩, ⟨condition, inner, hinner, List.Subset.trans hsub hfound⟩,
    hentered, fun conditions h => ?_⟩
  obtain ⟨types, htypes, htypesSub⟩ := hpart conditions h
  obtain ⟨htype, belowTypes, hbelow, hbelowSub⟩ := hconditions types htypes
  exact ⟨htypesSub htype, belowTypes, hbelow, List.Subset.trans hbelowSub htypesSub⟩

theorem Enters.tail {selection : Resolved} {first : List Flat} {name type : Name}
    {below : List Resolved} (h : Enters applies selections pieces name type below) :
    Enters applies (selection :: selections) (first ++ pieces) name type below := by
  refine h.of_part (List.subset_append_right _ _) (List.subset_append_right _ _) ?_
  intro conditions hconditions
  obtain ⟨types, others, -, hothers, rfl⟩ := typeConditionsAll_cons_eq_ok.1 hconditions
  exact ⟨others, hothers, List.subset_append_right _ _⟩

/-- Every fragment among the pieces was entered. -/
theorem enters_of_mem_flattenAll {name : Name}
    (h : flattenAll applies condition selections = .ok pieces) (hname : .fragment name ∈ pieces) :
    ∃ type below, Enters applies selections pieces name type below := by
  induction selections using Resolved.forest_induction generalizing condition pieces with
  | nil =>
      obtain rfl := Except.ok.inj h
      exact absurd hname List.not_mem_nil
  | field parent node definition selections rest _ ihrest =>
      obtain ⟨first, others, hfirst, hothers, rfl⟩ := flattenAll_cons_eq_ok.1 h
      obtain ⟨own, -, rfl⟩ := flatten_field_eq_ok.1 hfirst
      rcases List.mem_append.1 hname with hname | hname
      · nomatch List.mem_singleton.1 hname
      · obtain ⟨type, below, henters⟩ := ihrest hothers hname
        exact ⟨type, below, henters.tail⟩
  | inline written around directives selections rest ihbelow ihrest =>
      obtain ⟨first, others, hfirst, hothers, rfl⟩ := flattenAll_cons_eq_ok.1 h
      rcases List.mem_append.1 hname with hname | hname
      · rcases flatten_inline_eq_ok.1 hfirst with ⟨-, rfl⟩ | ⟨-, own, -, hinner⟩
        · exact absurd hname List.not_mem_nil
        · obtain ⟨type, below, henters⟩ := ihbelow hinner hname
          refine ⟨type, below, henters.of_part
            (fun node hnode => mem_nodesAll_inline.2 (.inr (.inl hnode)))
            (List.subset_append_left _ _) fun conditions hconditions => ?_⟩
          obtain ⟨types, more, htypes, -, rfl⟩ := typeConditionsAll_cons_eq_ok.1 hconditions
          obtain ⟨inside, hinside, rfl⟩ := except_map_eq_ok.1 htypes
          exact ⟨inside, hinside, fun x hx => by simp [hx]⟩
      · obtain ⟨type, below, henters⟩ := ihrest hothers hname
        exact ⟨type, below, henters.tail⟩
  | spread outer directives around selections rest ihbelow ihrest =>
      obtain ⟨first, others, hfirst, hothers, rfl⟩ := flattenAll_cons_eq_ok.1 h
      have hconditions : ∀ conditions,
          typeConditionsAll (.spread outer directives around selections :: rest) = .ok conditions →
          around ∈ conditions ∧
            ∃ inner, typeConditionsAll selections = .ok inner ∧ inner ⊆ conditions := by
        intro conditions h
        obtain ⟨types, more, htypes, -, rfl⟩ := typeConditionsAll_cons_eq_ok.1 h
        obtain ⟨inside, hinside, rfl⟩ := except_map_eq_ok.1 htypes
        exact ⟨by simp, inside, hinside, fun x hx => by simp [hx]⟩
      rcases List.mem_append.1 hname with hname | hname
      · rcases flatten_spread_eq_ok.1 hfirst with ⟨-, rfl⟩ | ⟨hyes, own, inner, -, hinner, rfl⟩
        · exact absurd hname List.not_mem_nil
        have hsub : inner ⊆ (.fragment outer :: inner) ++ others :=
          fun x hx => List.mem_append_left _ (List.mem_cons_of_mem _ hx)
        rcases List.mem_cons.1 hname with hname | hname
        · obtain rfl := Flat.fragment.inj hname
          exact ⟨around, selections, ⟨directives, mem_nodesAll_spread.2 (.inl rfl)⟩,
            ⟨condition.and own, inner, hinner, hsub⟩, hyes, hconditions⟩
        · obtain ⟨type, below, henters⟩ := ihbelow hinner hname
          exact ⟨type, below, henters.of_part
            (fun node hnode => mem_nodesAll_spread.2 (.inr (.inl hnode))) hsub
            fun conditions h => (hconditions conditions h).2⟩
      · obtain ⟨type, below, henters⟩ := ihrest hothers hname
        exact ⟨type, below, henters.tail⟩
  | dangling name directives reason rest _ =>
      obtain ⟨first, others, hfirst, -, -⟩ := flattenAll_cons_eq_ok.1 h
      exact absurd hfirst flatten_dangling_ne_ok

end Resolved

/-! ## Several selection sets -/

section Branches

variable {applies applies' : Name → Bool} {branches branches' : List Branch}
  {pieces pieces' : List Flat}

theorem exists_flattenAll_of_mem {selections : List Resolved}
    (h : flattenBranches applies branches = .ok pieces)
    (hmem : selections ∈ branches.map Prod.fst) :
    ∃ condition inner, Resolved.flattenAll applies condition selections = .ok inner ∧
      inner ⊆ pieces := by
  induction branches generalizing pieces with
  | nil => exact absurd hmem List.not_mem_nil
  | cons branch rest ih =>
      obtain ⟨first, others, hfirst, hothers, rfl⟩ := flattenBranches_cons_eq_ok.1 h
      rcases List.mem_cons.1 hmem with rfl | hmem
      · exact ⟨branch.2, first, hfirst, List.subset_append_left _ _⟩
      · obtain ⟨condition, inner, hinner, hsub⟩ := ih hothers hmem
        exact ⟨condition, inner, hinner, List.Subset.trans hsub (List.subset_append_right _ _)⟩

theorem exists_flattenAll_of_piece {piece : Flat}
    (h : flattenBranches applies branches = .ok pieces) (hpiece : piece ∈ pieces) :
    ∃ branch ∈ branches, ∃ inner,
      Resolved.flattenAll applies branch.2 branch.1 = .ok inner ∧ piece ∈ inner ∧
        inner ⊆ pieces := by
  induction branches generalizing pieces with
  | nil =>
      obtain rfl := Except.ok.inj h
      exact absurd hpiece List.not_mem_nil
  | cons branch rest ih =>
      obtain ⟨first, others, hfirst, hothers, rfl⟩ := flattenBranches_cons_eq_ok.1 h
      rcases List.mem_append.1 hpiece with hpiece | hpiece
      · exact ⟨branch, List.mem_cons_self, first, hfirst, hpiece, List.subset_append_left _ _⟩
      · obtain ⟨found, hfound, inner, hinner, hmem, hsub⟩ := ih hothers hpiece
        exact ⟨found, List.mem_cons_of_mem _ hfound, inner, hinner, hmem,
          List.Subset.trans hsub (List.subset_append_right _ _)⟩

theorem bare_subset_of_flattenBranches
    (himp : ∀ type, applies type = true → applies' type = true)
    (hbranches : branches.map Prod.fst ⊆ branches'.map Prod.fst)
    (h : flattenBranches applies branches = .ok pieces)
    (h' : flattenBranches applies' branches' = .ok pieces') :
    pieces.map Flat.bare ⊆ pieces'.map Flat.bare := by
  intro x hx
  obtain ⟨piece, hpiece, rfl⟩ := List.mem_map.1 hx
  obtain ⟨branch, hbranch, inner, hinner, hmem, -⟩ := exists_flattenAll_of_piece h hpiece
  obtain ⟨condition, inner', hinner', hsub⟩ :=
    exists_flattenAll_of_mem h' (hbranches (List.mem_map_of_mem hbranch))
  exact List.map_subset _ hsub
    (Resolved.bare_subset_of_flattenAll himp hinner hinner' (List.mem_map_of_mem hmem))

/-- The type conditions of one of several selection sets are among those of all. -/
theorem exists_typeConditionsAll_of_mem {conditions : List Name}
    (h : branchConditions branches = .ok conditions) {selections : List Resolved}
    (hmem : selections ∈ branches.map Prod.fst) :
    ∃ inner, Resolved.typeConditionsAll selections = .ok inner ∧ inner ⊆ conditions := by
  induction branches generalizing conditions with
  | nil => exact absurd hmem List.not_mem_nil
  | cons branch rest ih =>
      obtain ⟨first, others, hfirst, hothers, rfl⟩ := except_append_eq_ok.1 h
      rcases List.mem_cons.1 hmem with rfl | hmem
      · exact ⟨first, hfirst, List.subset_append_left _ _⟩
      · obtain ⟨inner, hinner, hsub⟩ := ih hothers hmem
        exact ⟨inner, hinner, List.Subset.trans hsub (List.subset_append_right _ _)⟩

theorem branchConditions_subset {conditions conditions' : List Name}
    (hbranches : branches.map Prod.fst ⊆ branches'.map Prod.fst)
    (h : branchConditions branches = .ok conditions)
    (h' : branchConditions branches' = .ok conditions') : conditions ⊆ conditions' := by
  induction branches generalizing conditions with
  | nil =>
      obtain rfl := Except.ok.inj h
      exact List.nil_subset _
  | cons branch rest ih =>
      obtain ⟨first, others, hfirst, hothers, rfl⟩ := except_append_eq_ok.1 h
      obtain ⟨inner, hinner, hsub⟩ :=
        exists_typeConditionsAll_of_mem h' (hbranches List.mem_cons_self)
      obtain rfl := Except.ok.inj (hfirst.symm.trans hinner)
      exact List.append_subset.2
        ⟨hsub, ih (fun x hx => hbranches (List.mem_cons_of_mem _ hx)) hothers⟩

end Branches

/-! ## Collecting -/

theorem Flat.mem_occurrences {o : Occurrence} {pieces : List Flat} :
    o ∈ Flat.occurrences pieces ↔ .occurrence o ∈ pieces := by
  induction pieces with
  | nil => simp [Flat.occurrences]
  | cons piece rest ih => cases piece <;> simp [Flat.occurrences, ih]

namespace Collected

theorem mem_fragments_foldl_add {name : Name} {pieces : List Flat} {collected : Collected} :
    name ∈ (pieces.foldl add collected).fragments ↔
      name ∈ collected.fragments ∨ .fragment name ∈ pieces := by
  induction pieces generalizing collected with
  | nil => simp
  | cons piece rest ih =>
      rw [List.foldl_cons, ih]
      cases piece with
      | occurrence o => simp [add]
      | fragment other => simp [add, mem_insertNew, or_assoc]

theorem mem_fragments_ofFlat {name : Name} {pieces : List Flat} :
    name ∈ (ofFlat pieces).fragments ↔ .fragment name ∈ pieces := by
  simp [ofFlat, mem_fragments_foldl_add]

/-- Everything that is collected in `other` is collected here: its fragments, and of its fields all
occurrences, up to conditions. -/
structure Includes (collected other : Collected) : Prop where
  fragments : ∀ name ∈ other.fragments, name ∈ collected.fragments
  fields : ∀ entry ∈ other.fields, ∃ entry' ∈ collected.fields, entry'.1 = entry.1 ∧
    ∀ o ∈ entry.2.occurrences, ∃ o' ∈ entry'.2.occurrences, o'.bare = o.bare

theorem Includes.mem_names {collected other : Collected} (h : collected.Includes other) :
    ∀ name ∈ other.fields.map Prod.fst, name ∈ collected.fields.map Prod.fst := by
  intro name hname
  obtain ⟨entry, hentry, rfl⟩ := List.mem_map.1 hname
  obtain ⟨entry', hentry', heq, -⟩ := h.fields entry hentry
  exact heq ▸ List.mem_map_of_mem hentry'

/-- Merging more pieces collects more. -/
theorem includes_ofFlat {pieces pieces' : List Flat}
    (h : pieces.map Flat.bare ⊆ pieces'.map Flat.bare) :
    (ofFlat pieces').Includes (ofFlat pieces) := by
  have hgroups := groups_ofFlat pieces
  have hgroups' := groups_ofFlat pieces'
  have hoccurrence : ∀ o ∈ Flat.occurrences pieces,
      ∃ o' ∈ Flat.occurrences pieces', o'.bare = o.bare := by
    intro o ho
    obtain ⟨piece, hpiece, heq⟩ :=
      List.mem_map.1 (h (List.mem_map_of_mem (Flat.mem_occurrences.1 ho)))
    cases piece with
    | occurrence o' => exact ⟨o', Flat.mem_occurrences.2 hpiece, Flat.occurrence.inj heq⟩
    | fragment name => nomatch heq
  have hname : ∀ o o' : Occurrence, o'.bare = o.bare → o'.responseName = o.responseName :=
    fun o o' heq => congrArg FieldNode.responseName (Occurrence.bare_eq_bare.1 heq).2.1
  constructor
  · intro name hmem
    rw [mem_fragments_ofFlat] at hmem ⊢
    obtain ⟨piece, hpiece, heq⟩ := List.mem_map.1 (h (List.mem_map_of_mem hmem))
    cases piece with
    | occurrence o => nomatch heq
    | fragment other => exact Flat.fragment.inj heq ▸ hpiece
  · intro entry hentry
    have hfirst := hgroups.mem_of_mem_occurrences hentry (List.mem_cons_self)
    obtain ⟨o', ho', heq⟩ := hoccurrence _ hfirst.1
    have hmem : entry.1 ∈ (ofFlat pieces').fields.map Prod.fst := by
      rw [hgroups'.names, mem_distinct, ← hfirst.2, ← hname _ _ heq]
      exact List.mem_map_of_mem ho'
    obtain ⟨entry', hentry', hkey⟩ := List.mem_map.1 hmem
    refine ⟨entry', hentry', hkey, fun o ho => ?_⟩
    obtain ⟨hmem, hkeyOf⟩ := hgroups.mem_of_mem_occurrences hentry ho
    obtain ⟨o', ho', heq⟩ := hoccurrence o hmem
    refine ⟨o', ?_, heq⟩
    rw [hgroups'.occurrences entry' hentry', List.mem_filter, decide_eq_true_eq, hname _ _ heq,
      hkeyOf, hkey]
    exact ⟨ho', rfl⟩

end Collected

/-- Where more fragments apply and more selection sets are merged, more is collected. -/
theorem includes_of_collect {applies applies' : Name → Bool} {branches branches' : List Branch}
    {collected collected' : Collected} (himp : ∀ type, applies type = true → applies' type = true)
    (hbranches : branches.map Prod.fst ⊆ branches'.map Prod.fst)
    (h : collect applies branches = .ok collected)
    (h' : collect applies' branches' = .ok collected') : collected'.Includes collected := by
  obtain ⟨pieces, hpieces, rfl⟩ := collect_eq_ok.1 h
  obtain ⟨pieces', hpieces', rfl⟩ := collect_eq_ok.1 h'
  exact Collected.includes_ofFlat (bare_subset_of_flattenBranches himp hbranches hpieces hpieces')

/-- A merged occurrence was found in one of the selection sets. -/
theorem exists_flattenAll_of_collect {applies : Name → Bool} {branches : List Branch}
    {collected : Collected} (h : collect applies branches = .ok collected)
    {entry : Name × Merged} (hentry : entry ∈ collected.fields) {o : Occurrence}
    (ho : o ∈ entry.2.occurrences) :
    ∃ branch ∈ branches, ∃ pieces, Resolved.flattenAll applies branch.2 branch.1 = .ok pieces ∧
      o ∈ Flat.occurrences pieces := by
  obtain ⟨pieces, hpieces, rfl⟩ := collect_eq_ok.1 h
  have hmem := ((groups_ofFlat pieces).mem_of_mem_occurrences hentry ho).1
  obtain ⟨branch, hbranch, inner, hinner, hpiece, -⟩ :=
    exists_flattenAll_of_piece hpieces (Flat.mem_occurrences.1 hmem)
  exact ⟨branch, hbranch, inner, hinner, Flat.mem_occurrences.2 hpiece⟩

/-- The occurrences of a collected field are fields of the selection sets. -/
theorem exists_selections_of_collect {applies : Name → Bool} {branches : List Branch}
    {collected : Collected} (h : collect applies branches = .ok collected)
    {entry : Name × Merged} (hentry : entry ∈ collected.fields) {o : Occurrence}
    (ho : o ∈ entry.2.occurrences) :
    ∃ selections ∈ branches.map Prod.fst,
      .field o.parent o.node o.definition o.selections ∈ Resolved.nodesAll selections ∧
        Resolved.nodesAll o.selections ⊆ Resolved.nodesAll selections := by
  obtain ⟨branch, hbranch, pieces, hpieces, hmem⟩ := exists_flattenAll_of_collect h hentry ho
  exact ⟨branch.1, List.mem_map_of_mem hbranch,
    Resolved.mem_nodesAll_of_mem_flattenAll hpieces o hmem⟩

/-- The fragment `name` was merged: it is spread in one of the selection sets, on a type that
applies, and what its selections `below` give by themselves is part of what was collected. -/
structure Collected.Merges (collected : Collected) (applies : Name → Bool)
    (branches : List Branch) (name type : Name) (below : List Resolved) : Prop where
  spread : ∃ selections ∈ branches.map Prod.fst, ∃ directives,
    .spread name directives type below ∈ Resolved.nodesAll selections
  entered : applies type = true
  conditions : ∀ conditions, branchConditions branches = .ok conditions →
    type ∈ conditions ∧
      ∃ inner, Resolved.typeConditionsAll below = .ok inner ∧ inner ⊆ conditions
  includes : ∀ applies' other, (∀ type, applies' type = true → applies type = true) →
    collect applies' [(below, .always)] = .ok other → collected.Includes other

theorem merges_of_mem_fragments {applies : Name → Bool} {branches : List Branch}
    {collected : Collected} {name : Name} (h : collect applies branches = .ok collected)
    (hname : name ∈ collected.fragments) :
    ∃ type below, collected.Merges applies branches name type below := by
  obtain ⟨pieces, hpieces, rfl⟩ := collect_eq_ok.1 h
  obtain ⟨branch, hbranch, inner, hinner, hmem, hsub⟩ :=
    exists_flattenAll_of_piece hpieces (Collected.mem_fragments_ofFlat.1 hname)
  obtain ⟨type, below, ⟨directives, hnode⟩, ⟨condition, found, hfound, hfoundSub⟩, hentered,
    hconditions⟩ := Resolved.enters_of_mem_flattenAll hinner hmem
  have hselections : branch.1 ∈ branches.map Prod.fst := List.mem_map_of_mem hbranch
  refine ⟨type, below, ⟨branch.1, hselections, directives, hnode⟩, hentered,
    fun conditions h => ?_, fun applies' other himp hother => ?_⟩
  · obtain ⟨types, htypes, htypesSub⟩ := exists_typeConditionsAll_of_mem h hselections
    obtain ⟨htype, belowTypes, hbelow, hbelowSub⟩ := hconditions types htypes
    exact ⟨htypesSub htype, belowTypes, hbelow, List.Subset.trans hbelowSub htypesSub⟩
  · obtain ⟨alone, halone, rfl⟩ := collect_eq_ok.1 hother
    obtain ⟨first, others, hfirst, hothers, rfl⟩ := flattenBranches_cons_eq_ok.1 halone
    obtain rfl := Except.ok.inj hothers
    rw [List.append_nil]
    exact Collected.includes_ofFlat (List.Subset.trans
      (Resolved.bare_subset_of_flattenAll himp hfirst hfound)
      (List.map_subset _ (List.Subset.trans hfoundSub hsub)))

end ResponseModel

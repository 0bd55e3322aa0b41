import ResponseModel.Proofs.Success
import ResponseModel.Shape.Narrowing

/-!
# Collected fields

What collecting the fields of a shape gives.  Flattening is taken apart selection by selection
(`flatten_field_eq_ok` and its companions), every occurrence that it finds is a field of the
selection set (`forall_mem_flattenAll`), and merging groups the occurrences by response name, in
the order in which the names first occur (`groups_ofFlat`).
-/

namespace ResponseModel

/-! ## Induction on selection sets -/

/-- A statement about selection sets holds if every selection keeps it, given that it holds of
what is selected below that selection and of what follows it. -/
@[elab_as_elim]
theorem Resolved.forest_induction {P : List Resolved → Prop} (nil : P [])
    (field : ∀ parent node definition selections rest, P selections → P rest →
      P (.field parent node definition selections :: rest))
    (inline : ∀ condition type directives selections rest, P selections → P rest →
      P (.inline condition type directives selections :: rest))
    (spread : ∀ name directives type selections rest, P selections → P rest →
      P (.spread name directives type selections :: rest))
    (dangling : ∀ name directives reason rest, P rest →
      P (.dangling name directives reason :: rest)) :
    ∀ selections, P selections
  | [] => nil
  | .field parent node definition selections :: rest =>
      field parent node definition selections rest
        (Resolved.forest_induction nil field inline spread dangling selections)
        (Resolved.forest_induction nil field inline spread dangling rest)
  | .inline condition type directives selections :: rest =>
      inline condition type directives selections rest
        (Resolved.forest_induction nil field inline spread dangling selections)
        (Resolved.forest_induction nil field inline spread dangling rest)
  | .spread name directives type selections :: rest =>
      spread name directives type selections rest
        (Resolved.forest_induction nil field inline spread dangling selections)
        (Resolved.forest_induction nil field inline spread dangling rest)
  | .dangling name directives reason :: rest =>
      dangling name directives reason rest
        (Resolved.forest_induction nil field inline spread dangling rest)

namespace Resolved

mutual

/-- The selection and all selections below it, those of its fragments included. -/
def nodes : Resolved → List Resolved
  | .field parent node definition selections =>
      .field parent node definition selections :: nodesAll selections
  | .inline condition type directives selections =>
      .inline condition type directives selections :: nodesAll selections
  | .spread name directives type selections =>
      .spread name directives type selections :: nodesAll selections
  | .dangling name directives reason => [.dangling name directives reason]

/-- All selections in a selection set, at any depth. -/
def nodesAll : List Resolved → List Resolved
  | [] => []
  | selection :: rest => nodes selection ++ nodesAll rest

end

variable {found : Resolved} {rest : List Resolved}

theorem mem_nodesAll_field {parent : Name} {node : FieldNode} {definition : FieldDefinition}
    {selections : List Resolved} :
    found ∈ nodesAll (.field parent node definition selections :: rest) ↔
      found = .field parent node definition selections ∨ found ∈ nodesAll selections ∨
        found ∈ nodesAll rest := by
  simp [nodesAll, nodes]

theorem mem_nodesAll_inline {condition : Option Name} {type : Name} {directives : List Directive}
    {selections : List Resolved} :
    found ∈ nodesAll (.inline condition type directives selections :: rest) ↔
      found = .inline condition type directives selections ∨ found ∈ nodesAll selections ∨
        found ∈ nodesAll rest := by
  simp [nodesAll, nodes]

theorem mem_nodesAll_spread {name type : Name} {directives : List Directive}
    {selections : List Resolved} :
    found ∈ nodesAll (.spread name directives type selections :: rest) ↔
      found = .spread name directives type selections ∨ found ∈ nodesAll selections ∨
        found ∈ nodesAll rest := by
  simp [nodesAll, nodes]

theorem mem_nodesAll_dangling {name : Name} {directives : List Directive} {reason : Dangling} :
    found ∈ nodesAll (.dangling name directives reason :: rest) ↔
      found = .dangling name directives reason ∨ found ∈ nodesAll rest := by
  simp [nodesAll, nodes]

end Resolved

/-! ## Flattening -/

/-- The key of the field in responses. -/
def Occurrence.responseName (occurrence : Occurrence) : Name := occurrence.node.responseName

/-- The occurrences of fields in a flattened selection set. -/
def Flat.occurrences : List Flat → List Occurrence
  | [] => []
  | .occurrence o :: rest => o :: Flat.occurrences rest
  | .fragment _ :: rest => Flat.occurrences rest

@[simp] theorem Flat.occurrences_append (first second : List Flat) :
    Flat.occurrences (first ++ second) = Flat.occurrences first ++ Flat.occurrences second := by
  induction first with
  | nil => rfl
  | cons piece rest ih => cases piece <;> simp [Flat.occurrences, ih]

namespace Resolved

variable {applies : Name → Bool} {condition : Condition} {pieces : List Flat}

theorem flattenAll_cons_eq_ok {selection : Resolved} {rest : List Resolved} :
    flattenAll applies condition (selection :: rest) = .ok pieces ↔
      ∃ first others, flatten applies condition selection = .ok first ∧
        flattenAll applies condition rest = .ok others ∧ pieces = first ++ others := by
  rw [flattenAll]
  exact except_append_eq_ok

theorem flatten_field_eq_ok {parent : Name} {node : FieldNode} {definition : FieldDefinition}
    {selections : List Resolved} :
    flatten applies condition (.field parent node definition selections) = .ok pieces ↔
      ∃ own, Condition.ofDirectives node.directives node.responseName = .ok own ∧
        pieces = [.occurrence ⟨parent, node, definition, selections, condition.and own⟩] := by
  rw [flatten, except_bind_eq_ok]
  simp only [Except.ok.injEq, eq_comm (a := pieces)]

/-- An inline fragment that applies gives what is selected in it, any other gives nothing. -/
theorem flatten_inline_eq_ok {written : Option Name} {type : Name} {directives : List Directive}
    {selections : List Resolved} :
    flatten applies condition (.inline written type directives selections) = .ok pieces ↔
      applies type = false ∧ pieces = [] ∨
      applies type = true ∧ ∃ own, Condition.ofDirectives directives ("... on " ++ type) = .ok own ∧
        flattenAll applies (condition.and own) selections = .ok pieces := by
  rw [flatten]
  cases applies type with
  | false => simp [eq_comm]
  | true => simp [except_bind_eq_ok]

/-- A spread that applies gives its name and what the fragment selects. -/
theorem flatten_spread_eq_ok {name type : Name} {directives : List Directive}
    {selections : List Resolved} :
    flatten applies condition (.spread name directives type selections) = .ok pieces ↔
      applies type = false ∧ pieces = [] ∨
      applies type = true ∧ ∃ own inner,
        Condition.ofDirectives directives ("..." ++ name) = .ok own ∧
        flattenAll applies (condition.and own) selections = .ok inner ∧
        pieces = .fragment name :: inner := by
  rw [flatten]
  cases applies type with
  | false => simp [eq_comm]
  | true => simp only [if_true, except_bind_eq_ok, Except.ok.injEq, Bool.true_eq_false, false_and,
      false_or, true_and, eq_comm (a := pieces), exists_and_left]

theorem flatten_dangling_ne_ok {name : Name} {directives : List Directive} {reason : Dangling} :
    flatten applies condition (.dangling name directives reason) ≠ .ok pieces := by
  rw [flatten]
  nofun

/-- What relates a selection set and the condition that it is under to every occurrence that
flattening finds in it: it has to hold of the field at its head, and pass up from a fragment at its
head, which is under its own condition as well, and from the rest. -/
theorem forall_mem_flattenAll_under {P : Condition → List Resolved → Occurrence → Prop}
    (field : ∀ condition own parent node definition selections rest,
      Condition.ofDirectives node.directives node.responseName = .ok own →
      P condition (.field parent node definition selections :: rest)
        ⟨parent, node, definition, selections, condition.and own⟩)
    (inline : ∀ condition own written type directives selections rest o,
      Condition.ofDirectives directives ("... on " ++ type) = .ok own →
      P (condition.and own) selections o →
      P condition (.inline written type directives selections :: rest) o)
    (spread : ∀ condition own name directives type selections rest o,
      Condition.ofDirectives directives ("..." ++ name) = .ok own →
      P (condition.and own) selections o →
      P condition (.spread name directives type selections :: rest) o)
    (tail : ∀ condition selection rest o, P condition rest o → P condition (selection :: rest) o)
    {selections : List Resolved} (h : flattenAll applies condition selections = .ok pieces) :
    ∀ o ∈ Flat.occurrences pieces, P condition selections o := by
  induction selections using Resolved.forest_induction generalizing condition pieces with
  | nil =>
      obtain rfl := Except.ok.inj h
      exact fun o ho => absurd ho List.not_mem_nil
  | field parent node definition selections rest _ ihrest =>
      obtain ⟨first, others, hfirst, hothers, rfl⟩ := flattenAll_cons_eq_ok.1 h
      obtain ⟨own, hown, rfl⟩ := flatten_field_eq_ok.1 hfirst
      intro o ho
      rw [Flat.occurrences_append, List.mem_append] at ho
      rcases ho with ho | ho
      · rw [List.mem_singleton.1 ho]
        exact field condition own parent node definition selections rest hown
      · exact tail condition _ rest o (ihrest hothers o ho)
  | inline written type directives selections rest ihbelow ihrest =>
      obtain ⟨first, others, hfirst, hothers, rfl⟩ := flattenAll_cons_eq_ok.1 h
      intro o ho
      rw [Flat.occurrences_append, List.mem_append] at ho
      rcases ho with ho | ho
      · rcases flatten_inline_eq_ok.1 hfirst with ⟨-, rfl⟩ | ⟨-, own, hown, hinner⟩
        · exact absurd ho List.not_mem_nil
        · exact inline condition own written type directives selections rest o hown
            (ihbelow hinner o ho)
      · exact tail condition _ rest o (ihrest hothers o ho)
  | spread name directives type selections rest ihbelow ihrest =>
      obtain ⟨first, others, hfirst, hothers, rfl⟩ := flattenAll_cons_eq_ok.1 h
      intro o ho
      rw [Flat.occurrences_append, List.mem_append] at ho
      rcases ho with ho | ho
      · rcases flatten_spread_eq_ok.1 hfirst with ⟨-, rfl⟩ | ⟨-, own, inner, hown, hinner, rfl⟩
        · exact absurd ho List.not_mem_nil
        · exact spread condition own name directives type selections rest o hown
            (ihbelow hinner o ho)
      · exact tail condition _ rest o (ihrest hothers o ho)
  | dangling name directives reason rest _ =>
      obtain ⟨first, others, hfirst, -, -⟩ := flattenAll_cons_eq_ok.1 h
      exact absurd hfirst flatten_dangling_ne_ok

/-- What relates a selection set to every occurrence that flattening finds in it, whatever the
conditions are. -/
theorem forall_mem_flattenAll {P : List Resolved → Occurrence → Prop}
    (field : ∀ parent node definition selections rest (condition own : Condition),
      P (.field parent node definition selections :: rest)
        ⟨parent, node, definition, selections, condition.and own⟩)
    (inline : ∀ written type directives selections rest o, P selections o →
      P (.inline written type directives selections :: rest) o)
    (spread : ∀ name directives type selections rest o, P selections o →
      P (.spread name directives type selections :: rest) o)
    (tail : ∀ selection rest o, P rest o → P (selection :: rest) o) {selections : List Resolved}
    (h : flattenAll applies condition selections = .ok pieces) :
    ∀ o ∈ Flat.occurrences pieces, P selections o := by
  refine forall_mem_flattenAll_under (P := fun _ => P) ?_ ?_ ?_ (fun _ => tail) h
  · intro condition own parent node definition selections rest _
    exact field parent node definition selections rest condition own
  · intro condition own written type directives selections rest o _
    exact inline written type directives selections rest o
  · intro condition own name directives type selections rest o _
    exact spread name directives type selections rest o

/-- What is selected below an occurrence is less deep than the selection set it comes from. -/
theorem depthAll_lt_of_mem_flattenAll {selections : List Resolved}
    (h : flattenAll applies condition selections = .ok pieces) :
    ∀ o ∈ Flat.occurrences pieces, depthAll o.selections < depthAll selections := by
  refine forall_mem_flattenAll
    (P := fun selections o => depthAll o.selections < depthAll selections) ?_ ?_ ?_ ?_ h
  · intro parent node definition selections rest condition own
    rw [depthAll, depth]
    exact Nat.lt_of_lt_of_le (Nat.lt_succ_self _) (Nat.le_max_left _ _)
  · intro written type directives selections rest o ih
    rw [depthAll, depth]
    exact Nat.lt_of_lt_of_le ih (Nat.le_max_left _ _)
  · intro name directives type selections rest o ih
    rw [depthAll, depth]
    exact Nat.lt_of_lt_of_le ih (Nat.le_max_left _ _)
  · intro selection rest o ih
    rw [depthAll]
    exact Nat.lt_of_lt_of_le ih (Nat.le_max_right _ _)

/-- An occurrence is a field of the selection set that it comes from, and so is what is selected
below it. -/
theorem mem_nodesAll_of_mem_flattenAll {selections : List Resolved}
    (h : flattenAll applies condition selections = .ok pieces) :
    ∀ o ∈ Flat.occurrences pieces,
      .field o.parent o.node o.definition o.selections ∈ nodesAll selections ∧
        nodesAll o.selections ⊆ nodesAll selections := by
  refine forall_mem_flattenAll (P := fun selections o =>
    .field o.parent o.node o.definition o.selections ∈ nodesAll selections ∧
      nodesAll o.selections ⊆ nodesAll selections) ?_ ?_ ?_ ?_ h
  · intro parent node definition selections rest condition own
    exact ⟨mem_nodesAll_field.2 (.inl rfl), fun x hx => mem_nodesAll_field.2 (.inr (.inl hx))⟩
  · intro written type directives selections rest o ih
    exact ⟨mem_nodesAll_inline.2 (.inr (.inl ih.1)),
      fun x hx => mem_nodesAll_inline.2 (.inr (.inl (ih.2 hx)))⟩
  · intro name directives type selections rest o ih
    exact ⟨mem_nodesAll_spread.2 (.inr (.inl ih.1)),
      fun x hx => mem_nodesAll_spread.2 (.inr (.inl (ih.2 hx)))⟩
  · intro selection rest o ih
    exact ⟨List.mem_append_right _ ih.1, fun x hx => List.mem_append_right _ (ih.2 hx)⟩

theorem typeConditionsAll_cons_eq_ok {selection : Resolved} {rest : List Resolved}
    {conditions : List Name} :
    typeConditionsAll (selection :: rest) = .ok conditions ↔
      ∃ first others, typeConditions selection = .ok first ∧
        typeConditionsAll rest = .ok others ∧ conditions = first ++ others := by
  rw [typeConditionsAll]
  exact except_append_eq_ok

end Resolved

theorem flattenBranches_cons_eq_ok {applies : Name → Bool} {branch : Branch}
    {rest : List Branch} {pieces : List Flat} :
    flattenBranches applies (branch :: rest) = .ok pieces ↔
      ∃ first others, Resolved.flattenAll applies branch.2 branch.1 = .ok first ∧
        flattenBranches applies rest = .ok others ∧ pieces = first ++ others := by
  obtain ⟨selections, condition⟩ := branch
  rw [flattenBranches]
  exact except_append_eq_ok

theorem depthAll_lt_of_mem_flattenBranches {applies : Name → Bool} {branches : List Branch}
    {pieces : List Flat} {depth : Nat} (h : flattenBranches applies branches = .ok pieces)
    (hdepth : ∀ branch ∈ branches, Resolved.depthAll branch.1 ≤ depth) :
    ∀ o ∈ Flat.occurrences pieces, Resolved.depthAll o.selections < depth := by
  induction branches generalizing pieces with
  | nil =>
      rw [flattenBranches, Except.ok.injEq] at h
      subst h
      simp [Flat.occurrences]
  | cons branch rest ih =>
      obtain ⟨first, others, hfirst, hothers, rfl⟩ := flattenBranches_cons_eq_ok.1 h
      intro o ho
      rw [Flat.occurrences_append, List.mem_append] at ho
      rcases ho with ho | ho
      · exact Nat.lt_of_lt_of_le (Resolved.depthAll_lt_of_mem_flattenAll hfirst o ho)
          (hdepth branch List.mem_cons_self)
      · exact ih hothers (fun b hb => hdepth b (List.mem_cons_of_mem _ hb)) o ho

/-! ## Merging -/

theorem Merged.leastBy_mem (key : Occurrence → Nat) (merged : Merged) :
    merged.leastBy key ∈ merged.occurrences := by
  have hfold : ∀ (others : List Occurrence) (best : Occurrence),
      others.foldl (fun best o => if key o < key best then o else best) best ∈ best :: others := by
    intro others
    induction others with
    | nil => intro best; exact List.mem_singleton_self best
    | cons o rest ih =>
        intro best
        rw [List.foldl_cons]
        have := ih (if key o < key best then o else best)
        grind
  exact hfold merged.others merged.first

/-- No occurrence has a smaller key than the one that is picked. -/
theorem Merged.leastBy_le (key : Occurrence → Nat) (merged : Merged) :
    ∀ o ∈ merged.occurrences, key (merged.leastBy key) ≤ key o := by
  have hfold : ∀ (others : List Occurrence) (best : Occurrence), ∀ o ∈ best :: others,
      key (others.foldl (fun best o => if key o < key best then o else best) best) ≤ key o := by
    intro others
    induction others with
    | nil =>
        intro best o ho
        rw [List.mem_singleton.1 ho]
        exact Nat.le_refl _
    | cons next rest ih =>
        intro best o ho
        rw [List.foldl_cons]
        by_cases hlt : key next < key best
        · rw [if_pos hlt]
          rcases List.mem_cons.1 ho with heq | ho
          · rw [heq]
            exact Nat.le_trans (ih next next List.mem_cons_self) (Nat.le_of_lt hlt)
          · exact ih next o ho
        · rw [if_neg hlt]
          have hbest := ih best best List.mem_cons_self
          simp only [List.mem_cons] at ho
          rcases ho with heq | heq | ho
          · rw [heq]
            exact hbest
          · rw [heq]
            omega
          · exact ih best o (List.mem_cons_of_mem _ ho)
  exact hfold merged.others merged.first

/-- `fields` are the given occurrences grouped by response name, in the order in which the names
first occur. -/
structure Groups (occurrences : List Occurrence) (fields : List (Name × Merged)) : Prop where
  names : fields.map Prod.fst = distinct (occurrences.map Occurrence.responseName)
  occurrences : ∀ entry ∈ fields,
    entry.2.occurrences = occurrences.filter (·.responseName = entry.1)

theorem names_addOccurrence (o : Occurrence) (fields : List (Name × Merged)) :
    (addOccurrence o fields).map Prod.fst = insertNew (fields.map Prod.fst) o.responseName := by
  induction fields with
  | nil => simp [addOccurrence, insertNew, Occurrence.responseName]
  | cons entry rest ih =>
      obtain ⟨name, merged⟩ := entry
      unfold addOccurrence
      by_cases h : name = o.node.responseName
      · rw [if_pos h]
        simp [insertNew, Occurrence.responseName, h]
      · rw [if_neg h, List.map_cons, ih]
        exact (insertNew_cons_of_ne h).symm

/-- An entry after adding an occurrence is an old one of another name, or the entry of that name
with the occurrence at its end. -/
theorem mem_addOccurrence {o : Occurrence} {fields : List (Name × Merged)}
    (hnodup : (fields.map Prod.fst).Nodup) {entry : Name × Merged}
    (h : entry ∈ addOccurrence o fields) :
    entry ∈ fields ∧ entry.1 ≠ o.responseName ∨
    entry.1 = o.responseName ∧
      (o.responseName ∉ fields.map Prod.fst ∧ entry.2.occurrences = [o] ∨
        ∃ old ∈ fields, old.1 = o.responseName ∧
          entry.2.occurrences = old.2.occurrences ++ [o]) := by
  induction fields with
  | nil =>
      rw [addOccurrence, List.mem_singleton] at h
      subst h
      exact .inr ⟨rfl, .inl ⟨by simp, rfl⟩⟩
  | cons first rest ih =>
      obtain ⟨name, merged⟩ := first
      rw [List.map_cons, List.nodup_cons] at hnodup
      unfold addOccurrence at h
      by_cases hname : name = o.node.responseName
      · rw [if_pos hname, List.mem_cons] at h
        rcases h with rfl | h
        · exact .inr ⟨hname, .inr ⟨(name, merged), List.mem_cons_self, hname, rfl⟩⟩
        · refine .inl ⟨List.mem_cons_of_mem _ h, fun heq => hnodup.1 ?_⟩
          exact List.mem_map.2 ⟨entry, h, heq.trans hname.symm⟩
      · rw [if_neg hname, List.mem_cons] at h
        rcases h with rfl | h
        · exact .inl ⟨List.mem_cons_self, hname⟩
        · rcases ih hnodup.2 h with ⟨hmem, hne⟩ | ⟨heq, ⟨hnew, hocc⟩ | ⟨old, hold, hocc⟩⟩
          · exact .inl ⟨List.mem_cons_of_mem _ hmem, hne⟩
          · refine .inr ⟨heq, .inl ⟨?_, hocc⟩⟩
            rw [List.map_cons, List.mem_cons, not_or]
            exact ⟨Ne.symm hname, hnew⟩
          · exact .inr ⟨heq, .inr ⟨old, List.mem_cons_of_mem _ hold, hocc⟩⟩

theorem Groups.add {occurrences : List Occurrence} {fields : List (Name × Merged)}
    (h : Groups occurrences fields) (o : Occurrence) :
    Groups (occurrences ++ [o]) (addOccurrence o fields) := by
  have hnodup : (fields.map Prod.fst).Nodup := by
    rw [h.names]
    exact nodup_distinct _
  constructor
  · rw [names_addOccurrence, h.names, List.map_append, distinct, distinct, List.foldl_append]
    rfl
  · intro entry hentry
    rw [List.filter_append]
    rcases mem_addOccurrence hnodup hentry with
      ⟨hmem, hne⟩ | ⟨heq, ⟨hnew, hocc⟩ | ⟨old, hold, hname, hocc⟩⟩
    · rw [h.occurrences entry hmem, List.filter_cons_of_neg (by simpa using Ne.symm hne)]
      simp
    · -- the name is new, so no earlier occurrence has it
      have hnone : occurrences.filter (·.responseName = entry.1) = [] := by
        rw [h.names, mem_distinct, List.mem_map] at hnew
        rw [List.filter_eq_nil_iff]
        intro o' ho'
        rw [heq, decide_eq_true_eq]
        exact fun he => hnew ⟨o', ho', he⟩
      rw [hnone, hocc, heq]
      simp
    · rw [hocc, h.occurrences old hold, hname, heq]
      simp

theorem Groups.foldl {occurrences : List Occurrence} {fields : List (Name × Merged)}
    (h : Groups occurrences fields) (more : List Occurrence) :
    Groups (occurrences ++ more) (more.foldl (fun fields o => addOccurrence o fields) fields) := by
  induction more generalizing occurrences fields with
  | nil => simpa using h
  | cons o rest ih => simpa using ih (h.add o)

theorem fields_foldl_add (pieces : List Flat) (collected : Collected) :
    (pieces.foldl Collected.add collected).fields =
      (Flat.occurrences pieces).foldl (fun fields o => addOccurrence o fields)
        collected.fields := by
  induction pieces generalizing collected with
  | nil => rfl
  | cons piece rest ih =>
      rw [List.foldl_cons, ih]
      cases piece <;> rfl

/-- Merging groups the occurrences by response name. -/
theorem groups_ofFlat (pieces : List Flat) :
    Groups (Flat.occurrences pieces) (Collected.ofFlat pieces).fields := by
  have hempty : Groups [] [] := ⟨rfl, fun entry h => absurd h List.not_mem_nil⟩
  rw [Collected.ofFlat, fields_foldl_add]
  simpa using hempty.foldl (Flat.occurrences pieces)

theorem Groups.nodup_names {occurrences : List Occurrence} {fields : List (Name × Merged)}
    (h : Groups occurrences fields) : (fields.map Prod.fst).Nodup := by
  rw [h.names]
  exact nodup_distinct _

/-- The occurrences of an entry are among the given ones and have its name. -/
theorem Groups.mem_of_mem_occurrences {occurrences : List Occurrence}
    {fields : List (Name × Merged)} (h : Groups occurrences fields) {entry : Name × Merged}
    (hentry : entry ∈ fields) {o : Occurrence} (ho : o ∈ entry.2.occurrences) :
    o ∈ occurrences ∧ o.responseName = entry.1 := by
  rw [h.occurrences entry hentry, List.mem_filter, decide_eq_true_eq] at ho
  exact ho

theorem Collected.selects_iff {collected : Collected} {name : Name} :
    collected.selects name = true ↔ name ∈ collected.fields.map Prod.fst := by
  simp [Collected.selects]

theorem collect_eq_ok {applies : Name → Bool} {branches : List Branch} {collected : Collected} :
    collect applies branches = .ok collected ↔
      ∃ pieces, flattenBranches applies branches = .ok pieces ∧
        Collected.ofFlat pieces = collected := except_map_eq_ok

end ResponseModel

import Mathlib.Data.List.Perm.Subperm
import Mathlib.Logic.Relation
import ResponseModel.Proofs.Collection
import ResponseModel.Proofs.Models

/-!
# Resolving spreads

Resolving a selection set puts the selections of a fragment in the place of every spread of it.  The
function that does so carries the fragments around a spread, since none is entered too often inside
itself, and a bound on their number.  `Library.Unfolding` is what it does without the bound
(`unfolding_of_resolve`).  Where no fragment spreads itself (`Library.Acyclic`) the fragments around
a spread do not matter either: `Library.Resolution` says what resolving means without them, it
determines the result (`Resolution.unique`), and it is what resolving does
(`resolution_of_resolve`).  Main statement: `LinkedFrom.sound_of_mem_nodes`, wherever a fragment is
spread in the selections of an operation or a fragment, the spread carries the selections that the
fragment itself is linked with, and every field carries the definition that its parent type gives
it.
-/

namespace ResponseModel

/-! ## Fragments that spread each other -/

namespace Selection

mutual

/-- The names of the fragments that are spread in a selection, at any depth. -/
def spreads : Selection → List Name
  | .field _ selections => spreadsAll selections
  | .spread name _ => [name]
  | .inline _ _ selections => spreadsAll selections

/-- The names of the fragments that are spread in a selection set, at any depth. -/
def spreadsAll : List Selection → List Name
  | [] => []
  | selection :: rest => spreads selection ++ spreadsAll rest

end

theorem mem_spreadsAll_spread (name : Name) (directives : List Directive) (rest : List Selection) :
    name ∈ spreadsAll (.spread name directives :: rest) :=
  List.mem_append_left _ (List.mem_singleton_self name)

/-- A statement about written selection sets holds if every selection keeps it, given that it holds
of what is selected below that selection and of what follows it. -/
@[elab_as_elim]
theorem forest_induction {P : List Selection → Prop} (nil : P [])
    (field : ∀ node selections rest, P selections → P rest → P (.field node selections :: rest))
    (spread : ∀ name directives rest, P rest → P (.spread name directives :: rest))
    (inline : ∀ condition directives selections rest, P selections → P rest →
      P (.inline condition directives selections :: rest)) :
    ∀ selections, P selections
  | [] => nil
  | .field node selections :: rest =>
      field node selections rest (forest_induction nil field spread inline selections)
        (forest_induction nil field spread inline rest)
  | .spread name directives :: rest =>
      spread name directives rest (forest_induction nil field spread inline rest)
  | .inline condition directives selections :: rest =>
      inline condition directives selections rest
        (forest_induction nil field spread inline selections)
        (forest_induction nil field spread inline rest)

end Selection

namespace Library

/-- The definition of the first fragment spreads the second. -/
def Spreads (library : Library) (name other : Name) : Prop :=
  ∃ entry, library.entry? name = some entry ∧
    other ∈ Selection.spreadsAll entry.fragment.selections

/-- No fragment spreads itself, directly or through others. -/
def Acyclic (library : Library) : Prop := ∀ name, ¬Relation.TransGen library.Spreads name name

/-- No fragment that the selections spread, directly or through others, spreads itself. -/
def AcyclicBelow (library : Library) (selections : List Selection) : Prop :=
  ∀ first ∈ Selection.spreadsAll selections, ∀ name,
    Relation.ReflTransGen library.Spreads first name → ¬Relation.TransGen library.Spreads name name

theorem Acyclic.below {library : Library} (h : library.Acyclic) (selections : List Selection) :
    library.AcyclicBelow selections := fun _ _ name _ => h name

/-- Fragments that can be numbered so that each spreads only fragments of smaller numbers do not
spread themselves. -/
theorem acyclic_of_rank {library : Library} (rank : Name → Nat)
    (h : ∀ entry ∈ library.entries,
      ∀ other ∈ Selection.spreadsAll entry.2.fragment.selections, rank other < rank entry.1) :
    library.Acyclic := by
  have hlt : ∀ name other, Relation.TransGen library.Spreads name other →
      rank other < rank name := by
    intro name other hpath
    induction hpath with
    | single hstep =>
        obtain ⟨entry, hentry, hmem⟩ := hstep
        exact h (name, entry) (mem_of_lookup_eq_some hentry) _ hmem
    | tail _ hstep ih =>
        obtain ⟨entry, hentry, hmem⟩ := hstep
        exact Nat.lt_trans (h (_, entry) (mem_of_lookup_eq_some hentry) _ hmem) ih
  intro name hcycle
  exact Nat.lt_irrefl _ (hlt name name hcycle)

/-! ## What resolving means -/

/-- `library.Resolution schema parent written resolved`: resolving the selections `written` on the
type `parent` gives `resolved`.  Every field gets its definition, every spread the selections of the
fragment that it names. -/
inductive Resolution (library : Library) (schema : Schema) :
    Name → List Selection → List Resolved → Prop
  | nil {parent : Name} : Resolution library schema parent [] []
  | field {parent : Name} {node : FieldNode} {definition : FieldDefinition}
      {selections rest : List Selection} {below others : List Resolved} :
      schema.field? parent node.name = some definition →
      Resolution library schema definition.type.innerName selections below →
      Resolution library schema parent rest others →
      Resolution library schema parent (.field node selections :: rest)
        (.field parent node definition below :: others)
  | inline {parent : Name} {condition : Option Name} {directives : List Directive}
      {selections rest : List Selection} {below others : List Resolved} :
      Resolution library schema (condition.getD parent) selections below →
      Resolution library schema parent rest others →
      Resolution library schema parent (.inline condition directives selections :: rest)
        (.inline condition (condition.getD parent) directives below :: others)
  | spread {parent name : Name} {directives : List Directive} {entry : Entry}
      {rest : List Selection} {below others : List Resolved} :
      library.entry? name = some entry →
      Resolution library schema entry.fragment.onType entry.fragment.selections below →
      Resolution library schema parent rest others →
      Resolution library schema parent (.spread name directives :: rest)
        (.spread name directives entry.fragment.onType below :: others)
  | undefined {parent name : Name} {directives : List Directive} {rest : List Selection}
      {others : List Resolved} :
      library.entry? name = none →
      Resolution library schema parent rest others →
      Resolution library schema parent (.spread name directives :: rest)
        (.dangling name directives .undefined :: others)

variable {library : Library} {schema : Schema}

/-- Resolving has one result. -/
theorem Resolution.unique {parent : Name} {written : List Selection}
    {resolved resolved' : List Resolved}
    (h : library.Resolution schema parent written resolved)
    (h' : library.Resolution schema parent written resolved') : resolved = resolved' := by
  induction h generalizing resolved' with
  | nil =>
      cases h'
      rfl
  | field hdefinition _ _ ihbelow ihrest =>
      cases h' with
      | field hdefinition' hbelow' hrest' =>
          obtain rfl := Option.some.inj (hdefinition.symm.trans hdefinition')
          rw [ihbelow hbelow', ihrest hrest']
  | inline _ _ ihbelow ihrest =>
      cases h' with
      | inline hbelow' hrest' => rw [ihbelow hbelow', ihrest hrest']
  | spread hentry _ _ ihbelow ihrest =>
      cases h' with
      | spread hentry' hbelow' hrest' =>
          obtain rfl := Option.some.inj (hentry.symm.trans hentry')
          rw [ihbelow hbelow', ihrest hrest']
      | undefined hnone _ =>
          rw [hentry] at hnone
          nomatch hnone
  | undefined hnone _ ihrest =>
      cases h' with
      | spread hentry _ _ =>
          rw [hnone] at hentry
          nomatch hentry
      | undefined _ hrest' => rw [ihrest hrest']

/-- A statement about the selections in resolved ones, at any depth, holds if it holds of what a
written selection becomes. -/
theorem Resolution.forall_mem_nodesAll {P : Resolved → Prop}
    (field : ∀ parent node definition below, schema.field? parent node.name = some definition →
      P (.field parent node definition below))
    (inline : ∀ condition type directives below, P (.inline condition type directives below))
    (spread : ∀ name directives entry below, library.entry? name = some entry →
      library.Resolution schema entry.fragment.onType entry.fragment.selections below →
      P (.spread name directives entry.fragment.onType below))
    (undefined : ∀ name directives, library.entry? name = none →
      P (.dangling name directives .undefined))
    {parent : Name} {written : List Selection} {resolved : List Resolved}
    (h : library.Resolution schema parent written resolved) :
    ∀ node ∈ Resolved.nodesAll resolved, P node := by
  induction h with
  | nil => exact fun node hnode => absurd hnode List.not_mem_nil
  | field hdefinition _ _ ihbelow ihrest =>
      intro node hnode
      rcases Resolved.mem_nodesAll_field.1 hnode with rfl | hnode | hnode
      · exact field _ _ _ _ hdefinition
      · exact ihbelow node hnode
      · exact ihrest node hnode
  | inline _ _ ihbelow ihrest =>
      intro node hnode
      rcases Resolved.mem_nodesAll_inline.1 hnode with rfl | hnode | hnode
      · exact inline _ _ _ _
      · exact ihbelow node hnode
      · exact ihrest node hnode
  | spread hentry hbelow _ ihbelow ihrest =>
      intro node hnode
      rcases Resolved.mem_nodesAll_spread.1 hnode with rfl | hnode | hnode
      · exact spread _ _ _ _ hentry hbelow
      · exact ihbelow node hnode
      · exact ihrest node hnode
  | undefined hnone _ ihrest =>
      intro node hnode
      rcases Resolved.mem_nodesAll_dangling.1 hnode with rfl | hnode
      · exact undefined _ _ hnone
      · exact ihrest node hnode

/-- A spread anywhere in resolved selections comes from a spread in the written ones, through the
fragments on the way. -/
theorem Resolution.exists_path {parent : Name} {written : List Selection}
    {resolved : List Resolved} (h : library.Resolution schema parent written resolved)
    {name type : Name} {directives : List Directive} {selections : List Resolved}
    (hnode : .spread name directives type selections ∈ Resolved.nodesAll resolved) :
    ∃ first ∈ Selection.spreadsAll written, Relation.ReflTransGen library.Spreads first name := by
  induction h with
  | nil => exact absurd hnode List.not_mem_nil
  | field _ _ _ ihbelow ihrest =>
      rcases Resolved.mem_nodesAll_field.1 hnode with hnode | hnode | hnode
      · nomatch hnode
      · obtain ⟨first, hfirst, hpath⟩ := ihbelow hnode
        exact ⟨first, List.mem_append_left _ hfirst, hpath⟩
      · obtain ⟨first, hfirst, hpath⟩ := ihrest hnode
        exact ⟨first, List.mem_append_right _ hfirst, hpath⟩
  | inline _ _ ihbelow ihrest =>
      rcases Resolved.mem_nodesAll_inline.1 hnode with hnode | hnode | hnode
      · nomatch hnode
      · obtain ⟨first, hfirst, hpath⟩ := ihbelow hnode
        exact ⟨first, List.mem_append_left _ hfirst, hpath⟩
      · obtain ⟨first, hfirst, hpath⟩ := ihrest hnode
        exact ⟨first, List.mem_append_right _ hfirst, hpath⟩
  | @spread _ spread _ entry _ _ _ hentry _ _ ihbelow ihrest =>
      have hspread : spread ∈ [spread] := List.mem_singleton_self spread
      rcases Resolved.mem_nodesAll_spread.1 hnode with hnode | hnode | hnode
      · injection hnode with heq
        exact ⟨spread, List.mem_append_left _ hspread, heq ▸ .refl⟩
      · obtain ⟨first, hfirst, hpath⟩ := ihbelow hnode
        exact ⟨spread, List.mem_append_left _ hspread, .head ⟨entry, hentry, hfirst⟩ hpath⟩
      · obtain ⟨first, hfirst, hpath⟩ := ihrest hnode
        exact ⟨first, List.mem_append_right _ hfirst, hpath⟩
  | undefined _ _ ihrest =>
      rcases Resolved.mem_nodesAll_dangling.1 hnode with hnode | hnode
      · nomatch hnode
      · obtain ⟨first, hfirst, hpath⟩ := ihrest hnode
        exact ⟨first, List.mem_append_right _ hfirst, hpath⟩

/-! ## Fragments inside themselves -/

/-- `library.Unfolding schema rounds inside parent written resolved`: resolving the selections
`written` on the type `parent`, inside the fragments `inside`, gives `resolved`.  A fragment is
entered again inside itself `rounds` times, then it is cut off. -/
inductive Unfolding (library : Library) (schema : Schema) (rounds : Nat) :
    List Name → Name → List Selection → List Resolved → Prop
  | nil {inside : List Name} {parent : Name} : Unfolding library schema rounds inside parent [] []
  | field {inside : List Name} {parent : Name} {node : FieldNode} {definition : FieldDefinition}
      {selections rest : List Selection} {below others : List Resolved} :
      schema.field? parent node.name = some definition →
      Unfolding library schema rounds inside definition.type.innerName selections below →
      Unfolding library schema rounds inside parent rest others →
      Unfolding library schema rounds inside parent (.field node selections :: rest)
        (.field parent node definition below :: others)
  | inline {inside : List Name} {parent : Name} {condition : Option Name}
      {directives : List Directive} {selections rest : List Selection}
      {below others : List Resolved} :
      Unfolding library schema rounds inside (condition.getD parent) selections below →
      Unfolding library schema rounds inside parent rest others →
      Unfolding library schema rounds inside parent
        (.inline condition directives selections :: rest)
        (.inline condition (condition.getD parent) directives below :: others)
  | enter {inside : List Name} {parent name : Name} {directives : List Directive} {entry : Entry}
      {rest : List Selection} {below others : List Resolved} :
      library.entry? name = some entry → inside.count name ≤ rounds →
      Unfolding library schema rounds (name :: inside) entry.fragment.onType
        entry.fragment.selections below →
      Unfolding library schema rounds inside parent rest others →
      Unfolding library schema rounds inside parent (.spread name directives :: rest)
        (.spread name directives entry.fragment.onType below :: others)
  | cut {inside : List Name} {parent name : Name} {directives : List Directive} {entry : Entry}
      {rest : List Selection} {others : List Resolved} :
      library.entry? name = some entry → rounds < inside.count name →
      Unfolding library schema rounds inside parent rest others →
      Unfolding library schema rounds inside parent (.spread name directives :: rest)
        (.dangling name directives .cyclic :: others)
  | undefined {inside : List Name} {parent name : Name} {directives : List Directive}
      {rest : List Selection} {others : List Resolved} :
      library.entry? name = none →
      Unfolding library schema rounds inside parent rest others →
      Unfolding library schema rounds inside parent (.spread name directives :: rest)
        (.dangling name directives .undefined :: others)

theorem Unfolding.cons_spread {rounds : Nat} {inside : List Name} {parent around name : Name}
    {directives : List Directive} {first : Resolved} {rest : List Selection}
    {others : List Resolved}
    (h : library.Unfolding schema rounds inside around [.spread name directives] [first])
    (hrest : library.Unfolding schema rounds inside parent rest others) :
    library.Unfolding schema rounds inside parent (.spread name directives :: rest)
      (first :: others) := by
  cases h with
  | enter hentry hcount hbelow _ => exact .enter hentry hcount hbelow hrest
  | cut hentry hcount _ => exact .cut hentry hcount hrest
  | undefined hnone _ => exact .undefined hnone hrest

/-- Resolving selections means to resolve the spreads among them. -/
theorem unfolding_of_resolveAll {rounds : Nat} {inside : List Name}
    {target : Name → List Directive → Except UndefinedField Resolved} {parent : Name}
    {selections : List Selection} {resolved : List Resolved}
    (htarget : ∀ name directives first, target name directives = .ok first →
      library.Unfolding schema rounds inside name [.spread name directives] [first])
    (h : Selection.resolveAll schema target parent selections = .ok resolved) :
    library.Unfolding schema rounds inside parent selections resolved := by
  induction selections using Selection.forest_induction generalizing parent resolved with
  | nil =>
      obtain rfl := Except.ok.inj h
      exact .nil
  | field node selections rest ihbelow ihrest =>
      obtain ⟨first, hfirst, h⟩ := except_bind_eq_ok.1 h
      obtain ⟨others, hothers, h⟩ := except_bind_eq_ok.1 h
      obtain rfl := Except.ok.inj h
      rw [Selection.resolve] at hfirst
      split at hfirst
      · nomatch hfirst
      · next definition hdefinition =>
          obtain ⟨below, hbelow, rfl⟩ := except_map_eq_ok.1 hfirst
          exact .field hdefinition (ihbelow hbelow) (ihrest hothers)
  | spread name directives rest ihrest =>
      obtain ⟨first, hfirst, h⟩ := except_bind_eq_ok.1 h
      obtain ⟨others, hothers, h⟩ := except_bind_eq_ok.1 h
      obtain rfl := Except.ok.inj h
      exact (htarget name directives first hfirst).cons_spread (ihrest hothers)
  | inline condition directives selections rest ihbelow ihrest =>
      obtain ⟨first, hfirst, h⟩ := except_bind_eq_ok.1 h
      obtain ⟨others, hothers, h⟩ := except_bind_eq_ok.1 h
      obtain rfl := Except.ok.inj h
      obtain ⟨below, hbelow, rfl⟩ := except_map_eq_ok.1 hfirst
      exact .inline (ihbelow hbelow) (ihrest hothers)

/-- A list of some keys in which none stands too often is not too long. -/
theorem length_le_of_count_le {names keys : List Name} {bound : Nat}
    (hkeys : ∀ name ∈ names, name ∈ keys) (hcount : ∀ name, names.count name ≤ bound) :
    names.length ≤ keys.length * bound := by
  have hsub : names.Subperm (List.replicate bound keys).flatten := by
    rw [List.subperm_ext_iff]
    intro name hname
    have hone : 1 ≤ keys.count name := List.count_pos_iff.2 (hkeys name hname)
    calc names.count name ≤ bound * 1 := by simpa using hcount name
      _ ≤ bound * keys.count name := Nat.mul_le_mul_left _ hone
      _ = (List.replicate bound keys).flatten.count name := by simp [List.count_flatten]
  calc names.length ≤ (List.replicate bound keys).flatten.length := hsub.length_le
    _ = keys.length * bound := by simp [List.length_flatten, Nat.mul_comm]

/-- The fragments that can be around a spread: those of the library, each as often as it may be
entered inside itself. -/
structure Surrounds (library : Library) (rounds : Nat) (inside : List Name) : Prop where
  keys : ∀ name ∈ inside, name ∈ library.entries.map Prod.fst
  count : ∀ name, inside.count name ≤ rounds + 1

theorem Surrounds.cons {rounds : Nat} {inside : List Name} {name : Name} {entry : Entry}
    (h : library.Surrounds rounds inside) (hentry : library.entry? name = some entry)
    (hle : inside.count name ≤ rounds) : library.Surrounds rounds (name :: inside) := by
  refine ⟨List.forall_mem_cons.2 ⟨List.mem_map_of_mem (mem_of_lookup_eq_some hentry), h.keys⟩,
    fun other => ?_⟩
  rw [List.count_cons]
  split
  · next heq =>
      rw [← eq_of_beq heq]
      exact Nat.succ_le_succ hle
  · exact h.count other

/-- The bound on the fragments around a spread is used up only when each of them is around it as
often as it may be. -/
theorem unfolding_of_resolveSpread {rounds fuel : Nat} {inside : List Name} {name : Name}
    {directives : List Directive} {first : Resolved} (hinside : library.Surrounds rounds inside)
    (hfuel : library.size * (rounds + 1) ≤ fuel + inside.length)
    (h : library.resolveSpread schema rounds fuel inside name directives = .ok first)
    (parent : Name) :
    library.Unfolding schema rounds inside parent [.spread name directives] [first] := by
  induction fuel generalizing inside name directives first parent with
  | zero =>
      rw [resolveSpread] at h
      obtain rfl := Except.ok.inj h
      cases hentry : library.entry? name with
      | none => exact .undefined hentry .nil
      | some entry =>
          refine .cut hentry (Nat.lt_of_not_le fun hle => ?_) .nil
          have hnext := hinside.cons hentry hle
          have hlength := length_le_of_count_le hnext.keys hnext.count
          rw [List.length_cons, List.length_map] at hlength
          simp only [Library.size] at hfuel
          omega
  | succ fuel ih =>
      rw [resolveSpread] at h
      cases hentry : library.entry? name with
      | none =>
          rw [hentry] at h
          obtain rfl := Except.ok.inj h
          exact .undefined hentry .nil
      | some entry =>
          simp only [hentry] at h
          split at h
          · next hlt =>
              obtain rfl := Except.ok.inj h
              exact .cut hentry hlt .nil
          · next hle =>
              obtain ⟨below, hbelow, rfl⟩ := except_map_eq_ok.1 h
              have hle := Nat.le_of_not_lt hle
              refine .enter hentry hle (unfolding_of_resolveAll
                (fun other directives first hfirst =>
                  ih (hinside.cons hentry hle) ?_ hfirst other) hbelow) .nil
              rw [List.length_cons]
              omega

/-- **Selections are resolved as far as the rounds go.** -/
theorem unfolding_of_resolve {rounds : Nat} {type : Name} {selections : List Selection}
    {resolved : List Resolved}
    (h : library.resolve schema rounds type selections = .ok resolved) :
    library.Unfolding schema rounds [] type selections resolved :=
  unfolding_of_resolveAll (fun name _ _ hfirst => unfolding_of_resolveSpread ⟨by simp, by simp⟩
    (Nat.le_refl _) hfirst name) h

/-- Where the fragments around lead to what the selections spread and no fragment spreads itself, no
spread is inside the fragment that it names. -/
theorem Unfolding.resolution {rounds : Nat} {inside : List Name} {parent : Name}
    {written : List Selection} {resolved : List Resolved}
    (h : library.Unfolding schema rounds inside parent written resolved)
    (hacyclic : library.AcyclicBelow written)
    (hleads : ∀ first ∈ Selection.spreadsAll written, ∀ around ∈ inside,
      Relation.TransGen library.Spreads around first) :
    library.Resolution schema parent written resolved := by
  induction h with
  | nil => exact .nil
  | field hdefinition _ _ ihbelow ihrest =>
      refine .field hdefinition (ihbelow (fun first hfirst => ?_) fun first hfirst => ?_)
        (ihrest (fun first hfirst => ?_) fun first hfirst => ?_)
      · exact hacyclic first (List.mem_append_left _ hfirst)
      · exact hleads first (List.mem_append_left _ hfirst)
      · exact hacyclic first (List.mem_append_right _ hfirst)
      · exact hleads first (List.mem_append_right _ hfirst)
  | inline _ _ ihbelow ihrest =>
      refine .inline (ihbelow (fun first hfirst => ?_) fun first hfirst => ?_)
        (ihrest (fun first hfirst => ?_) fun first hfirst => ?_)
      · exact hacyclic first (List.mem_append_left _ hfirst)
      · exact hleads first (List.mem_append_left _ hfirst)
      · exact hacyclic first (List.mem_append_right _ hfirst)
      · exact hleads first (List.mem_append_right _ hfirst)
  | @enter inside _ name directives entry rest _ _ hentry _ _ _ ihbelow ihrest =>
      have hname := Selection.mem_spreadsAll_spread name directives rest
      refine .spread hentry (ihbelow (fun first hfirst other hpath => ?_)
        fun first hfirst around haround => ?_)
        (ihrest (fun first hfirst => ?_) fun first hfirst => ?_)
      · exact hacyclic name hname other (.head ⟨entry, hentry, hfirst⟩ hpath)
      · rcases List.mem_cons.1 haround with rfl | haround
        · exact .single ⟨entry, hentry, hfirst⟩
        · exact (hleads name hname around haround).tail ⟨entry, hentry, hfirst⟩
      · exact hacyclic first (List.mem_append_right _ hfirst)
      · exact hleads first (List.mem_append_right _ hfirst)
  | @cut inside _ name directives entry rest _ _ hlt _ _ =>
      have hname := Selection.mem_spreadsAll_spread name directives rest
      have hinside : name ∈ inside := List.count_pos_iff.1 (Nat.zero_lt_of_lt hlt)
      exact absurd (hleads name hname name hinside) (hacyclic name hname name .refl)
  | undefined hnone _ ihrest =>
      refine .undefined hnone (ihrest (fun first hfirst => ?_) fun first hfirst => ?_)
      · exact hacyclic first (List.mem_append_right _ hfirst)
      · exact hleads first (List.mem_append_right _ hfirst)

/-- Selections that lead to no fragment that spreads itself are resolved as meant. -/
theorem AcyclicBelow.resolution {rounds : Nat} {type : Name} {selections : List Selection}
    {resolved : List Resolved} (hacyclic : library.AcyclicBelow selections)
    (h : library.resolve schema rounds type selections = .ok resolved) :
    library.Resolution schema type selections resolved :=
  (unfolding_of_resolve h).resolution hacyclic (by simp)

/-- Selections are resolved as meant. -/
theorem resolution_of_resolve (hacyclic : library.Acyclic) {rounds : Nat} {type : Name}
    {selections : List Selection} {resolved : List Resolved}
    (h : library.resolve schema rounds type selections = .ok resolved) :
    library.Resolution schema type selections resolved :=
  (hacyclic.below selections).resolution h

end Library

/-! ## Linked selections -/

/-- A resolved selection is what linking makes of it: a field has the definition that its parent
type gives it, and a spread carries the type and the selections of the fragment that it names. -/
def Linked.Sound (linked : Linked) : Resolved → Prop
  | .field parent node definition _ => linked.schema.field? parent node.name = some definition
  | .spread name _ type selections => ∃ fragment, linked.fragments.lookup name = some fragment ∧
      fragment.entry.fragment.onType = type ∧ fragment.selections = selections
  | _ => True

namespace Linked

variable {schema : Schema} {documents accompanying : List Document} {linked : Linked}

variable (hfrom : LinkedFrom schema documents accompanying linked)
include hfrom

/-- A linked fragment comes from the entry of its name. -/
theorem LinkedFrom.entry?_eq {name : Name} {fragment : LinkedFragment}
    (h : linked.fragments.lookup name = some fragment) :
    linked.library.entry? name = some fragment.entry := by
  have hentry := (hfrom.exists_entry (mem_of_lookup_eq_some h)).1
  refine lookup_eq_some_of_mem ?_ hentry
  rw [hfrom.library_eq]
  exact Library.nodup_names documents accompanying

/-- A fragment that is in the library is linked. -/
theorem LinkedFrom.exists_fragment {name : Name} {entry : Library.Entry}
    (h : linked.library.entry? name = some entry) :
    ∃ fragment, linked.fragments.lookup name = some fragment ∧ fragment.entry = entry := by
  have hname : name ∈ linked.fragments.map Prod.fst := by
    rw [hfrom.names]
    exact List.mem_map_of_mem (mem_of_lookup_eq_some h)
  obtain ⟨⟨_, fragment⟩, hmem, rfl⟩ := List.mem_map.1 hname
  have hlookup := lookup_eq_some_of_mem hfrom.nodup_names hmem
  refine ⟨fragment, hlookup, Option.some.inj ?_⟩
  rw [← hfrom.entry?_eq hlookup, h]

variable (hacyclic : linked.library.Acyclic)
include hacyclic

/-- The selections of a linked fragment are those of its definition, resolved. -/
theorem LinkedFrom.resolution_fragment {name : Name} {fragment : LinkedFragment}
    (h : linked.fragments.lookup name = some fragment) :
    linked.library.Resolution schema fragment.entry.fragment.onType
      fragment.entry.fragment.selections fragment.selections :=
  Library.resolution_of_resolve hacyclic (hfrom.exists_entry (mem_of_lookup_eq_some h)).2

/-- The selections of a linked operation are those of its definition, resolved. -/
theorem LinkedFrom.resolution_operation {operation : LinkedOperation}
    (h : operation ∈ linked.operations) :
    linked.library.Resolution schema operation.onType operation.operation.selections
      operation.selections := by
  obtain ⟨written, -, hwritten, -, hresolve⟩ := exists_of_forall₂_of_mem hfrom.operations h
  rw [hwritten]
  exact Library.resolution_of_resolve hacyclic hresolve

/-- **Resolved selections are sound at every depth.** -/
theorem LinkedFrom.sound_of_mem_nodes {parent : Name} {written : List Selection}
    {resolved : List Resolved}
    (h : linked.library.Resolution schema parent written resolved) :
    ∀ node ∈ Resolved.nodesAll resolved, linked.Sound node := by
  refine h.forall_mem_nodesAll ?_ (fun _ _ _ _ => trivial) ?_ (fun _ _ _ => trivial)
  · intro parent node definition below hdefinition
    rw [Sound, hfrom.schema_eq]
    exact hdefinition
  · -- the fragment has one resolution, the one that it is linked with
    intro name directives entry below hentry hbelow
    obtain ⟨fragment, hlookup, rfl⟩ := hfrom.exists_fragment hentry
    exact ⟨fragment, hlookup, rfl, (hfrom.resolution_fragment hacyclic hlookup).unique hbelow⟩

end Linked

/-- The only fragment of the sample spreads none. -/
theorem Sample.acyclic : Sample.linked.library.Acyclic :=
  Library.acyclic_of_rank (fun _ => 0) (by decide +kernel)

end ResponseModel

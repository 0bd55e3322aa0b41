import ResponseModel.Proofs.Inclusion
import ResponseModel.Proofs.Repetitions
import ResponseModel.Proofs.Resolution

/-!
# Fragments that selections reach

The walk that collects the fragments of a selection set marks a fragment as reached before it looks
at what the fragment selects, and passes by the fragments that are marked.  This file says what it
finds without the marks, whether or not fragments spread themselves.

`Library.Meets` is a walk that remembers nothing: it goes down first, follows every spread it meets,
however often, and only does not turn back into a fragment that it is inside of.  It meets exactly
the fragments that the selections reach (`Meets.mem_iff`).  Main statement:
`reachedFragments_of_resolve`, the walk with marks finds the same fragments, each where it is first
met, or fails at the first spread that names no fragment.
-/

namespace ResponseModel

namespace Library

variable {library : Library} {schema : Schema}

/-- The definition of a name. -/
def definition? (library : Library) (name : Name) : Option Fragment :=
  (library.entry? name).map Entry.fragment

/-! ## A walk that remembers nothing -/

/-- The selections spread the fragment, directly or through others. -/
def Reaches (library : Library) (selections : List Selection) (name : Name) : Prop :=
  ∃ first ∈ Selection.spreadsAll selections, Relation.ReflTransGen library.Spreads first name

theorem reaches_cons_field {node : FieldNode} {selections rest : List Selection} {name : Name} :
    library.Reaches (.field node selections :: rest) name ↔
      library.Reaches selections name ∨ library.Reaches rest name := by
  simp only [Reaches, Selection.spreadsAll, Selection.spreads, List.mem_append, or_and_right,
    exists_or]

theorem reaches_cons_inline {condition : Option Name} {directives : List Directive}
    {selections rest : List Selection} {name : Name} :
    library.Reaches (.inline condition directives selections :: rest) name ↔
      library.Reaches selections name ∨ library.Reaches rest name := by
  simp only [Reaches, Selection.spreadsAll, Selection.spreads, List.mem_append, or_and_right,
    exists_or]

theorem reaches_cons_spread {spread : Name} {directives : List Directive} {rest : List Selection}
    {name : Name} : library.Reaches (.spread spread directives :: rest) name ↔
      Relation.ReflTransGen library.Spreads spread name ∨ library.Reaches rest name := by
  simp only [Reaches, Selection.spreadsAll, Selection.spreads, List.mem_append,
    List.mem_singleton, or_and_right, exists_or, exists_eq_left]

/-- What is reached in a fragment is reached wherever the fragment is. -/
theorem Reaches.path {spread name : Name} {entry : Entry}
    (hentry : library.entry? spread = some entry)
    (h : library.Reaches entry.fragment.selections name) :
    Relation.ReflTransGen library.Spreads spread name := by
  obtain ⟨first, hfirst, hpath⟩ := h
  exact .head ⟨entry, hentry, hfirst⟩ hpath

/-- Fragments that spread each other only lead to each other only. -/
theorem mem_of_path {names : List Name}
    (hclosed : ∀ entry ∈ library.entries, entry.1 ∈ names →
      ∀ other ∈ Selection.spreadsAll entry.2.fragment.selections, other ∈ names)
    {first name : Name} (hpath : Relation.ReflTransGen library.Spreads first name)
    (hfirst : first ∈ names) : name ∈ names := by
  induction hpath with
  | refl => exact hfirst
  | tail _ hstep ih =>
      obtain ⟨entry, hentry, hmem⟩ := hstep
      exact hclosed _ (mem_of_lookup_eq_some hentry) ih _ hmem

/-- `library.Meets inside selections met`: a depth-first walk over the selections, inside of the
fragments `inside`, meets spreads of the fragments `met`, in this order. -/
inductive Meets (library : Library) : List Name → List Selection → List Name → Prop
  | nil {inside : List Name} : Meets library inside [] []
  | field {inside : List Name} {node : FieldNode} {selections rest : List Selection}
      {below others : List Name} :
      Meets library inside selections below → Meets library inside rest others →
      Meets library inside (.field node selections :: rest) (below ++ others)
  | inline {inside : List Name} {condition : Option Name} {directives : List Directive}
      {selections rest : List Selection} {below others : List Name} :
      Meets library inside selections below → Meets library inside rest others →
      Meets library inside (.inline condition directives selections :: rest) (below ++ others)
  /-- A fragment is entered. -/
  | enter {inside : List Name} {name : Name} {directives : List Directive} {entry : Entry}
      {rest : List Selection} {below others : List Name} :
      library.entry? name = some entry → name ∉ inside →
      Meets library (name :: inside) entry.fragment.selections below →
      Meets library inside rest others →
      Meets library inside (.spread name directives :: rest) (name :: (below ++ others))
  /-- The walk is inside of the fragment. -/
  | back {inside : List Name} {name : Name} {directives : List Directive}
      {rest : List Selection} {others : List Name} :
      name ∈ inside → Meets library inside rest others →
      Meets library inside (.spread name directives :: rest) (name :: others)
  /-- There is no such fragment. -/
  | undefined {inside : List Name} {name : Name} {directives : List Directive}
      {rest : List Selection} {others : List Name} :
      library.entry? name = none → Meets library inside rest others →
      Meets library inside (.spread name directives :: rest) (name :: others)

namespace Meets

variable {inside met : List Name} {selections : List Selection}

theorem append {more : List Selection} {others : List Name}
    (h : library.Meets inside selections met) (h' : library.Meets inside more others) :
    library.Meets inside (selections ++ more) (met ++ others) := by
  induction h with
  | nil => exact h'
  | field hbelow _ _ ihrest =>
      rw [List.append_assoc]
      exact .field hbelow (ihrest h')
  | inline hbelow _ _ ihrest =>
      rw [List.append_assoc]
      exact .inline hbelow (ihrest h')
  | enter hentry hnot hbelow _ _ ihrest =>
      simp only [List.cons_append, List.append_assoc]
      exact .enter hentry hnot hbelow (ihrest h')
  | back hmem _ ihrest => exact .back hmem (ihrest h')
  | undefined hnone _ ihrest => exact .undefined hnone (ihrest h')

/-- All spreads in the selections themselves are met. -/
theorem spreadsAll_subset (h : library.Meets inside selections met) :
    Selection.spreadsAll selections ⊆ met := by
  induction h with
  | nil => exact List.nil_subset _
  | field _ _ ihbelow ihrest => exact append_subset_append ihbelow ihrest
  | inline _ _ ihbelow ihrest => exact append_subset_append ihbelow ihrest
  | enter _ _ _ _ _ ihrest =>
      exact List.cons_subset_cons _ (List.subset_append_of_subset_right _ ihrest)
  | back _ _ ihrest => exact List.cons_subset_cons _ ihrest
  | undefined _ _ ihrest => exact List.cons_subset_cons _ ihrest

/-- What is spread in a fragment that is met is met, unless the walk started inside of it. -/
theorem closed (h : library.Meets inside selections met) :
    ∀ name ∈ met, name ∉ inside → ∀ other, library.Spreads name other → other ∈ met := by
  induction h with
  | nil => exact fun name hname => absurd hname List.not_mem_nil
  | field _ _ ihbelow ihrest =>
      intro name hname hnot other hother
      rcases List.mem_append.1 hname with hname | hname
      · exact List.mem_append_left _ (ihbelow name hname hnot other hother)
      · exact List.mem_append_right _ (ihrest name hname hnot other hother)
  | inline _ _ ihbelow ihrest =>
      intro name hname hnot other hother
      rcases List.mem_append.1 hname with hname | hname
      · exact List.mem_append_left _ (ihbelow name hname hnot other hother)
      · exact List.mem_append_right _ (ihrest name hname hnot other hother)
  | @enter _ entered _ entry _ _ _ hentry _ hbelow _ ihbelow ihrest =>
      intro name hname hnot other hother
      rw [List.mem_cons]
      refine .inr ?_
      by_cases heq : name = entered
      · -- the walk has gone through the selections of this very fragment
        obtain ⟨entry', hentry', hmem⟩ := hother
        rw [heq, hentry] at hentry'
        obtain rfl := Option.some.inj hentry'
        exact List.mem_append_left _ (hbelow.spreadsAll_subset hmem)
      · rcases List.mem_append.1 ((List.mem_cons.1 hname).resolve_left heq) with hname | hname
        · exact List.mem_append_left _ (ihbelow name hname (by simp [heq, hnot]) other hother)
        · exact List.mem_append_right _ (ihrest name hname hnot other hother)
  | back hmem _ ihrest =>
      intro name hname hnot other hother
      rcases List.mem_cons.1 hname with rfl | hname
      · exact absurd hmem hnot
      · exact List.mem_cons_of_mem _ (ihrest name hname hnot other hother)
  | undefined hnone _ ihrest =>
      intro name hname hnot other hother
      rcases List.mem_cons.1 hname with rfl | hname
      · obtain ⟨entry, hentry, -⟩ := hother
        rw [hnone] at hentry
        nomatch hentry
      · exact List.mem_cons_of_mem _ (ihrest name hname hnot other hother)

theorem reaches (h : library.Meets inside selections met) :
    ∀ name ∈ met, library.Reaches selections name := by
  induction h with
  | nil => exact fun name hname => absurd hname List.not_mem_nil
  | field _ _ ihbelow ihrest =>
      intro name hname
      exact reaches_cons_field.2 ((List.mem_append.1 hname).imp (ihbelow name) (ihrest name))
  | inline _ _ ihbelow ihrest =>
      intro name hname
      exact reaches_cons_inline.2 ((List.mem_append.1 hname).imp (ihbelow name) (ihrest name))
  | enter hentry _ _ _ ihbelow ihrest =>
      intro name hname
      rw [reaches_cons_spread]
      rcases List.mem_cons.1 hname with rfl | hname
      · exact .inl .refl
      · exact (List.mem_append.1 hname).imp (fun hname => (ihbelow name hname).path hentry)
          (ihrest name)
  | back _ _ ihrest =>
      intro name hname
      rw [reaches_cons_spread]
      rcases List.mem_cons.1 hname with rfl | hname
      · exact .inl .refl
      · exact .inr (ihrest name hname)
  | undefined _ _ ihrest =>
      intro name hname
      rw [reaches_cons_spread]
      rcases List.mem_cons.1 hname with rfl | hname
      · exact .inl .refl
      · exact .inr (ihrest name hname)

/-- A walk meets exactly what the selections reach. -/
theorem mem_iff (h : library.Meets [] selections met) {name : Name} :
    name ∈ met ↔ library.Reaches selections name := by
  constructor
  · exact h.reaches name
  · rintro ⟨first, hfirst, hpath⟩
    induction hpath with
    | refl => exact h.spreadsAll_subset hfirst
    | tail _ hstep ih => exact h.closed _ ih List.not_mem_nil _ hstep

end Meets

/-! ## Reached fragments -/

/-- What holds of the fragments that are marked while a walk is inside of some fragments: these are
marked, and so is everything that is spread in the other ones; marked fragments are there. -/
structure Marks (library : Library) (inside reached : List Name) : Prop where
  around : inside ⊆ reached
  closed : ∀ name ∈ reached, name ∉ inside → ∀ other, library.Spreads name other → other ∈ reached
  defined : ∀ name ∈ reached, (library.entry? name).isSome = true

variable {inside reached met : List Name} {selections : List Selection}

/-- Where all spreads lead to marked fragments, a walk does not meet any others. -/
theorem Marks.meets_subset (h : library.Marks inside reached)
    (hmeets : library.Meets inside selections met)
    (hspreads : Selection.spreadsAll selections ⊆ reached) : met ⊆ reached := by
  induction hmeets with
  | nil => exact List.nil_subset _
  | field _ _ ihbelow ihrest =>
      obtain ⟨hbelow, hrest⟩ := List.append_subset.1 hspreads
      exact List.append_subset.2 ⟨ihbelow h hbelow, ihrest h hrest⟩
  | inline _ _ ihbelow ihrest =>
      obtain ⟨hbelow, hrest⟩ := List.append_subset.1 hspreads
      exact List.append_subset.2 ⟨ihbelow h hbelow, ihrest h hrest⟩
  | @enter _ name _ entry _ _ _ hentry hnot _ _ ihbelow ihrest =>
      obtain ⟨hname, hrest⟩ := List.cons_subset.1 hspreads
      have hmarks : library.Marks (name :: _) reached :=
        ⟨List.cons_subset.2 ⟨hname, h.around⟩,
          fun other hother hout => h.closed other hother (List.not_mem_of_not_mem_cons hout),
          h.defined⟩
      have hbelow : Selection.spreadsAll entry.fragment.selections ⊆ reached :=
        fun other hother => h.closed name hname hnot other ⟨entry, hentry, hother⟩
      exact List.cons_subset.2
        ⟨hname, List.append_subset.2 ⟨ihbelow hmarks hbelow, ihrest h hrest⟩⟩
  | back _ _ ihrest =>
      obtain ⟨hname, hrest⟩ := List.cons_subset.1 hspreads
      exact List.cons_subset.2 ⟨hname, ihrest h hrest⟩
  | undefined _ _ ihrest =>
      obtain ⟨hname, hrest⟩ := List.cons_subset.1 hspreads
      exact List.cons_subset.2 ⟨hname, ihrest h hrest⟩

/-- What a walk comes to that meets some spreads: the first of them that names no fragment is an
error, otherwise the new ones are added at the end. -/
def outcome (library : Library) (reached met : List Name) : Except DocumentError (List Name) :=
  match met.find? fun name => (library.entry? name).isNone with
  | some name => .error (.unknownFragment name)
  | none => .ok (met.foldl insertNew reached)

theorem outcome_append (reached first second : List Name) :
    library.outcome reached (first ++ second) =
      (library.outcome reached first >>= fun reached => library.outcome reached second) := by
  unfold outcome
  rw [List.find?_append, List.foldl_append]
  cases first.find? fun name => (library.entry? name).isNone with
  | none => rfl
  | some name => rfl

theorem outcome_eq_ok {after : List Name} : library.outcome reached met = .ok after ↔
    (∀ name ∈ met, (library.entry? name).isSome = true) ∧ after = met.foldl insertNew reached := by
  unfold outcome
  cases hfind : met.find? fun name => (library.entry? name).isNone with
  | none =>
      rw [List.find?_eq_none] at hfind
      have hall : ∀ name ∈ met, (library.entry? name).isSome = true := by
        simpa [Option.isSome_iff_ne_none] using hfind
      simp only [Except.ok.injEq]
      exact ⟨fun h => ⟨hall, h.symm⟩, fun h => h.2.symm⟩
  | some name =>
      have hnone := List.find?_some hfind
      have hmem := List.mem_of_find?_eq_some hfind
      simp only [reduceCtorEq, false_iff, not_and]
      intro hall
      have := hall name hmem
      simp_all

theorem outcome_eq_error :
    (∃ name, library.outcome reached met = .error (.unknownFragment name)) ↔
      ∃ name ∈ met, library.entry? name = none := by
  unfold outcome
  cases hfind : met.find? fun name => (library.entry? name).isNone with
  | none =>
      rw [List.find?_eq_none] at hfind
      simpa using hfind
  | some name =>
      have hnone := List.find?_some hfind
      have hmem := List.mem_of_find?_eq_some hfind
      simp only [Except.error.injEq, DocumentError.unknownFragment.injEq, exists_eq', true_iff]
      exact ⟨name, hmem, by simpa using hnone⟩

/-- Nothing happens where all fragments that are met are marked. -/
theorem Marks.outcome_of_subset (h : library.Marks inside reached) (hmet : met ⊆ reached) :
    library.outcome reached met = .ok reached :=
  outcome_eq_ok.2 ⟨fun name hname => h.defined name (hmet hname),
    (foldl_insertNew_of_subset hmet).symm⟩

/-- A walk keeps what holds of the marked fragments. -/
theorem Marks.outcome {after : List Name} (h : library.Marks inside reached)
    (hmeets : library.Meets inside selections met)
    (houtcome : library.outcome reached met = .ok after) : library.Marks inside after := by
  obtain ⟨hdefined, rfl⟩ := outcome_eq_ok.1 houtcome
  constructor
  · exact fun name hname => mem_foldl_insertNew.2 (.inl (h.around hname))
  · intro name hname hnot other hother
    rw [mem_foldl_insertNew] at hname ⊢
    exact hname.imp (fun hname => h.closed name hname hnot other hother)
      (fun hname => hmeets.closed name hname hnot other hother)
  · intro name hname
    exact (mem_foldl_insertNew.1 hname).elim (h.defined name) (hdefined name)

/-! ## Walks over resolved selections -/

/-- Collecting the fragments of the resolved selections comes to what a walk over the written ones
comes to, whatever is marked. -/
def Follows (library : Library) (inside : List Name) (selections : List Selection)
    (resolved : List Resolved) : Prop :=
  ∃ met, library.Meets inside selections met ∧ ∀ reached, library.Marks inside reached →
    Resolved.reachAll reached resolved = library.outcome reached met

theorem reachAll_append (reached : List Name) (first second : List Resolved) :
    Resolved.reachAll reached (first ++ second) =
      (Resolved.reachAll reached first >>= fun reached => Resolved.reachAll reached second) := by
  induction first generalizing reached with
  | nil => rfl
  | cons selection rest ih =>
      rw [List.cons_append, Resolved.reachAll, Resolved.reachAll]
      cases Resolved.reach reached selection with
      | error error => rfl
      | ok reached => exact ih reached

theorem reachAll_singleton (reached : List Name) (selection : Resolved) :
    Resolved.reachAll reached [selection] = Resolved.reach reached selection := by
  rw [Resolved.reachAll]
  cases Resolved.reach reached selection <;> rfl

namespace Follows

variable {resolved : List Resolved}

theorem nil : library.Follows inside [] [] := ⟨[], .nil, fun _ _ => rfl⟩

theorem append {more : List Selection} {others : List Resolved}
    (h : library.Follows inside selections resolved)
    (h' : library.Follows inside more others) :
    library.Follows inside (selections ++ more) (resolved ++ others) := by
  obtain ⟨met, hmeets, hreach⟩ := h
  obtain ⟨met', hmeets', hreach'⟩ := h'
  refine ⟨met ++ met', hmeets.append hmeets', fun reached hmarks => ?_⟩
  rw [reachAll_append, hreach reached hmarks, outcome_append]
  cases houtcome : library.outcome reached met with
  | error error => rfl
  | ok after => exact hreach' after (hmarks.outcome hmeets houtcome)

theorem field {parent : Name} {node : FieldNode} {definition : FieldDefinition}
    (h : library.Follows inside selections resolved) :
    library.Follows inside [.field node selections] [.field parent node definition resolved] := by
  obtain ⟨met, hmeets, hreach⟩ := h
  refine ⟨met ++ [], .field hmeets .nil, fun reached hmarks => ?_⟩
  rw [reachAll_singleton, Resolved.reach, List.append_nil]
  exact hreach reached hmarks

theorem inline {condition : Option Name} {type : Name} {directives : List Directive}
    (h : library.Follows inside selections resolved) :
    library.Follows inside [.inline condition directives selections]
      [.inline condition type directives resolved] := by
  obtain ⟨met, hmeets, hreach⟩ := h
  refine ⟨met ++ [], .inline hmeets .nil, fun reached hmarks => ?_⟩
  rw [reachAll_singleton, Resolved.reach, List.append_nil]
  exact hreach reached hmarks

theorem undefined {name : Name} {directives : List Directive}
    (hnone : library.entry? name = none) :
    library.Follows inside [.spread name directives] [.dangling name directives .undefined] := by
  refine ⟨[name], .undefined hnone .nil, fun reached hmarks => ?_⟩
  have hnot : name ∉ reached := by
    intro hname
    have hdefined := hmarks.defined name hname
    rw [hnone] at hdefined
    exact Bool.false_ne_true hdefined
  rw [reachAll_singleton, Resolved.reach, if_neg hnot, Library.outcome]
  simp [hnone, Dangling.error]

/-- A fragment that the walk is inside of is marked, so that its spread is passed by, whether or not
it is cut off. -/
theorem back {name : Name} {directives : List Directive} {first : Resolved} (hname : name ∈ inside)
    (hfirst : ∀ reached, name ∈ reached → Resolved.reach reached first = .ok reached) :
    library.Follows inside [.spread name directives] [first] := by
  refine ⟨[name], .back hname .nil, fun reached hmarks => ?_⟩
  have hmem : name ∈ reached := hmarks.around hname
  rw [reachAll_singleton, hfirst reached hmem]
  exact (hmarks.outcome_of_subset (List.cons_subset.2 ⟨hmem, List.nil_subset _⟩)).symm

theorem enter {name : Name} {directives : List Directive} {entry : Entry}
    (hentry : library.entry? name = some entry) (hnot : name ∉ inside)
    (h : library.Follows (name :: inside) entry.fragment.selections resolved) :
    library.Follows inside [.spread name directives]
      [.spread name directives entry.fragment.onType resolved] := by
  obtain ⟨met, hmeets, hreach⟩ := h
  have hwhole : library.Meets inside [.spread name directives] (name :: (met ++ [])) :=
    .enter hentry hnot hmeets .nil
  refine ⟨name :: (met ++ []), hwhole, fun reached hmarks => ?_⟩
  rw [reachAll_singleton, Resolved.reach]
  by_cases hname : name ∈ reached
  · -- the fragment was left before, so that everything in it is marked
    rw [if_pos hname]
    have hsub := hmarks.meets_subset hwhole (List.cons_subset.2 ⟨hname, List.nil_subset _⟩)
    exact (hmarks.outcome_of_subset hsub).symm
  · have hentered : library.Marks (name :: inside) (reached ++ [name]) := by
      refine ⟨fun other hother => ?_, fun other hother hout target htarget => ?_,
        fun other hother => ?_⟩
      · rcases List.mem_cons.1 hother with rfl | hother
        · simp
        · exact List.mem_append_left _ (hmarks.around hother)
      · rw [List.mem_cons, not_or] at hout
        have hother : other ∈ reached := by simpa [hout.1] using hother
        exact List.mem_append_left _ (hmarks.closed other hother hout.2 target htarget)
      · rcases List.mem_append.1 hother with hother | hother
        · exact hmarks.defined other hother
        · rw [List.mem_singleton.1 hother, hentry]
          rfl
    rw [if_neg hname, hreach _ hentered, List.append_nil, Library.outcome, Library.outcome,
      List.find?_cons_of_neg (by simp [hentry]), List.foldl_cons, insertNew, if_neg hname]

end Follows

/-- Resolved selections are followed as the written ones are. -/
theorem Unfolding.follows {rounds : Nat} {parent : Name} {resolved : List Resolved}
    (h : library.Unfolding schema rounds inside parent selections resolved) :
    library.Follows inside selections resolved := by
  induction h with
  | nil => exact .nil
  | field _ _ _ ihbelow ihrest => exact ihbelow.field.append ihrest
  | inline _ _ ihbelow ihrest => exact ihbelow.inline.append ihrest
  | @enter inside _ name _ _ _ _ _ hentry _ _ _ ihbelow ihrest =>
      by_cases hname : name ∈ inside
      · exact (Follows.back hname fun reached hmem => by rw [Resolved.reach, if_pos hmem]).append
          ihrest
      · exact (Follows.enter hentry hname ihbelow).append ihrest
  | cut _ hlt _ ihrest =>
      have hname := List.count_pos_iff.1 (Nat.zero_lt_of_lt hlt)
      exact (Follows.back hname fun reached hmem => by rw [Resolved.reach, if_pos hmem]).append
        ihrest
  | undefined hnone _ ihrest => exact (Follows.undefined hnone).append ihrest

/-- **Reached fragments are those that are met, in the same order.**  Resolve any selections with
the fragments of any library, which may spread each other in any way, for any number of rounds.
Collecting the fragments of the resolved selections comes to what a walk that remembers nothing
comes to. -/
theorem reachedFragments_of_resolve {rounds : Nat} {type : Name} {resolved : List Resolved}
    (h : library.resolve schema rounds type selections = .ok resolved) :
    ∃ met, library.Meets [] selections met ∧
      Resolved.reachedFragments resolved = library.outcome [] met := by
  obtain ⟨met, hmeets, hreach⟩ := (unfolding_of_resolve h).follows
  have hmarks : library.Marks [] [] :=
    ⟨List.nil_subset _, fun name hname => absurd hname List.not_mem_nil,
      fun name hname => absurd hname List.not_mem_nil⟩
  exact ⟨met, hmeets, hreach [] hmarks⟩

/-- The fragments that are found are those that the selections reach. -/
theorem mem_reachedFragments {rounds : Nat} {type : Name} {resolved : List Resolved}
    (h : library.resolve schema rounds type selections = .ok resolved)
    (hreached : Resolved.reachedFragments resolved = .ok reached) {name : Name} :
    name ∈ reached ↔ library.Reaches selections name := by
  obtain ⟨met, hmeets, houtcome⟩ := reachedFragments_of_resolve h
  obtain ⟨-, rfl⟩ := outcome_eq_ok.1 (houtcome.symm.trans hreached)
  rw [mem_foldl_insertNew, hmeets.mem_iff]
  simp

end Library

end ResponseModel

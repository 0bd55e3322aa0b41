import ResponseModel.Proofs.BuildOrder

/-!
# Walks through fragments that may use themselves

A walk from a fragment visits what the fragment uses first, and passes over what it has entered or
ordered already.  `BuildOrder.Visits` says what such a walk does, without a bound on its depth; a
derivation is a walk that ended.  Each visit inside another enters one more fragment, so a walk is
never deeper than there are fragments, and the bounded function gives what the relation says, also
where fragments use themselves (`visits_visit`).  The walks from all fragments, one after the other
into one order, are in `BuildOrder.Lists` (`lists_iff`).

From the rules it follows that an order lists every fragment once and nothing else
(`perm_of_ofBodies`), and that a walk fails only at the selections of a fragment
(`failsWith_of_ofBodies`).
-/

namespace ResponseModel

namespace BuildOrder

/-- The walk has entered or ordered the fragment. -/
def Walk.Seen (walk : Walk) (name : Name) : Prop := name ∈ walk.order ∨ name ∈ walk.entered

/-- The walk with one more fragment entered. -/
def Walk.enter (walk : Walk) (name : Name) : Walk := ⟨walk.entered ++ [name], walk.order⟩

/-- The walk with one more fragment ordered. -/
def Walk.leave (walk : Walk) (name : Name) : Walk := { walk with order := walk.order ++ [name] }

/-- `Visits bodies walk names outcome`: visiting the fragments `names` one after the other makes
`outcome` of the walk. -/
inductive Visits (bodies : List (Name × List Resolved)) :
    Walk → List Name → Except DocumentError Walk → Prop
  | nil {walk : Walk} : Visits bodies walk [] (.ok walk)
  | seen {walk : Walk} {name : Name} {rest : List Name} {outcome : Except DocumentError Walk} :
      walk.Seen name → Visits bodies walk rest outcome → Visits bodies walk (name :: rest) outcome
  | undefined {walk : Walk} {name : Name} {rest : List Name} :
      ¬walk.Seen name → bodies.lookup name = none →
      Visits bodies walk (name :: rest) (.error (.unknownFragment name))
  /-- The selections of the fragment lead to an error. -/
  | dangling {walk : Walk} {name : Name} {rest : List Name} {body : List Resolved}
      {error : DocumentError} :
      ¬walk.Seen name → bodies.lookup name = some body →
      Resolved.reachedFragments body = .error error →
      Visits bodies walk (name :: rest) (.error error)
  /-- A visit to what the fragment uses fails. -/
  | failed {walk : Walk} {name : Name} {rest reached : List Name} {body : List Resolved}
      {error : DocumentError} :
      ¬walk.Seen name → bodies.lookup name = some body →
      Resolved.reachedFragments body = .ok reached →
      Visits bodies (walk.enter name) reached (.error error) →
      Visits bodies walk (name :: rest) (.error error)
  | visited {walk inner : Walk} {name : Name} {rest reached : List Name} {body : List Resolved}
      {outcome : Except DocumentError Walk} :
      ¬walk.Seen name → bodies.lookup name = some body →
      Resolved.reachedFragments body = .ok reached →
      Visits bodies (walk.enter name) reached (.ok inner) →
      Visits bodies (inner.leave name) rest outcome →
      Visits bodies walk (name :: rest) outcome

/-- `Lists bodies order names outcome`: walks from the fragments `names`, each with nothing entered,
make `outcome` of the order. -/
inductive Lists (bodies : List (Name × List Resolved)) :
    List Name → List Name → Except DocumentError (List Name) → Prop
  | nil {order : List Name} : Lists bodies order [] (.ok order)
  | failed {order rest : List Name} {name : Name} {error : DocumentError} :
      Visits bodies ⟨[], order⟩ [name] (.error error) →
      Lists bodies order (name :: rest) (.error error)
  | visited {order rest : List Name} {name : Name} {walk : Walk}
      {outcome : Except DocumentError (List Name)} :
      Visits bodies ⟨[], order⟩ [name] (.ok walk) → Lists bodies walk.order rest outcome →
      Lists bodies order (name :: rest) outcome

variable {bodies : List (Name × List Resolved)} {walk : Walk} {names : List Name}

/-! ## One outcome -/

/-- A visit to a fragment that was not seen before visits what the fragment reaches, and goes on
from there if that succeeds. -/
theorem Visits.of_reached {name : Name} {rest reached : List Name} {body : List Resolved}
    {outcome : Except DocumentError Walk} (h : Visits bodies walk (name :: rest) outcome)
    (hunseen : ¬walk.Seen name) (hbody : bodies.lookup name = some body)
    (hreached : Resolved.reachedFragments body = .ok reached) :
    (∃ error, Visits bodies (walk.enter name) reached (.error error) ∧ outcome = .error error) ∨
      ∃ inner, Visits bodies (walk.enter name) reached (.ok inner) ∧
        Visits bodies (inner.leave name) rest outcome := by
  cases h with
  | seen hseen _ => exact absurd hseen hunseen
  | undefined _ hnone => simp [hnone] at hbody
  | dangling _ hbody' herror =>
      obtain rfl := Option.some.inj (hbody.symm.trans hbody')
      simp [herror] at hreached
  | failed _ hbody' hreached' hinner =>
      obtain rfl := Option.some.inj (hbody.symm.trans hbody')
      obtain rfl := Except.ok.inj (hreached.symm.trans hreached')
      exact .inl ⟨_, hinner, rfl⟩
  | visited _ hbody' hreached' hinner hrest =>
      obtain rfl := Option.some.inj (hbody.symm.trans hbody')
      obtain rfl := Except.ok.inj (hreached.symm.trans hreached')
      exact .inr ⟨_, hinner, hrest⟩

theorem Visits.unique {outcome outcome' : Except DocumentError Walk}
    (h : Visits bodies walk names outcome) (h' : Visits bodies walk names outcome') :
    outcome = outcome' := by
  induction h generalizing outcome' with
  | nil =>
      cases h'
      rfl
  | seen hseen _ ih =>
      cases h' with
      | seen _ hrest => exact ih hrest
      | undefined hunseen _ | dangling hunseen _ _ | failed hunseen _ _ _
      | visited hunseen _ _ _ _ => exact absurd hseen hunseen
  | undefined hunseen hnone =>
      cases h' with
      | seen hseen _ => exact absurd hseen hunseen
      | undefined _ _ => rfl
      | dangling _ hbody _ | failed _ hbody _ _ | visited _ hbody _ _ _ => simp [hnone] at hbody
  | dangling hunseen hbody herror =>
      cases h' with
      | seen hseen _ => exact absurd hseen hunseen
      | undefined _ hnone => simp [hnone] at hbody
      | dangling _ hbody' herror' =>
          obtain rfl := Option.some.inj (hbody.symm.trans hbody')
          exact congrArg _ (Except.error.inj (herror.symm.trans herror'))
      | failed _ hbody' hreached' _ | visited _ hbody' hreached' _ _ =>
          obtain rfl := Option.some.inj (hbody.symm.trans hbody')
          simp [herror] at hreached'
  | failed hunseen hbody hreached _ ih =>
      rcases h'.of_reached hunseen hbody hreached with ⟨error, hinner, rfl⟩ | ⟨inner, hinner, -⟩
      · exact congrArg _ (Except.error.inj (ih hinner))
      · cases ih hinner
  | visited hunseen hbody hreached _ _ ihinner ihrest =>
      rcases h'.of_reached hunseen hbody hreached with ⟨error, hinner, -⟩ | ⟨inner, hinner, hrest⟩
      · cases ihinner hinner
      · obtain rfl := Except.ok.inj (ihinner hinner)
        exact ihrest hrest

theorem Lists.unique {order : List Name} {outcome outcome' : Except DocumentError (List Name)}
    (h : Lists bodies order names outcome) (h' : Lists bodies order names outcome') :
    outcome = outcome' := by
  induction h generalizing outcome' with
  | nil =>
      cases h'
      rfl
  | failed hvisits =>
      cases h' with
      | failed hvisits' => exact congrArg _ (Except.error.inj (hvisits.unique hvisits'))
      | visited hvisits' _ => cases hvisits.unique hvisits'
  | visited hvisits _ ih =>
      cases h' with
      | failed hvisits' => cases hvisits.unique hvisits'
      | visited hvisits' hrest' =>
          obtain rfl := Except.ok.inj (hvisits.unique hvisits')
          exact ih hrest'

/-! ## Every walk ends -/

theorem Visits.cons_error {name : Name} {error : DocumentError}
    (h : Visits bodies walk [name] (.error error)) (rest : List Name) :
    Visits bodies walk (name :: rest) (.error error) := by
  cases h with
  | seen _ hnil => cases hnil
  | undefined hnot hnone => exact .undefined hnot hnone
  | dangling hnot hbody herror => exact .dangling hnot hbody herror
  | failed hnot hbody hreached hinner => exact .failed hnot hbody hreached hinner
  | visited _ _ _ _ hnil => cases hnil

theorem Visits.cons_ok {name : Name} {next : Walk} {rest : List Name}
    {outcome : Except DocumentError Walk} (h : Visits bodies walk [name] (.ok next))
    (hrest : Visits bodies next rest outcome) : Visits bodies walk (name :: rest) outcome := by
  cases h with
  | seen hseen hnil =>
      cases hnil
      exact .seen hseen hrest
  | visited hnot hbody hreached hinner hnil =>
      cases hnil
      exact .visited hnot hbody hreached hinner hrest

/-- Visits that keep something of the walk can follow each other. -/
theorem visits_foldlM {step : Walk → Name → Except DocumentError Walk} {P : Walk → Prop}
    (hstep : ∀ walk name, P walk → Visits bodies walk [name] (step walk name))
    (hkeeps : ∀ walk name after, P walk → step walk name = .ok after → P after)
    (hwalk : P walk) : Visits bodies walk names (names.foldlM step walk) := by
  induction names generalizing walk with
  | nil => exact .nil
  | cons name rest ih =>
      have hfirst := hstep walk name hwalk
      rw [List.foldlM_cons]
      cases hnext : step walk name with
      | error error =>
          rw [hnext] at hfirst
          exact hfirst.cons_error rest
      | ok next =>
          rw [hnext] at hfirst
          exact hfirst.cons_ok (ih (hkeeps walk name next hwalk hnext))

/-! Visits to a fragment that was not seen before, by what its selections lead to. -/

section Unseen

variable {fuel : Nat} {name : Name} (hunseen : ¬walk.Seen name)
include hunseen

theorem visit_of_lookup_eq_none (hnone : bodies.lookup name = none) :
    visit bodies (fuel + 1) walk name = .error (.unknownFragment name) := by
  unfold Walk.Seen at hunseen
  rw [visit, if_neg hunseen, hnone]

variable {body : List Resolved} (hbody : bodies.lookup name = some body)
include hbody

theorem visit_of_reached_eq_error {error : DocumentError}
    (herror : Resolved.reachedFragments body = .error error) :
    visit bodies (fuel + 1) walk name = .error error := by
  unfold Walk.Seen at hunseen
  rw [visit, if_neg hunseen, hbody]
  simp only [herror]
  rfl

theorem visit_of_reached_eq_ok {reached : List Name}
    (hreached : Resolved.reachedFragments body = .ok reached) :
    visit bodies (fuel + 1) walk name =
      (reached.foldlM (visit bodies fuel) (walk.enter name)).map (Walk.leave · name) := by
  unfold Walk.Seen at hunseen
  rw [visit, if_neg hunseen, hbody, Walk.enter]
  simp only [hreached]
  cases hinner : reached.foldlM (visit bodies fuel) ⟨walk.entered ++ [name], walk.order⟩ with
  | error error => exact congrArg (· >>= fun inner : Walk => .ok (inner.leave name)) hinner
  | ok inner => exact congrArg (· >>= fun inner : Walk => .ok (inner.leave name)) hinner

end Unseen

/-- The bound on the depth of a visit is never felt: the fragments around it are all different. -/
theorem visits_visit {fuel : Nat} {stack : List Name} {name : Name} (hnodup : stack.Nodup)
    (hstack : ∀ around ∈ stack, around ∈ bodies.map Prod.fst)
    (hentered : ∀ around ∈ stack, around ∈ walk.entered)
    (hfuel : bodies.length < fuel + stack.length) :
    Visits bodies walk [name] (visit bodies fuel walk name) := by
  induction fuel generalizing stack walk name with
  | zero =>
      -- there are not so many fragments
      have hlength := (List.subperm_of_subset hnodup hstack).length_le
      rw [List.length_map] at hlength
      omega
  | succ fuel ih =>
      by_cases hseen : walk.Seen name
      · have hwalk : visit bodies (fuel + 1) walk name = .ok walk := by
          unfold Walk.Seen at hseen
          rw [visit, if_pos hseen]
        rw [hwalk]
        exact .seen hseen .nil
      cases hbody : bodies.lookup name with
      | none =>
          rw [visit_of_lookup_eq_none hseen hbody]
          exact .undefined hseen hbody
      | some body =>
          cases hreached : Resolved.reachedFragments body with
          | error error =>
              rw [visit_of_reached_eq_error hseen hbody hreached]
              exact .dangling hseen hbody hreached
          | ok reached =>
              -- the fragment is none of those around it, for those are entered
              have hfresh : name ∉ stack := fun hmem => hseen (.inr (hentered name hmem))
              have hname : name ∈ bodies.map Prod.fst := by
                obtain ⟨before, after, rfl, -⟩ := List.lookup_eq_some_iff.1 hbody
                simp
              have hinner : Visits bodies (walk.enter name) reached
                  (reached.foldlM (visit bodies fuel) (walk.enter name)) := by
                refine visits_foldlM
                  (P := fun inner => ∀ around ∈ name :: stack, around ∈ inner.entered) ?_ ?_ ?_
                · intro inner other hinner
                  refine ih (List.nodup_cons.2 ⟨hfresh, hnodup⟩)
                    (List.forall_mem_cons.2 ⟨hname, hstack⟩) hinner ?_
                  rw [List.length_cons]
                  omega
                · intro inner other after hinner hafter around haround
                  exact (extends_visit hafter).entered around (hinner around haround)
                · intro around haround
                  rcases List.mem_cons.1 haround with rfl | haround
                  · exact List.mem_append_right _ (List.mem_singleton_self _)
                  · exact List.mem_append_left _ (hentered around haround)
              rw [visit_of_reached_eq_ok hseen hbody hreached]
              cases hresult : reached.foldlM (visit bodies fuel) (walk.enter name) with
              | error error => exact .failed hseen hbody hreached (hresult ▸ hinner)
              | ok inner => exact .visited hseen hbody hreached (hresult ▸ hinner) .nil

theorem lists_visitAll (order : List Name) :
    Lists bodies order names (visitAll bodies names order) := by
  induction names generalizing order with
  | nil => exact .nil
  | cons name rest ih =>
      have hvisits : Visits bodies ⟨[], order⟩ [name]
          (visit bodies (bodies.length + 1) ⟨[], order⟩ name) :=
        visits_visit .nil (by simp) (by simp) (by simp)
      rw [visitAll]
      cases hwalk : visit bodies (bodies.length + 1) ⟨[], order⟩ name with
      | error error => exact .failed (hwalk ▸ hvisits)
      | ok walk => exact .visited (hwalk ▸ hvisits) (ih walk.order)

/-- **Walks from all fragments end**, and the order that is computed is their outcome. -/
theorem lists_iff {outcome : Except DocumentError (List Name)} :
    Lists bodies [] (bodies.map Prod.fst) outcome ↔ outcome = ofBodies bodies := by
  constructor
  · intro h
    exact h.unique (lists_visitAll [])
  · rintro rfl
    exact lists_visitAll []

/-! ## What an order lists -/

/-- The selections of the fragment lead to fragments only. -/
def Reaching (bodies : List (Name × List Resolved)) (name : Name) : Prop :=
  ∃ body reached, bodies.lookup name = some body ∧ Resolved.reachedFragments body = .ok reached

/-- A walk adds fragments that lead to fragments only. -/
theorem Visits.mem_or_reaching {outcome : Except DocumentError Walk}
    (h : Visits bodies walk names outcome) {after : Walk} (hok : outcome = .ok after) :
    (∀ name ∈ walk.order, name ∈ after.order) ∧
      ∀ name ∈ after.order, name ∈ walk.order ∨ Reaching bodies name := by
  induction h generalizing after with
  | nil =>
      obtain rfl := Except.ok.inj hok
      exact ⟨fun _ hname => hname, fun _ hname => .inl hname⟩
  | seen _ _ ih => exact ih hok
  | undefined _ _ | dangling _ _ _ | failed _ _ _ _ _ => cases hok
  | @visited walk inner name rest reached body outcome _ hbody hreached _ _ ihinner ihrest =>
      -- the order is that of the inner visits, then the fragment itself, then the rest
      obtain ⟨hkept, hinner⟩ := ihinner rfl
      obtain ⟨hkept', hafter⟩ := ihrest hok
      have hmem : ∀ {other : Name}, other ∈ (inner.leave name).order ↔
          other ∈ inner.order ∨ other = name := by
        intro other
        rw [Walk.leave, List.mem_append, List.mem_singleton]
      constructor
      · intro other hother
        exact hkept' other (hmem.2 (.inl (hkept other hother)))
      · intro other hother
        rcases hafter other hother with hother | hother
        · rcases hmem.1 hother with hother | rfl
          · exact hinner other hother
          · exact .inr ⟨body, reached, hbody, hreached⟩
        · exact .inr hother

/-- A walk with nothing entered orders the fragment that it starts from. -/
theorem Visits.mem_order {order : List Name} {name : Name} {after : Walk}
    (h : Visits bodies ⟨[], order⟩ [name] (.ok after)) : name ∈ after.order := by
  cases h with
  | seen hseen hnil =>
      cases hnil
      exact hseen.resolve_right List.not_mem_nil
  | visited _ _ _ _ hnil =>
      cases hnil
      exact List.mem_append_right _ (List.mem_singleton_self name)

theorem Lists.mem_iff {order : List Name} {outcome : Except DocumentError (List Name)}
    (h : Lists bodies order names outcome) {result : List Name} (hok : outcome = .ok result) :
    (∀ name ∈ order ++ names, name ∈ result) ∧
      ∀ name ∈ result, name ∈ order ∨ Reaching bodies name := by
  induction h generalizing result with
  | nil =>
      obtain rfl := Except.ok.inj hok
      exact ⟨fun name hname => by simpa using hname, fun name hname => .inl hname⟩
  | failed _ => cases hok
  | visited hvisits _ ih =>
      obtain ⟨hall, honly⟩ := ih hok
      obtain ⟨hkept, hadded⟩ := hvisits.mem_or_reaching rfl
      constructor
      · intro name hname
        rcases List.mem_append.1 hname with hname | hname
        · exact hall name (List.mem_append_left _ (hkept name hname))
        · rcases List.mem_cons.1 hname with rfl | hname
          · exact hall name (List.mem_append_left _ hvisits.mem_order)
          · exact hall name (List.mem_append_right _ hname)
      · intro name hname
        exact (honly name hname).elim (hadded name) .inr

/-- The order lists every fragment exactly once and nothing else, and all of them lead to fragments
only.  Fragments may use themselves. -/
theorem perm_of_ofBodies (hnodup : (bodies.map Prod.fst).Nodup) {order : List Name}
    (h : ofBodies bodies = .ok order) :
    order.Perm (bodies.map Prod.fst) ∧ ∀ name ∈ bodies.map Prod.fst, Reaching bodies name := by
  obtain ⟨hall, honly⟩ := (lists_iff.2 rfl).mem_iff h
  have hreaching : ∀ name ∈ order, Reaching bodies name := fun name hname =>
    (honly name hname).resolve_left List.not_mem_nil
  have hmem : ∀ name, name ∈ order ↔ name ∈ bodies.map Prod.fst := by
    intro name
    constructor
    · intro hname
      obtain ⟨body, -, hbody, -⟩ := hreaching name hname
      obtain ⟨before, after, rfl, -⟩ := List.lookup_eq_some_iff.1 hbody
      simp
    · exact fun hname => hall name (by simpa using hname)
  exact ⟨(List.perm_ext_iff_of_nodup (nodup_of_ofBodies h) hnodup).2 hmem,
    fun name hname => hreaching name ((hmem name).2 hname)⟩

/-! ## Where a walk fails -/

/-- The selections of some fragment lead to the error. -/
def FailsWith (bodies : List (Name × List Resolved)) (error : DocumentError) : Prop :=
  ∃ name body, bodies.lookup name = some body ∧ Resolved.reachedFragments body = .error error

section Fails

variable (hclosed : ∀ name body reached, bodies.lookup name = some body →
  Resolved.reachedFragments body = .ok reached → ∀ other ∈ reached, bodies.lookup other ≠ none)
include hclosed

/-- Where everything that is reached is a fragment, a walk fails only at the selections of a
fragment. -/
theorem Visits.failsWith {outcome : Except DocumentError Walk}
    (h : Visits bodies walk names outcome) (hnames : ∀ name ∈ names, bodies.lookup name ≠ none)
    {error : DocumentError} (herror : outcome = .error error) : FailsWith bodies error := by
  induction h with
  | nil => cases herror
  | seen _ _ ih => exact ih (fun name hname => hnames name (List.mem_cons_of_mem _ hname)) herror
  | undefined _ hnone => exact absurd hnone (hnames _ List.mem_cons_self)
  | dangling _ hbody hreached =>
      obtain rfl := Except.error.inj herror
      exact ⟨_, _, hbody, hreached⟩
  | failed _ hbody hreached _ ih => exact ih (hclosed _ _ _ hbody hreached) herror
  | visited _ _ _ _ _ _ ihrest =>
      exact ihrest (fun name hname => hnames name (List.mem_cons_of_mem _ hname)) herror

theorem Lists.failsWith {order : List Name} {outcome : Except DocumentError (List Name)}
    (h : Lists bodies order names outcome) (hnames : ∀ name ∈ names, bodies.lookup name ≠ none)
    {error : DocumentError} (herror : outcome = .error error) : FailsWith bodies error := by
  induction h with
  | nil => cases herror
  | failed hvisits =>
      obtain rfl := Except.error.inj herror
      refine hvisits.failsWith hclosed (fun name hname => ?_) rfl
      rw [List.mem_singleton.1 hname]
      exact hnames _ List.mem_cons_self
  | visited _ _ ih => exact ih (fun name hname => hnames name (List.mem_cons_of_mem _ hname)) herror

theorem failsWith_of_ofBodies {error : DocumentError} (h : ofBodies bodies = .error error) :
    FailsWith bodies error := by
  refine (lists_iff.2 rfl).failsWith hclosed (fun name hname => ?_) h
  intro hnone
  obtain ⟨entry, hentry, rfl⟩ := List.mem_map.1 hname
  simpa using List.lookup_eq_none_iff.1 hnone entry hentry

end Fails

end BuildOrder

end ResponseModel

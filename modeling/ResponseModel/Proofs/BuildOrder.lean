import Mathlib.Data.List.Perm.Subperm
import Mathlib.Logic.Relation
import ResponseModel.Document.Reach
import ResponseModel.Proofs.Success

/-!
# The order in which fragments are built

A walk enters a fragment, visits the fragments that it uses, and then puts it at the end of the
order.  A visit only adds fragments that were neither entered nor ordered before
(`Walk.Extends`), so that the order lists every fragment at most once (`nodup_of_ofBodies`).  Where
no fragment uses itself, a fragment that a visit finds entered but not yet ordered would lead back
to itself; so the order lists every fragment, after all those that it uses
(`ordered_of_ofBodies`).  There is an order if the selections of every fragment lead to fragments
only (`Closed.exists_ofBodies`).
-/

namespace ResponseModel

namespace BuildOrder

/-- What a visit does to a walk: entered fragments stay entered, and the fragments that it adds to
the order are new. -/
structure Walk.Extends (before after : Walk) : Prop where
  entered : ∀ name ∈ before.entered, name ∈ after.entered
  order : ∃ added, after.order = before.order ++ added ∧ added.Nodup ∧
    ∀ name ∈ added, name ∉ before.order ∧ name ∉ before.entered

theorem Walk.Extends.refl (walk : Walk) : walk.Extends walk :=
  ⟨fun _ h => h, [], (List.append_nil _).symm, .nil, by simp⟩

theorem Walk.Extends.trans {first second third : Walk} (h : first.Extends second)
    (h' : second.Extends third) : first.Extends third := by
  obtain ⟨hentered, added, horder, hnodup, hnew⟩ := h
  obtain ⟨hentered', added', horder', hnodup', hnew'⟩ := h'
  refine ⟨fun name hname => hentered' name (hentered name hname), added ++ added', ?_, ?_, ?_⟩
  · rw [horder', horder, List.append_assoc]
  · refine List.nodup_append.2 ⟨hnodup, hnodup', fun name hname name' hname' heq => ?_⟩
    subst heq
    apply (hnew' name hname').1
    rw [horder]
    exact List.mem_append_right _ hname
  · intro name hname
    rcases List.mem_append.1 hname with hname | hname
    · exact hnew name hname
    · obtain ⟨hnotOrder, hnotEntered⟩ := hnew' name hname
      rw [horder] at hnotOrder
      exact ⟨fun h => hnotOrder (List.mem_append_left _ h),
        fun h => hnotEntered (hentered name h)⟩

theorem Walk.extends_foldlM {step : Walk → Name → Except DocumentError Walk}
    (hstep : ∀ walk name after, step walk name = .ok after → walk.Extends after)
    {names : List Name} {walk after : Walk} (h : names.foldlM step walk = .ok after) :
    walk.Extends after := by
  induction names generalizing walk with
  | nil =>
      obtain rfl := Except.ok.inj h
      exact .refl walk
  | cons name rest ih =>
      rw [List.foldlM_cons] at h
      obtain ⟨next, hnext, h⟩ := except_bind_eq_ok.1 h
      exact (hstep walk name next hnext).trans (ih h)

variable {bodies : List (Name × List Resolved)}

/-- A visit leaves the walk alone if the fragment was seen before, and otherwise visits what the
fragment uses, with its name entered, and puts the name at the end. -/
theorem visit_succ_eq_ok {fuel : Nat} {walk after : Walk} {name : Name}
    (h : visit bodies (fuel + 1) walk name = .ok after) :
    (name ∈ walk.order ∨ name ∈ walk.entered) ∧ after = walk ∨
    (name ∉ walk.order ∧ name ∉ walk.entered) ∧ ∃ body reached inner,
      bodies.lookup name = some body ∧ Resolved.reachedFragments body = .ok reached ∧
      reached.foldlM (visit bodies fuel) ⟨walk.entered ++ [name], walk.order⟩ = .ok inner ∧
      after = { inner with order := inner.order ++ [name] } := by
  rw [visit] at h
  by_cases hseen : name ∈ walk.order ∨ name ∈ walk.entered
  · rw [if_pos hseen] at h
    exact .inl ⟨hseen, (Except.ok.inj h).symm⟩
  · rw [if_neg hseen] at h
    cases hbody : bodies.lookup name with
    | none => simp [hbody] at h
    | some body =>
        simp only [hbody] at h
        obtain ⟨reached, hreached, h⟩ := except_bind_eq_ok.1 h
        obtain ⟨inner, hinner, h⟩ := except_bind_eq_ok.1 h
        exact .inr ⟨not_or.1 hseen, body, reached, inner, rfl, hreached, hinner,
          (Except.ok.inj h).symm⟩

theorem extends_visit {fuel : Nat} {walk after : Walk} {name : Name}
    (h : visit bodies fuel walk name = .ok after) : walk.Extends after := by
  induction fuel generalizing walk after name with
  | zero =>
      obtain rfl := Except.ok.inj h
      exact .refl walk
  | succ fuel ih =>
      obtain ⟨-, rfl⟩ | ⟨hnotSeen, _, _, inner, -, -, hinner, rfl⟩ := visit_succ_eq_ok h
      · exact .refl after
      -- inside the fragment its name counts as entered, so that nothing below adds it
      obtain ⟨hentered, added, horder, hnodup, hnew⟩ :=
        Walk.extends_foldlM (fun _ _ _ => ih) hinner
      have hfresh : name ∉ added := fun hname =>
        (hnew name hname).2 (List.mem_append_right _ (List.mem_singleton_self name))
      refine ⟨fun n hn => hentered n (List.mem_append_left _ hn), added ++ [name], ?_, ?_, ?_⟩
      · rw [horder, List.append_assoc]
      · refine List.nodup_append.2 ⟨hnodup, by simp, fun n hn n' hn' heq => hfresh ?_⟩
        rw [← List.mem_singleton.1 hn', ← heq]
        exact hn
      · intro n hn
        rcases List.mem_append.1 hn with hn | hn
        · exact ⟨(hnew n hn).1, fun h => (hnew n hn).2 (List.mem_append_left _ h)⟩
        · rw [List.mem_singleton.1 hn]
          exact hnotSeen

theorem nodup_visitAll {names order result : List Name} (horder : order.Nodup)
    (h : visitAll bodies names order = .ok result) : result.Nodup := by
  induction names generalizing order with
  | nil =>
      obtain rfl := Except.ok.inj h
      exact horder
  | cons name rest ih =>
      obtain ⟨after, hafter, h⟩ := except_bind_eq_ok.1 h
      obtain ⟨-, added, hadded, hnodup, hnew⟩ := extends_visit hafter
      refine ih ?_ h
      rw [hadded]
      refine List.nodup_append.2 ⟨horder, hnodup, fun n hn n' hn' heq => ?_⟩
      exact (hnew n' hn').1 (heq ▸ hn)

/-- The order lists every fragment at most once. -/
theorem nodup_of_ofBodies {order : List Name} (h : ofBodies bodies = .ok order) : order.Nodup :=
  nodup_visitAll .nil h

/-! ## Every fragment after those that it uses -/

/-- The selections of the first fragment reach the second. -/
def Uses (bodies : List (Name × List Resolved)) (name other : Name) : Prop :=
  ∃ body reached, bodies.lookup name = some body ∧
    Resolved.reachedFragments body = .ok reached ∧ other ∈ reached

/-- Every fragment of the list comes after those that it uses. -/
inductive Ordered (bodies : List (Name × List Resolved)) : List Name → Prop
  | nil : Ordered bodies []
  | snoc {order : List Name} {name : Name} {body : List Resolved} {reached : List Name} :
      Ordered bodies order → bodies.lookup name = some body →
      Resolved.reachedFragments body = .ok reached → (∀ other ∈ reached, other ∈ order) →
      Ordered bodies (order ++ [name])

/-- Wherever a fragment stands in such a list, what it uses stands before it. -/
theorem Ordered.exists_reached {order before after : List Name} {name : Name}
    (h : Ordered bodies order) (hsplit : order = before ++ name :: after) :
    ∃ body reached, bodies.lookup name = some body ∧
      Resolved.reachedFragments body = .ok reached ∧ ∀ other ∈ reached, other ∈ before := by
  induction h generalizing after with
  | nil => simp at hsplit
  | @snoc order last body reached _ hbody hreached hearlier ih =>
      rcases List.eq_nil_or_concat after with rfl | ⟨after, other, rfl⟩
      · obtain ⟨rfl, hlast⟩ := List.append_inj' hsplit rfl
        obtain rfl := (List.cons.inj hlast).1
        exact ⟨body, reached, hbody, hreached, hearlier⟩
      · have hinit : order ++ [last] = (before ++ name :: after) ++ [other] := by
          simpa using hsplit
        exact ih (List.append_inj' hinit rfl).1

/-! ## When there is an order -/

/-- The selections of every fragment reach fragments only. -/
def Closed (bodies : List (Name × List Resolved)) : Prop :=
  ∀ name ∈ bodies.map Prod.fst, ∃ body reached, bodies.lookup name = some body ∧
    Resolved.reachedFragments body = .ok reached ∧ ∀ other ∈ reached, other ∈ bodies.map Prod.fst

theorem exists_foldlM {step : Walk → Name → Except DocumentError Walk} {names : List Name}
    (hstep : ∀ name ∈ names, ∀ walk, ∃ after, step walk name = .ok after) (walk : Walk) :
    ∃ after, names.foldlM step walk = .ok after := by
  induction names generalizing walk with
  | nil => exact ⟨walk, rfl⟩
  | cons name rest ih =>
      obtain ⟨hhead, hrest⟩ := List.forall_mem_cons.1 hstep
      obtain ⟨next, hnext⟩ := hhead walk
      obtain ⟨after, hafter⟩ := ih hrest next
      exact ⟨after, by rw [List.foldlM_cons, hnext]; exact hafter⟩

theorem Closed.exists_visit (h : Closed bodies) (fuel : Nat) {name : Name}
    (hname : name ∈ bodies.map Prod.fst) (walk : Walk) :
    ∃ after, visit bodies fuel walk name = .ok after := by
  induction fuel generalizing walk name with
  | zero => exact ⟨walk, rfl⟩
  | succ fuel ih =>
      rw [visit]
      by_cases hseen : name ∈ walk.order ∨ name ∈ walk.entered
      · rw [if_pos hseen]
        exact ⟨walk, rfl⟩
      · obtain ⟨body, reached, hbody, hreached, hothers⟩ := h name hname
        have hstep : ∀ other ∈ reached, ∀ walk, ∃ after, visit bodies fuel walk other = .ok after :=
          fun other hother walk => ih (hothers other hother) walk
        obtain ⟨inner, hinner⟩ := exists_foldlM hstep ⟨walk.entered ++ [name], walk.order⟩
        simp only [if_neg hseen, hbody]
        exact ⟨_, except_bind_eq_ok.2 ⟨reached, hreached,
          except_bind_eq_ok.2 ⟨inner, hinner, rfl⟩⟩⟩

theorem Closed.exists_visitAll (h : Closed bodies) {names : List Name}
    (hnames : ∀ name ∈ names, name ∈ bodies.map Prod.fst) (order : List Name) :
    ∃ result, visitAll bodies names order = .ok result := by
  induction names generalizing order with
  | nil => exact ⟨order, rfl⟩
  | cons name rest ih =>
      obtain ⟨hhead, hrest⟩ := List.forall_mem_cons.1 hnames
      obtain ⟨walk, hwalk⟩ := h.exists_visit (bodies.length + 1) hhead ⟨[], order⟩
      obtain ⟨result, hresult⟩ := ih hrest walk.order
      exact ⟨result, except_bind_eq_ok.2 ⟨walk, hwalk, hresult⟩⟩

/-- If the selections of every fragment lead to fragments only, there is an order. -/
theorem Closed.exists_ofBodies (h : Closed bodies) : ∃ order, ofBodies bodies = .ok order :=
  h.exists_visitAll (fun _ hname => hname) []

/-! ## Walks of fragments that do not use themselves -/

/-- What holds of a walk inside the fragments `stack`: the fragments entered are ordered by now or
among these, and the order is right so far. -/
structure Walk.Valid (bodies : List (Name × List Resolved)) (stack : List Name) (walk : Walk) :
    Prop where
  entered : ∀ name ∈ walk.entered, name ∈ walk.order ∨ name ∈ stack
  ordered : Ordered bodies walk.order

theorem Walk.Extends.mem_order {before after : Walk} (h : before.Extends after) {name : Name}
    (hname : name ∈ before.order) : name ∈ after.order := by
  obtain ⟨-, added, horder, -, -⟩ := h
  rw [horder]
  exact List.mem_append_left _ hname

theorem Walk.valid_foldlM {step : Walk → Name → Except DocumentError Walk} {stack names : List Name}
    (hextends : ∀ walk name after, step walk name = .ok after → walk.Extends after)
    (hstep : ∀ name ∈ names, ∀ walk after, walk.Valid bodies stack → step walk name = .ok after →
      after.Valid bodies stack ∧ name ∈ after.order)
    {walk after : Walk} (hvalid : walk.Valid bodies stack)
    (h : names.foldlM step walk = .ok after) :
    after.Valid bodies stack ∧ ∀ name ∈ names, name ∈ after.order := by
  induction names generalizing walk with
  | nil =>
      obtain rfl := Except.ok.inj h
      exact ⟨hvalid, fun name hname => absurd hname List.not_mem_nil⟩
  | cons name rest ih =>
      rw [List.foldlM_cons] at h
      obtain ⟨next, hnext, hrest⟩ := except_bind_eq_ok.1 h
      obtain ⟨hnextValid, hordered⟩ := hstep name List.mem_cons_self walk next hvalid hnext
      obtain ⟨hafter, hall⟩ :=
        ih (fun n hn => hstep n (List.mem_cons_of_mem _ hn)) hnextValid hrest
      exact ⟨hafter,
        List.forall_mem_cons.2 ⟨(extends_foldlM hextends hrest).mem_order hordered, hall⟩⟩

section Acyclic

variable (hacyclic : ∀ name, ¬Relation.TransGen (Uses bodies) name name)
include hacyclic

/-- A visit keeps a walk valid and ends with its fragment in the order. -/
theorem valid_visit {fuel : Nat} {stack : List Name} {walk after : Walk} {name : Name}
    (hnodup : stack.Nodup) (hstack : ∀ around ∈ stack, around ∈ bodies.map Prod.fst)
    (hfuel : bodies.length < fuel + stack.length)
    (hleads : ∀ around ∈ stack, Relation.TransGen (Uses bodies) around name)
    (hvalid : walk.Valid bodies stack) (h : visit bodies fuel walk name = .ok after) :
    after.Valid bodies stack ∧ name ∈ after.order := by
  have hfresh : name ∉ stack := fun hmem => hacyclic name (hleads name hmem)
  induction fuel generalizing stack walk after name with
  | zero =>
      -- there are not so many fragments
      have hlength := (List.subperm_of_subset hnodup hstack).length_le
      rw [List.length_map] at hlength
      omega
  | succ fuel ih =>
      obtain ⟨hseen, rfl⟩ | ⟨-, body, reached, inner, hbody, hreached, hinner, rfl⟩ :=
        visit_succ_eq_ok h
      · refine ⟨hvalid, hseen.elim id fun hentered => ?_⟩
        exact (hvalid.entered name hentered).resolve_right hfresh
      have hname : name ∈ bodies.map Prod.fst := by
        obtain ⟨before, after, rfl, -⟩ := List.lookup_eq_some_iff.1 hbody
        simp
      have hentered : Walk.Valid bodies (name :: stack) ⟨walk.entered ++ [name], walk.order⟩ := by
        refine ⟨fun n hn => ?_, hvalid.ordered⟩
        rcases List.mem_append.1 hn with hn | hn
        · exact (hvalid.entered n hn).imp_right (List.mem_cons_of_mem _)
        · rw [List.mem_singleton.1 hn]
          exact .inr List.mem_cons_self
      have hstep : ∀ other ∈ reached, ∀ walk after, Walk.Valid bodies (name :: stack) walk →
          visit bodies fuel walk other = .ok after →
          after.Valid bodies (name :: stack) ∧ other ∈ after.order := by
        intro other hother walk after hwalk hafter
        have huses : Uses bodies name other := ⟨body, reached, hbody, hreached, hother⟩
        have hleads' : ∀ around ∈ name :: stack, Relation.TransGen (Uses bodies) around other :=
          List.forall_mem_cons.2
            ⟨.single huses, fun around haround => (hleads around haround).tail huses⟩
        refine ih (List.nodup_cons.2 ⟨hfresh, hnodup⟩) (List.forall_mem_cons.2 ⟨hname, hstack⟩) ?_
          hleads' hwalk hafter fun hmem => hacyclic other (hleads' other hmem)
        rw [List.length_cons]
        omega
      obtain ⟨hinnerValid, hall⟩ :=
        Walk.valid_foldlM (fun _ _ _ => extends_visit) hstep hentered hinner
      refine ⟨⟨fun n hn => ?_, .snoc hinnerValid.ordered hbody hreached hall⟩,
        List.mem_append_right _ (List.mem_singleton_self name)⟩
      rcases hinnerValid.entered n hn with hn | hn
      · exact .inl (List.mem_append_left _ hn)
      · rcases List.mem_cons.1 hn with rfl | hn
        · exact .inl (List.mem_append_right _ (List.mem_singleton_self n))
        · exact .inr hn

theorem ordered_visitAll {names order result : List Name} (horder : Ordered bodies order)
    (h : visitAll bodies names order = .ok result) :
    Ordered bodies result ∧ ∀ name ∈ order ++ names, name ∈ result := by
  induction names generalizing order with
  | nil =>
      obtain rfl := Except.ok.inj h
      exact ⟨horder, by simp⟩
  | cons name rest ih =>
      obtain ⟨after, hafter, h⟩ := except_bind_eq_ok.1 h
      have hstart : Walk.Valid bodies [] ⟨[], order⟩ := ⟨by simp, horder⟩
      obtain ⟨hvalid, hname⟩ :=
        valid_visit hacyclic .nil (by simp) (by simp) (by simp) hstart hafter
      obtain ⟨hresult, hall⟩ := ih hvalid.ordered h
      refine ⟨hresult, fun n hn => hall n ?_⟩
      rcases List.mem_append.1 hn with hn | hn
      · exact List.mem_append_left _ ((extends_visit hafter).mem_order hn)
      · rcases List.mem_cons.1 hn with rfl | hn
        · exact List.mem_append_left _ hname
        · exact List.mem_append_right _ hn

/-- The order lists every fragment, each after those that it uses. -/
theorem ordered_of_ofBodies {order : List Name} (h : ofBodies bodies = .ok order) :
    Ordered bodies order ∧ ∀ name ∈ bodies.map Prod.fst, name ∈ order := by
  obtain ⟨hordered, hall⟩ := ordered_visitAll hacyclic .nil h
  exact ⟨hordered, by simpa using hall⟩

/-- If there is an order, the selections of every fragment lead to fragments only. -/
theorem closed_of_ofBodies {order : List Name} (h : ofBodies bodies = .ok order) :
    Closed bodies := by
  obtain ⟨hordered, hall⟩ := ordered_of_ofBodies hacyclic h
  have hbody : ∀ name ∈ order, ∃ before body reached, before ⊆ order ∧
      bodies.lookup name = some body ∧ Resolved.reachedFragments body = .ok reached ∧
      ∀ other ∈ reached, other ∈ before := by
    intro name hname
    obtain ⟨before, after, rfl⟩ := List.append_of_mem hname
    obtain ⟨body, reached, hlookup, hreached, hbefore⟩ := hordered.exists_reached rfl
    exact ⟨before, body, reached, List.subset_append_left _ _, hlookup, hreached, hbefore⟩
  intro name hname
  obtain ⟨before, body, reached, hsub, hlookup, hreached, hbefore⟩ := hbody name (hall name hname)
  refine ⟨body, reached, hlookup, hreached, fun other hother => ?_⟩
  obtain ⟨-, body', -, -, hlookup', -⟩ := hbody other (hsub (hbefore other hother))
  obtain ⟨first, last, rfl, -⟩ := List.lookup_eq_some_iff.1 hlookup'
  simp

end Acyclic

end BuildOrder

end ResponseModel

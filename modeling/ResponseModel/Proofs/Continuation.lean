import ResponseModel.Proofs.Recursion
import ResponseModel.Proofs.Resolution
import ResponseModel.Proofs.Rewriting

/-!
# Selections that go on

With more rounds of a fragment inside itself, the trees of selections go on where they were cut off
(`Library.Unfolding.extends`).  The walks that enter every fragment once never come to such a place
(`Extends.usesAll_eq`, `Extends.reachAll_eq`).  Where flattening comes to one, it ends with an error
of its own, so a tree of fields and shapes that is not cut off is the same for the selections that
go on: `Builder.dataField_sameUnlessCut`.
-/

namespace ResponseModel

/-! ## Trees that go on -/

/-- `Extends inside selections selections'`: the second selections are the first ones, and go on at
spreads that are cut off in the first.  These are spreads of the fragments around them, of which
`inside` are known. -/
inductive Resolved.Extends : List Name → List Resolved → List Resolved → Prop
  | nil {inside : List Name} : Extends inside [] []
  | field {inside : List Name} {parent : Name} {node : FieldNode} {definition : FieldDefinition}
      {below below' rest rest' : List Resolved} :
      Extends inside below below' → Extends inside rest rest' →
      Extends inside (.field parent node definition below :: rest)
        (.field parent node definition below' :: rest')
  | inline {inside : List Name} {condition : Option Name} {type : Name}
      {directives : List Directive} {below below' rest rest' : List Resolved} :
      Extends inside below below' → Extends inside rest rest' →
      Extends inside (.inline condition type directives below :: rest)
        (.inline condition type directives below' :: rest')
  | spread {inside : List Name} {name type : Name} {directives : List Directive}
      {below below' rest rest' : List Resolved} :
      Extends (name :: inside) below below' → Extends inside rest rest' →
      Extends inside (.spread name directives type below :: rest)
        (.spread name directives type below' :: rest')
  | dangling {inside : List Name} {name : Name} {directives : List Directive} {reason : Dangling}
      {rest rest' : List Resolved} : Extends inside rest rest' →
      Extends inside (.dangling name directives reason :: rest)
        (.dangling name directives reason :: rest')
  /-- A spread that is cut off in the first selections and goes on in the second. -/
  | further {inside : List Name} {name type : Name} {directives : List Directive}
      {below rest rest' : List Resolved} : name ∈ inside → Extends inside rest rest' →
      Extends inside (.dangling name directives .cyclic :: rest)
        (.spread name directives type below :: rest')

/-- The second selections go on where the first are cut off, inside some fragments. -/
def Resolved.GoesOn (selections selections' : List Resolved) : Prop :=
  ∃ inside, Resolved.Extends inside selections selections'

/-- With more rounds the same selections go on further. -/
theorem Library.Unfolding.extends {library : Library} {schema : Schema} {rounds rounds' : Nat}
    {inside : List Name} {parent : Name} {written : List Selection}
    {selections selections' : List Resolved} (hle : rounds ≤ rounds')
    (h : library.Unfolding schema rounds inside parent written selections)
    (h' : library.Unfolding schema rounds' inside parent written selections') :
    Resolved.Extends inside selections selections' := by
  induction h generalizing selections' with
  | nil =>
      cases h'
      exact .nil
  | field hdefinition _ _ ihbelow ihrest =>
      cases h' with
      | field hdefinition' hbelow' hrest' =>
          obtain rfl := Option.some.inj (hdefinition.symm.trans hdefinition')
          exact .field (ihbelow hbelow') (ihrest hrest')
  | inline _ _ ihbelow ihrest =>
      cases h' with
      | inline hbelow' hrest' => exact .inline (ihbelow hbelow') (ihrest hrest')
  | enter hentry hcount _ _ ihbelow ihrest =>
      cases h' with
      | enter hentry' _ hbelow' hrest' =>
          obtain rfl := Option.some.inj (hentry.symm.trans hentry')
          exact .spread (ihbelow hbelow') (ihrest hrest')
      | cut _ hcount' _ => omega
      | undefined hnone _ => cases hentry.symm.trans hnone
  | cut hentry hcount _ ihrest =>
      cases h' with
      | enter _ _ _ hrest' =>
          exact .further (List.count_pos_iff.1 (Nat.zero_lt_of_lt hcount)) (ihrest hrest')
      | cut _ _ hrest' => exact .dangling (ihrest hrest')
      | undefined hnone _ => cases hentry.symm.trans hnone
  | undefined hnone _ ihrest =>
      cases h' with
      | enter hentry _ _ _ => cases hentry.symm.trans hnone
      | cut hentry _ _ => cases hentry.symm.trans hnone
      | undefined _ hrest' => exact .dangling (ihrest hrest')

/-! ## Walks that enter a fragment once -/

namespace Resolved

/-- What was entered stays entered. -/
theorem subset_usesAll (schema : Schema) (selections : List Resolved) (entered : List Name) :
    entered ⊆ (usesAll schema entered selections).2 := by
  induction selections using forest_induction generalizing entered with
  | nil => exact List.Subset.refl _
  | field parent node definition selections rest ihbelow ihrest =>
      exact List.Subset.trans (ihbelow entered) (ihrest _)
  | inline condition type directives selections rest ihbelow ihrest =>
      exact List.Subset.trans (ihbelow entered) (ihrest _)
  | spread name directives type selections rest ihbelow ihrest =>
      rw [usesAll, uses]
      split
      · exact ihrest entered
      · exact List.Subset.trans (List.subset_append_left _ _)
          (List.Subset.trans (ihbelow _) (ihrest _))
  | dangling name directives reason rest ihrest =>
      rw [usesAll, uses]
      split
      · exact ihrest entered
      · exact List.Subset.trans (List.subset_append_left _ _) (ihrest _)

/-- What was reached stays reached. -/
theorem subset_of_reachAll {selections : List Resolved} {reached reached' : List Name}
    (h : reachAll reached selections = .ok reached') : reached ⊆ reached' := by
  induction selections using forest_induction generalizing reached reached' with
  | nil =>
      obtain rfl := Except.ok.inj h
      exact List.Subset.refl _
  | field parent node definition selections rest ihbelow ihrest =>
      obtain ⟨middle, hbelow, hrest⟩ := except_bind_eq_ok.1 h
      exact List.Subset.trans (ihbelow hbelow) (ihrest hrest)
  | inline condition type directives selections rest ihbelow ihrest =>
      obtain ⟨middle, hbelow, hrest⟩ := except_bind_eq_ok.1 h
      exact List.Subset.trans (ihbelow hbelow) (ihrest hrest)
  | spread name directives type selections rest ihbelow ihrest =>
      obtain ⟨middle, hfirst, hrest⟩ := except_bind_eq_ok.1 h
      rw [reach] at hfirst
      split at hfirst
      · obtain rfl := Except.ok.inj hfirst
        exact ihrest hrest
      · exact List.Subset.trans (List.subset_append_left _ _)
          (List.Subset.trans (ihbelow hfirst) (ihrest hrest))
  | dangling name directives reason rest ihrest =>
      obtain ⟨middle, hfirst, hrest⟩ := except_bind_eq_ok.1 h
      rw [reach] at hfirst
      split at hfirst
      · obtain rfl := Except.ok.inj hfirst
        exact ihrest hrest
      · cases hfirst

namespace Extends

variable {inside : List Name} {selections selections' : List Resolved}

/-- The uses of variables are the same: a spread that is cut off names a fragment that was
entered. -/
theorem usesAll_eq (h : Extends inside selections selections') (schema : Schema)
    {entered : List Name} (hinside : inside ⊆ entered) :
    usesAll schema entered selections = usesAll schema entered selections' := by
  induction h generalizing entered with
  | nil => rfl
  | field _ _ ihbelow ihrest =>
      simp only [usesAll, uses, ihbelow hinside]
      rw [ihrest (List.Subset.trans hinside (subset_usesAll schema _ entered))]
  | inline _ _ ihbelow ihrest =>
      simp only [usesAll, uses, ihbelow hinside]
      rw [ihrest (List.Subset.trans hinside (subset_usesAll schema _ entered))]
  | @spread _ name _ _ _ _ _ _ _ _ ihbelow ihrest =>
      have hwider := List.Subset.trans hinside (List.subset_append_left entered [name])
      have hnext := List.cons_subset.2 ⟨List.mem_append_right entered List.mem_cons_self, hwider⟩
      simp only [usesAll, uses]
      split
      · rw [ihrest hinside]
      · rw [ihbelow hnext, ihrest (List.Subset.trans hwider (subset_usesAll schema _ _))]
  | @dangling _ name _ _ _ _ _ ihrest =>
      simp only [usesAll, uses]
      split
      · rw [ihrest hinside]
      · rw [ihrest (List.Subset.trans hinside (List.subset_append_left entered [name]))]
  | further hname _ ihrest =>
      simp only [usesAll, uses, if_pos (hinside hname)]
      rw [ihrest hinside]

/-- The fragments that are reached are the same. -/
theorem reachAll_eq (h : Extends inside selections selections') {reached : List Name}
    (hinside : inside ⊆ reached) : reachAll reached selections = reachAll reached selections' := by
  induction h generalizing reached with
  | nil => rfl
  | field _ _ ihbelow ihrest =>
      rw [reachAll, reachAll, reach, reach, ihbelow hinside]
      exact except_bind_congr fun middle hmiddle =>
        ihrest (List.Subset.trans hinside (subset_of_reachAll hmiddle))
  | inline _ _ ihbelow ihrest =>
      rw [reachAll, reachAll, reach, reach, ihbelow hinside]
      exact except_bind_congr fun middle hmiddle =>
        ihrest (List.Subset.trans hinside (subset_of_reachAll hmiddle))
  | @spread _ name _ _ _ _ _ _ _ _ ihbelow ihrest =>
      have hwider := List.Subset.trans hinside (List.subset_append_left reached [name])
      have hnext := List.cons_subset.2 ⟨List.mem_append_right reached List.mem_cons_self, hwider⟩
      rw [reachAll, reachAll, reach, reach]
      split
      · exact ihrest hinside
      · rw [ihbelow hnext]
        exact except_bind_congr fun middle hmiddle =>
          ihrest (List.Subset.trans hwider (subset_of_reachAll hmiddle))
  | dangling _ ihrest =>
      rw [reachAll, reachAll, reach]
      split
      · exact ihrest hinside
      · rfl
  | further hname _ ihrest =>
      rw [reachAll, reachAll, reach, reach, if_pos (hinside hname), if_pos (hinside hname)]
      exact ihrest hinside

end Extends

end Resolved

/-! ## Computations that are cut off -/

/-- The first computation comes to a spread that is cut off, or both computations agree. -/
def AgreeUnlessCut {α β : Type} (R : α → β → Prop) (first : Except DocumentError α)
    (second : Except DocumentError β) : Prop :=
  (∃ name, first = .error (.cyclicFragment name)) ∨ Agree True R first second

namespace AgreeUnlessCut

variable {α β γ δ : Type} {R : α → β → Prop} {S : γ → δ → Prop} {first : Except DocumentError α}
  {second : Except DocumentError β}

theorem refl (first : Except DocumentError α) : AgreeUnlessCut (· = ·) first first :=
  .inr ((Agree.refl first).imp fun _ _ _ hsame => hsame.1)

theorem bind {next : α → Except DocumentError γ} {next' : β → Except DocumentError δ}
    (h : AgreeUnlessCut R first second)
    (hnext : ∀ a b, R a b → AgreeUnlessCut S (next a) (next' b)) :
    AgreeUnlessCut S (first >>= next) (second >>= next') := by
  rcases h with ⟨name, rfl⟩ | h
  · exact .inl ⟨name, rfl⟩
  · match first, second, h with
    | .ok a, .ok b, h => exact hnext a b h
    | .error _, .error _, h => exact .inr h

theorem map {f : α → γ} {g : β → δ} (h : AgreeUnlessCut R first second)
    (hmap : ∀ a b, R a b → S (f a) (g b)) :
    AgreeUnlessCut S (first.map f) (second.map g) := by
  rcases h with ⟨name, rfl⟩ | h
  · exact .inl ⟨name, rfl⟩
  · exact .inr (h.map hmap)

theorem map_eq {first second : Except DocumentError α} (h : AgreeUnlessCut (· = ·) first second)
    (f : α → β) : AgreeUnlessCut (· = ·) (first.map f) (second.map f) :=
  h.map fun _ _ hsame => congrArg f hsame

/-- Lists one after the other. -/
theorem append {R : List α → List α → Prop}
    {first second others others' : Except DocumentError (List α)}
    (happend : ∀ {xs xs' ys ys'}, R xs xs' → R ys ys' → R (xs ++ ys) (xs' ++ ys'))
    (h : AgreeUnlessCut R first second) (h' : AgreeUnlessCut R others others') :
    AgreeUnlessCut R (do let xs ← first; let ys ← others; .ok (xs ++ ys))
      (do let xs ← second; let ys ← others'; .ok (xs ++ ys)) :=
  h.bind fun _ _ hfirst => h'.bind fun _ _ hothers => .inr (happend hfirst hothers)

theorem append_eq {first second others others' : Except DocumentError (List α)}
    (h : AgreeUnlessCut (· = ·) first second) (h' : AgreeUnlessCut (· = ·) others others') :
    AgreeUnlessCut (· = ·) (do let xs ← first; let ys ← others; .ok (xs ++ ys))
      (do let xs ← second; let ys ← others'; .ok (xs ++ ys)) :=
  append (fun hxs hys => by rw [hxs, hys]) h h'

end AgreeUnlessCut

namespace Traced

variable {α β γ : Type}

/-- The first computation comes to a spread that is cut off, or the second is the same, with the
same trace. -/
def SameUnlessCut (first second : Traced α) : Prop :=
  first.isCutOff = true ∨ first = second

theorem isCutOff_bind {first : Traced α} (next : α → Traced β) (h : first.isCutOff = true) :
    (first >>= next).isCutOff = true := by
  unfold isCutOff at h
  split at h
  · next name hresult => rw [bind_error_result next hresult]; rfl
  · cases h

theorem isCutOff_bind_of_ok {first : Traced α} {a : α} (next : α → Traced β)
    (h : first.result = .ok a) : (first >>= next).isCutOff = (next a).isCutOff := by
  rw [bind_ok_result next h]
  rfl

namespace SameUnlessCut

theorem refl (first : Traced α) : SameUnlessCut first first := .inr rfl

theorem bind {first second : Traced α} {next next' : α → Traced β}
    (h : SameUnlessCut first second) (hnext : ∀ a, SameUnlessCut (next a) (next' a)) :
    SameUnlessCut (first >>= next) (second >>= next') := by
  rcases h with h | rfl
  · exact .inl (isCutOff_bind next h)
  · cases hfirst : first.result with
    | error error =>
        right
        rw [bind_error_result next hfirst, bind_error_result next' hfirst]
    | ok a =>
        rcases hnext a with hcut | hsame
        · exact .inl ((isCutOff_bind_of_ok next hfirst).trans hcut)
        · right
          rw [bind_ok_result next hfirst, bind_ok_result next' hfirst, hsame]

/-- After computations on documents that agree. -/
theorem ofDocument_bind {R : α → β → Prop} {first : Except DocumentError α}
    {second : Except DocumentError β} {next : α → Traced γ} {next' : β → Traced γ}
    (h : AgreeUnlessCut R first second)
    (hnext : ∀ a b, R a b → SameUnlessCut (next a) (next' b)) :
    SameUnlessCut (ofDocument first >>= next) (ofDocument second >>= next') := by
  rcases h with ⟨name, rfl⟩ | h
  · exact .inl rfl
  · match first, second, h with
    | .ok a, .ok b, h => exact hnext a b h
    | .error _, .error _, h =>
        obtain rfl := h trivial
        exact .inr rfl

theorem each {f : α → Traced γ} {g : β → Traced γ} {xs : List α} {ys : List β}
    (h : List.Forall₂ (fun x y => SameUnlessCut (f x) (g y)) xs ys) :
    SameUnlessCut (Traced.each f xs) (Traced.each g ys) := by
  induction h with
  | nil => exact refl _
  | cons hhead _ ih => exact hhead.bind fun _ => ih.bind fun _ => refl _

end SameUnlessCut

end Traced

/-! ## Trees of fields and shapes -/

namespace Resolved.Extends

variable {inside : List Name} {selections selections' : List Resolved}

/-- Flattening finds the same occurrences, below which the selections go on. -/
theorem flattenAll (h : Extends inside selections selections') (applies : Name → Bool)
    (condition : Condition) :
    AgreeUnlessCut (Flat.Like True GoesOn) (Resolved.flattenAll applies condition selections)
      (Resolved.flattenAll applies condition selections') := by
  induction h generalizing condition with
  | nil => exact .inr Flat.Like.nil
  | field hbelow _ _ ihrest =>
      refine .append Flat.Like.append (.bind (.refl _) ?_) (ihrest condition)
      rintro own _ rfl
      exact .inr ⟨.cons ⟨rfl, rfl, rfl, rfl, _, hbelow⟩ .nil, fun _ => rfl⟩
  | inline _ _ ihbelow ihrest =>
      refine .append Flat.Like.append ?_ (ihrest condition)
      simp only [flatten]
      split
      · refine .bind (.refl _) ?_
        rintro own _ rfl
        exact ihbelow _
      · exact .inr Flat.Like.nil
  | @spread _ name _ _ _ _ _ _ _ _ ihbelow ihrest =>
      refine .append Flat.Like.append ?_ (ihrest condition)
      simp only [flatten]
      split
      · refine .bind (.refl _) ?_
        rintro own _ rfl
        refine (ihbelow _).bind fun inner inner' hinner => .inr ⟨hinner.occurrences, ?_⟩
        exact fun hstrict => congrArg (name :: ·) (hinner.fragments hstrict)
      · exact .inr Flat.Like.nil
  | dangling => exact .inr fun _ => rfl
  | further => exact .inl ⟨_, rfl⟩

theorem typeConditionsAll (h : Extends inside selections selections') :
    AgreeUnlessCut (· = ·) (Resolved.typeConditionsAll selections)
      (Resolved.typeConditionsAll selections') := by
  induction h with
  | nil => exact .refl _
  | field _ _ _ ihrest => exact .append_eq (.refl _) ihrest
  | inline _ _ ihbelow ihrest => exact .append_eq (ihbelow.map_eq _) ihrest
  | spread _ _ ihbelow ihrest => exact .append_eq (ihbelow.map_eq _) ihrest
  | dangling => exact .inr fun _ => rfl
  | further => exact .inl ⟨_, rfl⟩

end Resolved.Extends

/-- Selection sets under the same conditions, of which the second go on. -/
abbrev Branches.GoOn : List Branch → List Branch → Prop :=
  List.Forall₂ fun branch branch' => Resolved.GoesOn branch.1 branch'.1 ∧ branch.2 = branch'.2

theorem Branches.GoOn.branchConditions {branches branches' : List Branch}
    (h : Branches.GoOn branches branches') :
    AgreeUnlessCut (· = ·) (ResponseModel.branchConditions branches)
      (ResponseModel.branchConditions branches') := by
  induction h with
  | nil => exact .refl _
  | cons hhead _ ih =>
      obtain ⟨⟨inside, hbelow⟩, -⟩ := hhead
      exact .append_eq hbelow.typeConditionsAll ih

theorem Branches.GoOn.collect {branches branches' : List Branch}
    (h : Branches.GoOn branches branches') (applies : Name → Bool) :
    AgreeUnlessCut (fun collected collected' =>
        List.Forall₂ (Merged.Like Resolved.GoesOn) collected.fields collected'.fields ∧
          collected.fragments = collected'.fragments)
      (ResponseModel.collect applies branches) (ResponseModel.collect applies branches') := by
  have hflatten : AgreeUnlessCut (Flat.Like True Resolved.GoesOn)
      (flattenBranches applies branches) (flattenBranches applies branches') := by
    induction h with
    | nil => exact .inr Flat.Like.nil
    | @cons branch branch' _ _ hhead _ ih =>
        obtain ⟨⟨inside, hbelow⟩, hcondition⟩ := hhead
        rw [flattenBranches, flattenBranches, ← hcondition]
        exact .append Flat.Like.append (hbelow.flattenAll applies branch.2) ih
  refine hflatten.map fun pieces pieces' hpieces => ⟨forall₂_ofFlat hpieces.occurrences, ?_⟩
  rw [fragments_ofFlat, fragments_ofFlat, hpieces.fragments trivial]

/-- A request for the same field, with selection sets that go on. -/
abbrev Request.GoesOn : Request → Request → Prop :=
  Rewritten True Resolved.GoesOn fun _ _ => True

namespace Builder

variable {builder : Builder}

section Level

variable {below below' : Request → Traced (List Shape)}
  (hbelow : ∀ request request', request.GoesOn request' →
    (below request).SameUnlessCut (below' request'))
include hbelow

theorem field_sameUnlessCut {entry entry' : Name × Merged}
    (h : Merged.Like Resolved.GoesOn entry entry') (path : Path) (parents : List Shape) :
    (builder.field below path parents entry).SameUnlessCut
      (builder.field below' path parents entry') := by
  have hnarrowest : (builder.narrowest entry.2).Like Resolved.GoesOn
      (builder.narrowest entry'.2) := h.leastBy fun o o' ho => by rw [ho.parent]
  have hbranches := h.branches
  have hconditions := h.map_condition
  obtain ⟨name, merged⟩ := entry
  obtain ⟨name', merged'⟩ := entry'
  obtain rfl : name = name' := h.name
  simp only [narrowest] at hnarrowest
  simp only [field, ← hnarrowest.node, ← hnarrowest.definition, ← hconditions]
  refine .bind (.refl _) fun type => .bind (.refl _) fun arguments => .bind ?_ fun shapes => .refl _
  unfold belowField
  split
  · exact hbelow _ _ ⟨rfl, rfl, rfl, fun _ => rfl, hbranches, trivial⟩
  · exact .refl _

theorem shape_sameUnlessCut {request request' : Request} (h : request.GoesOn request')
    (earlier : List Shape) (typeSet : TypeSet) :
    (builder.shape below request earlier typeSet).SameUnlessCut
      (builder.shape below' request' earlier typeSet) := by
  simp only [shape, ← h.fieldType, ← h.responseName, ← h.path]
  refine .ofDocument_bind (Branches.GoOn.collect h.branches _) fun collected collected' hlike => ?_
  obtain ⟨hfields, hfragments⟩ := hlike
  have hnames : collected.fields.map Prod.fst = collected'.fields.map Prod.fst := by
    rw [← List.forall₂_eq_eq_eq, List.forall₂_map_left_iff, List.forall₂_map_right_iff]
    exact hfields.imp fun _ _ hentry => hentry.name
  have hcandidates : builder.candidates request earlier typeSet collected.fragments =
      builder.candidates request' earlier typeSet collected'.fragments := by
    rw [candidates, candidates, hfragments, h.inherited trivial]
  rw [← hcandidates, ← refined_congr hnames]
  exact .bind (.each (hfields.imp fun entry entry' hentry =>
    field_sameUnlessCut hbelow hentry _ _)) fun fields => .refl _

theorem shapesFrom_sameUnlessCut {request request' : Request} (h : request.GoesOn request')
    (earlier : List Shape) (typeSets : List TypeSet) :
    (builder.shapesFrom below request earlier typeSets).SameUnlessCut
      (builder.shapesFrom below' request' earlier typeSets) := by
  induction typeSets generalizing earlier with
  | nil => exact .refl _
  | cons typeSet rest ih =>
      exact (shape_sameUnlessCut hbelow h earlier typeSet).bind fun shape => ih _

/-- One level: what holds of the requests below holds of the request. -/
theorem level_sameUnlessCut {request request' : Request} (h : request.GoesOn request') :
    (builder.level below request).SameUnlessCut (builder.level below' request') := by
  simp only [level, ← h.fieldType]
  refine .ofDocument_bind (Branches.GoOn.branchConditions h.branches) ?_
  rintro conditions _ rfl
  exact shapesFrom_sameUnlessCut hbelow h [] _

end Level

theorem shapes_sameUnlessCut {request request' : Request} (h : request.GoesOn request')
    (depth : Nat) :
    (builder.shapes depth request).SameUnlessCut (builder.shapes depth request') := by
  induction depth generalizing request request' with
  | zero => exact level_sameUnlessCut (fun _ _ _ => .refl _) h
  | succ depth ih => exact level_sameUnlessCut (fun _ _ hrequest => ih hrequest) h

/-- The field at the top is the same, although the selections that go on are deeper. -/
theorem dataField_sameUnlessCut {selections selections' : List Resolved}
    (h : Resolved.GoesOn selections selections') (type : Name) (root : Path) :
    (builder.dataField type selections root).SameUnlessCut
      (builder.dataField type selections' root) := by
  have hrequest : (rootRequest type selections root).GoesOn (rootRequest type selections' root) :=
    ⟨rfl, rfl, rfl, fun _ => rfl, .cons ⟨h, rfl⟩ .nil, trivial⟩
  rw [dataField_eq, dataField_eq]
  split
  · exact .refl _
  · rw [← shapes_eq_complete (Nat.le_max_left _ (rootRequest type selections' root).depth),
      ← shapes_eq_complete (Nat.le_max_right (rootRequest type selections root).depth _)]
    exact (shapes_sameUnlessCut hrequest _).bind fun shapes => .refl _

end Builder

end ResponseModel

import Mathlib.Data.List.Lattice
import Mathlib.Data.List.Perm.Basic
import ResponseModel.Proofs.Independence
import ResponseModel.Proofs.ListingOrder
import ResponseModel.Proofs.UsedDeclarations

/-!
# The order of documents

Documents in another order give the same library, if no two of them define a fragment of the same
name: then a name is looked up in the one document that defines it (`DefineOnce.lookup_eq_some`).
So the same definitions are linked, in another order (`Linked.Permuted`).  The fragments are built
in another order, too, but each of them after those that it spreads, which is all that its model
depends on, so that the same models are built (`Permuted.exists_built`); and the declarations depend
on the set of types of the models only.  Main statement: `agree_build_of_perm`.
-/

namespace ResponseModel

/-! ## Maps with the same entries -/

theorem lookup_eq_some_iff_mem {β : Type} {entries : List (Name × β)}
    (hnodup : (entries.map Prod.fst).Nodup) {name : Name} {value : β} :
    entries.lookup name = some value ↔ (name, value) ∈ entries :=
  ⟨mem_of_lookup_eq_some, lookup_eq_some_of_mem hnodup⟩

/-- Maps with the same entries, in any order, have the same values. -/
theorem lookup_congr {β : Type} {entries entries' : List (Name × β)}
    (hnodup : (entries.map Prod.fst).Nodup) (hnodup' : (entries'.map Prod.fst).Nodup)
    (h : ∀ entry, entry ∈ entries ↔ entry ∈ entries') (name : Name) :
    entries.lookup name = entries'.lookup name := by
  ext value
  rw [lookup_eq_some_iff_mem hnodup, lookup_eq_some_iff_mem hnodup', h]

/-- Maps with the same values have the same entries, in some order. -/
theorem perm_of_lookup_eq {β : Type} {entries entries' : List (Name × β)}
    (hnodup : (entries.map Prod.fst).Nodup) (hnodup' : (entries'.map Prod.fst).Nodup)
    (h : ∀ name, entries.lookup name = entries'.lookup name) : entries.Perm entries' := by
  rw [List.perm_ext_iff_of_nodup (.of_map _ hnodup) (.of_map _ hnodup')]
  rintro ⟨name, value⟩
  rw [← lookup_eq_some_iff_mem hnodup, ← lookup_eq_some_iff_mem hnodup', h]

theorem lookup_putNew {β : Type} (key k : Name) (value : β) (entries : List (Name × β)) :
    (putNew key value entries).lookup k =
      (entries.lookup k).or (if k = key then some value else none) := by
  unfold putNew
  split
  · next hany =>
      obtain ⟨entry, hmem, hkey⟩ := List.any_eq_true.1 hany
      by_cases hk : k = key
      · have hsome : (entries.lookup k).isSome = true := by
          rw [List.lookup_isSome_iff]
          exact ⟨entry, hmem, beq_iff_eq.2 (hk.trans (of_decide_eq_true hkey).symm)⟩
        rw [Option.or_of_isSome hsome]
      · rw [if_neg hk, Option.or_none]
  · rw [List.lookup_append, lookup_cons_ite]
    rfl

/-! ## The library -/

/-- The names of the fragments that a document defines. -/
def Document.fragmentNames (document : Document) : List Name :=
  document.fragments.map Fragment.name

namespace Library

variable {documents documents' accompanying : List Document} {name : Name} {entry : Entry}

/-- The fragments of a list of definitions, of which the last one of a name counts. -/
def ofEntries (added : List Entry) : List (Name × Entry) :=
  added.foldl (fun entries entry => put entry.fragment.name entry entries) []

/-- What is added counts before what was there. -/
theorem lookup_foldl_put (added : List Entry) (entries : List (Name × Entry)) (name : Name) :
    (added.foldl (fun entries entry => put entry.fragment.name entry entries) entries).lookup name =
      ((ofEntries added).lookup name).or (entries.lookup name) := by
  induction added generalizing entries with
  | nil => rfl
  | cons first rest ih =>
      rw [ofEntries, List.foldl_cons, List.foldl_cons, ih, ih (put _ _ []), lookup_put, lookup_put,
        Option.or_assoc]
      split <;> rfl

theorem lookup_ofEntries (added : List Entry) (name : Name) :
    (ofEntries added).lookup name = added.findRev? (·.fragment.name = name) := by
  induction added with
  | nil => rfl
  | cons first rest ih =>
      rw [ofEntries, List.foldl_cons, lookup_foldl_put, ih, List.findRev?_eq_find?_reverse,
        List.findRev?_eq_find?_reverse, List.reverse_cons, List.find?_append, put, lookup_cons_ite]
      by_cases hname : first.fragment.name = name
      · simp [hname]
      · simp [hname, Ne.symm hname]

/-- What was there counts before what accompanies it. -/
theorem lookup_foldl_putNew (added : List Entry) (entries : List (Name × Entry)) (name : Name) :
    (added.foldl (fun entries entry => putNew entry.fragment.name entry entries) entries).lookup
        name =
      (entries.lookup name).or (added.find? (·.fragment.name = name)) := by
  induction added generalizing entries with
  | nil => rw [List.foldl_nil, List.find?_nil, Option.or_none]
  | cons first rest ih =>
      rw [List.foldl_cons, ih, lookup_putNew, Option.or_assoc, List.find?_cons]
      by_cases hname : first.fragment.name = name
      · simp [hname]
      · simp [hname, Ne.symm hname]

theorem mem_fragmentNames {own : Bool} {document : Document}
    (h : (ofEntries (entriesOf own document)).lookup name = some entry) :
    name ∈ document.fragmentNames := by
  rw [lookup_ofEntries, List.findRev?_eq_find?_reverse] at h
  have hmem := List.mem_reverse.1 (List.mem_of_find?_eq_some h)
  obtain ⟨fragment, hfragment, rfl⟩ := List.mem_map.1 hmem
  have hname := List.find?_some h
  exact of_decide_eq_true hname ▸ List.mem_map_of_mem hfragment

/-- No two documents define a fragment of the same name. -/
def DefineOnce (documents : List Document) : Prop :=
  documents.Pairwise fun document other => document.fragmentNames.Disjoint other.fragmentNames

/-- If no two documents define a fragment of the same name, a name is looked up in the document that
defines it. -/
theorem DefineOnce.lookup_eq_some (h : DefineOnce documents) (name : Name) (entry : Entry) :
    (ofEntries (documents.flatMap (entriesOf true))).lookup name = some entry ↔
      ∃ document ∈ documents, (ofEntries (entriesOf true document)).lookup name = some entry := by
  induction documents generalizing entry with
  | nil => simp [ofEntries]
  | cons first rest ih =>
      obtain ⟨hfirst, hrest⟩ := List.pairwise_cons.1 h
      have hnone : ∀ own, (ofEntries (entriesOf true first)).lookup name = some own →
          (ofEntries (rest.flatMap (entriesOf true))).lookup name = none := by
        intro own hown
        rw [Option.eq_none_iff_forall_ne_some]
        intro other hother
        obtain ⟨document, hdocument, hlookup⟩ := (ih hrest other).1 hother
        exact hfirst document hdocument (mem_fragmentNames hown) (mem_fragmentNames hlookup)
      rw [List.flatMap_cons, ofEntries, List.foldl_append, lookup_foldl_put, Option.or_eq_some_iff,
        ih hrest, List.exists_mem_cons_iff, or_comm]
      exact or_congr_left ⟨fun hown => hown.2, fun hown => ⟨hnone entry hown, hown⟩⟩

theorem DefineOnce.perm (h : DefineOnce documents) (hperm : documents.Perm documents') :
    DefineOnce documents' :=
  (hperm.pairwise_iff List.Disjoint.symm).1 h

variable (h : DefineOnce documents) (hperm : documents.Perm documents')
include h hperm

/-- A name has the same definition, whatever the order of the documents. -/
theorem DefineOnce.entry?_eq (accompanying : List Document) (name : Name) :
    entry? (ofDocuments documents accompanying) name =
      entry? (ofDocuments documents' accompanying) name := by
  unfold entry? ofDocuments
  rw [lookup_foldl_putNew, lookup_foldl_putNew]
  congr 1
  ext entry
  have hmem : ∀ document, document ∈ documents ↔ document ∈ documents' := fun _ => hperm.mem_iff
  have hlookup := h.lookup_eq_some name entry
  have hlookup' := (h.perm hperm).lookup_eq_some name entry
  simp only [hmem] at hlookup
  exact hlookup.trans hlookup'.symm

theorem DefineOnce.perm_entries (accompanying : List Document) :
    (ofDocuments documents accompanying).entries.Perm
      (ofDocuments documents' accompanying).entries :=
  perm_of_lookup_eq (nodup_names documents accompanying) (nodup_names documents' accompanying)
    (h.entry?_eq hperm accompanying)

end Library

/-! ## Linking -/

namespace Library

variable {library library' : Library}
  (h : ∀ name, library.entry? name = library'.entry? name)
include h

theorem resolveSpread_congr (schema : Schema) (rounds fuel : Nat) :
    library.resolveSpread schema rounds fuel = library'.resolveSpread schema rounds fuel := by
  induction fuel with
  | zero =>
      funext inside name directives
      simp only [resolveSpread, h]
  | succ fuel ih =>
      funext inside name directives
      simp only [resolveSpread, h, ih]

theorem spreads_congr : library.Spreads = library'.Spreads := by
  funext name other
  simp only [Spreads, h]

theorem Acyclic.congr (hacyclic : library.Acyclic) : library'.Acyclic := by
  intro name
  rw [← spreads_congr h]
  exact hacyclic name

end Library

theorem exists_mapM_perm {ε α β : Type} {f : α → Except ε β} {xs xs' : List α} {ys : List β}
    (h : xs.mapM f = .ok ys) (hperm : xs.Perm xs') :
    ∃ ys', xs'.mapM f = .ok ys' ∧ ys.Perm ys' := by
  obtain ⟨ys', hys', hperm'⟩ := List.perm_comp_forall₂ hperm.symm (except_mapM_eq_ok.1 h)
  exact ⟨ys', except_mapM_eq_ok.2 hys', hperm'.symm⟩

namespace Linked

variable {options : Options} {schema : Schema} {documents documents' accompanying : List Document}
  {linked linked' : Linked} {config : Config} {model : Model}

/-- The same definitions are linked, in any order. -/
structure Permuted (linked linked' : Linked) : Prop where
  options : linked.options = linked'.options
  schema : linked.schema = linked'.schema
  entries : ∀ name, linked.library.entry? name = linked'.library.entry? name
  fragments : linked.fragments.Perm linked'.fragments
  operations : linked.operations.Perm linked'.operations

theorem Permuted.symm (h : linked.Permuted linked') : linked'.Permuted linked :=
  ⟨h.options.symm, h.schema.symm, fun name => (h.entries name).symm, h.fragments.symm,
    h.operations.symm⟩

/-- If documents can be linked in one order, they can be in any other. -/
theorem exists_ofDocuments (hlink : ofDocuments options schema documents accompanying = .ok linked)
    (hdefine : Library.DefineOnce documents) (hperm : documents.Perm documents') :
    ∃ linked', ofDocuments options schema documents' accompanying = .ok linked' ∧
      linked.Permuted linked' := by
  obtain ⟨fragments, hfragments, hlink⟩ := except_bind_eq_ok.1 hlink
  obtain ⟨operations, hoperations, hlink⟩ := except_bind_eq_ok.1 hlink
  obtain rfl := Except.ok.inj hlink
  have hentries := hdefine.perm_entries hperm accompanying
  have hresolve : (Library.ofDocuments documents accompanying).resolve schema =
      (Library.ofDocuments documents' accompanying).resolve schema := by
    funext rounds type selections
    rw [Library.resolve, Library.resolve, Library.size, hentries.length_eq,
      Library.resolveSpread_congr (hdefine.entry?_eq hperm accompanying), Library.size]
  have hfragment : fragment schema (Library.ofDocuments documents accompanying) =
      fragment schema (Library.ofDocuments documents' accompanying) := by
    funext rounds entry
    simp only [fragment, hresolve]
  have hoperation : operation schema (Library.ofDocuments documents accompanying) =
      operation schema (Library.ofDocuments documents' accompanying) := by
    funext rounds filePath written
    simp only [operation, hresolve]
  rw [hfragment] at hfragments
  rw [hoperation] at hoperations
  obtain ⟨fragments', hfragments', hfragmentsPerm⟩ := exists_mapM_perm hfragments hentries
  obtain ⟨operations', hoperations', hoperationsPerm⟩ :=
    exists_mapM_perm hoperations (hperm.flatMap_right _)
  exact ⟨_, except_bind_eq_ok.2 ⟨fragments', hfragments',
      except_bind_eq_ok.2 ⟨operations', hoperations', rfl⟩⟩,
    rfl, rfl, hdefine.entry?_eq hperm accompanying, hfragmentsPerm, hoperationsPerm⟩

/-! ## Building -/

theorem LinkedFrom.nodup_bodies (h : LinkedFrom schema documents accompanying linked) :
    (linked.bodies.map Prod.fst).Nodup := by
  rw [bodies, List.map_map]
  exact h.nodup_names

section Build

variable {accompanying' : List Document} {order order' : List Name}
  {built built' : List (Name × FragmentModel)}
  (hpermuted : linked.Permuted linked')
include hpermuted

/-- The model of an operation is the same after the same fragments. -/
theorem Permuted.operationModel_eq (hlookup : ∀ name, built.lookup name = built'.lookup name)
    (operation : LinkedOperation) :
    (operationModel linked' built' operation).result =
      (operationModel linked built operation).result := by
  have hshapes : (builderAfter linked.schema built).SameShapes (builderAfter linked.schema built')
      operation.selections := by
    intro name directives type below hnode
    have hmap := lookup_map_snd fun model : FragmentModel => model.dataField.shapes
    rw [builderAfter, builderAfter, hmap, hmap, hlookup]
  have hdefinition : ∀ reached,
      Resolved.reachedFragments operation.selections = .ok reached → ∀ name ∈ reached,
        linked'.library.definition? name = linked.library.definition? name := by
    intro reached _ name _
    rw [Library.definition?, Library.definition?, hpermuted.entries]
  exact operationModel_congr hpermuted.options.symm hpermuted.schema.symm hshapes hdefinition

variable (hfrom : LinkedFrom schema documents accompanying linked)
  (hfrom' : LinkedFrom schema documents' accompanying' linked')
include hfrom hfrom'

theorem Permuted.lookup_fragments (name : Name) :
    linked.fragments.lookup name = linked'.fragments.lookup name :=
  lookup_congr hfrom.nodup_names hfrom'.nodup_names (fun _ => hpermuted.fragments.mem_iff) name

variable (hacyclic : linked.library.Acyclic) (hparts : linked.BuildFrom order built model)
include hacyclic hparts

/-- There is an order in which the fragments of the other documents can be built. -/
theorem Permuted.exists_order : ∃ order', BuildOrder.ofBodies linked'.bodies = .ok order' ∧
    BuildOrder.Ordered linked'.bodies order' ∧
    ∀ name fragment, linked'.fragments.lookup name = some fragment → name ∈ order' := by
  have hacyclic' := hacyclic.congr hpermuted.entries
  have hbodies : linked.bodies.Perm linked'.bodies := hpermuted.fragments.map _
  have hclosed := BuildOrder.closed_of_ofBodies (hfrom.acyclic_uses hacyclic) hparts.order_eq
  have hclosed' : BuildOrder.Closed linked'.bodies := by
    intro name hname
    obtain ⟨body, reached, hbody, hreached, hothers⟩ :=
      hclosed name ((hbodies.map Prod.fst).mem_iff.2 hname)
    refine ⟨body, reached, ?_, hreached, fun other hother => ?_⟩
    · rw [← hbody]
      exact lookup_congr hfrom'.nodup_bodies hfrom.nodup_bodies
        (fun _ => hbodies.mem_iff.symm) name
    · exact (hbodies.map Prod.fst).mem_iff.1 (hothers other hother)
  obtain ⟨order', horder'⟩ := hclosed'.exists_ofBodies
  obtain ⟨hordered, hall⟩ :=
    BuildOrder.ordered_of_ofBodies (hfrom'.acyclic_uses hacyclic') horder'
  refine ⟨order', horder', hordered, fun name fragment hlookup => hall name ?_⟩
  exact List.mem_map_of_mem (mem_of_lookup_eq_some (lookup_bodies.2 ⟨fragment, hlookup, rfl⟩))

omit hpermuted hfrom' in
/-- A fragment has the same model after any fragments among which are those that it spreads. -/
theorem BuildFrom.exists_fragmentModel {known : List (Name × FragmentModel)}
    (hknown : ∀ entry ∈ known, built.lookup entry.1 = some entry.2) {name : Name}
    {fragment : LinkedFragment} (hlookup : linked.fragments.lookup name = some fragment)
    (hspreads : ∀ other directives type below,
      .spread other directives type below ∈ Resolved.nodesAll fragment.selections →
      other ∈ known.map Prod.fst) :
    ∃ fragmentModel, built.lookup name = some fragmentModel ∧
      (Linked.fragmentModel linked.schema known fragment).result = .ok fragmentModel := by
  obtain ⟨⟨_, fragmentModel⟩, hmem, rfl⟩ :=
    (hparts.ordered hfrom hacyclic).2 name fragment hlookup
  obtain ⟨before, after, hsplit⟩ := List.append_of_mem hmem
  obtain ⟨_, hagain, hmodel⟩ := hparts.fragmentModel_split hsplit
  obtain rfl := Option.some.inj (hlookup.symm.trans hagain)
  have hshapes : (builderAfter linked.schema before).SameShapes (builderAfter linked.schema known)
      fragment.selections := by
    refine sameShapes_of_lookup fun other directives type below hnode => ?_
    obtain ⟨earlier, hbefore⟩ := exists_lookup_of_exists_mem
      (hparts.exists_before_fragment hfrom hacyclic hsplit hlookup hnode)
    obtain ⟨later, hlater⟩ := exists_lookup_of_exists_mem
      (List.mem_map.1 (hspreads other directives type below hnode))
    have hbuilt := hknown (other, later) (mem_of_lookup_eq_some hlater)
    rw [hsplit, List.lookup_append, hbefore, Option.some_or] at hbuilt
    obtain rfl := Option.some.inj hbuilt
    exact ⟨earlier, earlier, hbefore, hlater, rfl⟩
  refine ⟨fragmentModel, lookup_eq_some_of_mem hparts.nodup_built hmem, ?_⟩
  rw [fragmentModel_congr hshapes, hmodel]

/-- In any order that puts fragments after those that they use, the same models are built. -/
theorem Permuted.exists_fragmentModels (hordered : BuildOrder.Ordered linked'.bodies order')
    {names : List Name} {known : List (Name × FragmentModel)}
    (hknown : ∀ entry ∈ known, built.lookup entry.1 = some entry.2)
    (hnames : known.map Prod.fst ++ names = order') :
    ∃ built', (fragmentModels linked' known names).result = .ok built' ∧
      built'.map Prod.fst = order' ∧ ∀ entry ∈ built', built.lookup entry.1 = some entry.2 := by
  induction names generalizing known with
  | nil => exact ⟨known, rfl, by rw [← hnames, List.append_nil], hknown⟩
  | cons name rest ih =>
      have hsplit := hordered
      rw [← hnames] at hsplit
      obtain ⟨body, -, hbody, -, -⟩ := hsplit.exists_reached rfl
      obtain ⟨fragment, hlookup', -⟩ := lookup_bodies.1 hbody
      have hlookup := (hpermuted.lookup_fragments hfrom hfrom' name).trans hlookup'
      obtain ⟨fragmentModel, hbuilt, hmodel⟩ := hparts.exists_fragmentModel hfrom hacyclic hknown
        hlookup fun other directives type below hnode =>
          hfrom'.mem_before (hacyclic.congr hpermuted.entries) hsplit hlookup' hnode
      have hknown' : ∀ entry ∈ known ++ [(name, fragmentModel)],
          built.lookup entry.1 = some entry.2 := by
        intro entry hentry
        rcases List.mem_append.1 hentry with hentry | hentry
        · exact hknown entry hentry
        · rw [List.mem_singleton.1 hentry]
          exact hbuilt
      obtain ⟨built', hresult, hrest⟩ := ih hknown' (by simpa using hnames)
      refine ⟨built', ?_, hrest⟩
      rw [hpermuted.schema] at hmodel
      rw [fragmentModels, hlookup']
      exact Traced.result_bind_eq_ok.2 ⟨fragmentModel, hmodel, hresult⟩

/-- The same fragments are built. -/
theorem Permuted.exists_built : ∃ order' built',
    BuildOrder.ofBodies linked'.bodies = .ok order' ∧
    (fragmentModels linked' [] order').result = .ok built' ∧ (built'.map Prod.fst).Nodup ∧
    ∀ entry, entry ∈ built ↔ entry ∈ built' := by
  obtain ⟨order', horder', hordered, hall⟩ :=
    hpermuted.exists_order hfrom hfrom' hacyclic hparts
  obtain ⟨built', hbuilt', hnames, hsame⟩ :=
    hpermuted.exists_fragmentModels hfrom hfrom' hacyclic hparts hordered
      (fun entry hentry => absurd hentry List.not_mem_nil) (List.nil_append order')
  refine ⟨order', built', horder', hbuilt', ?_, fun entry => ⟨fun hentry => ?_, fun hentry => ?_⟩⟩
  · rw [hnames]
    exact BuildOrder.nodup_of_ofBodies horder'
  · obtain ⟨before, after, hsplit⟩ := List.append_of_mem hentry
    obtain ⟨fragment, hlookup, -⟩ := hparts.fragmentModel_split hsplit
    rw [hpermuted.lookup_fragments hfrom hfrom'] at hlookup
    have hname := hall entry.1 fragment hlookup
    rw [← hnames] at hname
    obtain ⟨other, hother, heq⟩ := List.mem_map.1 hname
    have hmodel := hsame other hother
    rw [heq, lookup_eq_some_of_mem hparts.nodup_built hentry] at hmodel
    rwa [Prod.ext heq.symm (Option.some.inj hmodel)]
  · exact mem_of_lookup_eq_some (hsame entry hentry)

end Build

end Linked

/-- The models differ in the order of their operations and fragments only. -/
structure Model.Permuted (model model' : Model) : Prop where
  operations : model.operations.Perm model'.operations
  fragments : model.fragments.Perm model'.fragments
  ownFragments : model.ownFragments.Perm model'.ownFragments
  declarations : model.declarations = model'.declarations

namespace Linked

variable {schema : Schema} {documents documents' accompanying accompanying' : List Document}
  {linked linked' : Linked} {config : Config} {model : Model}

/-- If linked documents can be built in one order, they can be in any other. -/
theorem Permuted.exists_build (hpermuted : linked.Permuted linked')
    (hfrom : LinkedFrom schema documents accompanying linked)
    (hfrom' : LinkedFrom schema documents' accompanying' linked')
    (hacyclic : linked.library.Acyclic) (h : (linked.build config).result = .ok model) :
    ∃ model', (linked'.build config).result = .ok model' ∧ model.Permuted model' := by
  obtain ⟨order, built, hparts, hdeclarations, hown⟩ := build_eq_ok.1 h
  obtain ⟨order', built', horder', hbuilt', hnodup', hmem⟩ :=
    hpermuted.exists_built hfrom hfrom' hacyclic hparts
  have hlookup := lookup_congr hparts.nodup_built hnodup' hmem
  obtain ⟨operations', hoperations', hperm⟩ :=
    List.perm_comp_forall₂ hpermuted.operations.symm hparts.operations
  have hmarks : ∀ type, type ∈ (typesOf built model.operations).map ModelType.leaf ↔
      type ∈ (typesOf built' operations').map ModelType.leaf := by
    intro type
    simp only [typesOf, List.mem_map, List.mem_append, List.mem_flatMap, hmem, hperm.mem_iff]
  obtain ⟨declarations', hdeclarations', hsame⟩ :=
    (Declarations.agree_ofMarks linked.schema config hmarks).exists_of_ok hdeclarations
  have hmodels : List.Forall₂ (fun operation operationModel =>
      (Linked.operationModel linked' built' operation).result = .ok operationModel)
      linked'.operations operations' := by
    refine hoperations'.imp fun operation operationModel hmodel => ?_
    rw [hpermuted.operationModel_eq hlookup, hmodel]
  rw [hpermuted.schema] at hdeclarations'
  refine ⟨⟨operations', _, _, declarations'⟩, build_eq_ok.2 ⟨order', built',
    ⟨horder', hbuilt', hmodels, rfl⟩, hdeclarations', rfl⟩, hperm.symm, ?_, ?_, hsame⟩
  · rw [hparts.fragments]
    simp only [hlookup]
    exact hpermuted.fragments.filterMap _
  · rw [hown]
    exact (hpermuted.fragments.filter _).map _

end Linked

/-- **The order of documents does not matter.**

Take documents of which no two define a fragment of the same name, and in which no fragment spreads
itself, and put them in another order.  Linking succeeds in both orders or in neither, and so does
building.  The models then have the same operations, the same fragments and the same own fragments,
up to order, and identical lists of declarations. -/
theorem agree_build_of_perm (options : Options) (schema : Schema) (config : Config)
    (documents documents' accompanying : List Document) (hperm : documents.Perm documents')
    (hdefine : Library.DefineOnce documents)
    (hacyclic : (Library.ofDocuments documents accompanying).Acyclic) :
    Agree False (fun linked linked' : Linked =>
        Agree False Model.Permuted (linked.build config).result (linked'.build config).result)
      (Linked.ofDocuments options schema documents accompanying)
      (Linked.ofDocuments options schema documents' accompanying) := by
  refine .of_ok (fun linked hlink => ?_) fun linked' hlink' => ?_
  · obtain ⟨linked', hlink', hpermuted⟩ := Linked.exists_ofDocuments hlink hdefine hperm
    have hfrom := Linked.linkedFrom hlink
    have hfrom' := Linked.linkedFrom hlink'
    rw [← hfrom.library_eq] at hacyclic
    refine ⟨linked', hlink', .of_ok (fun model hbuild => ?_) fun model' hbuild' => ?_⟩
    · exact hpermuted.exists_build hfrom hfrom' hacyclic hbuild
    · obtain ⟨model, hbuild, -⟩ := hpermuted.symm.exists_build hfrom' hfrom
        (hacyclic.congr hpermuted.entries) hbuild'
      exact ⟨model, hbuild⟩
  · obtain ⟨linked, hlink, -⟩ :=
      Linked.exists_ofDocuments hlink' (hdefine.perm hperm) hperm.symm
    exact ⟨linked, hlink⟩

/-! ## Two searches

Two documents, each with an operation and a fragment.  One of the fragments spreads the other, and
the operations need different input objects. -/

namespace Searches

open Sample (select)

/-- An operation that searches for what a fragment selects. -/
def search (name var type fragment : Name) : Operation where
  kind := .query
  name := some name
  vars := [⟨var, .named type false, none, []⟩]
  directives := []
  selections := [.field ⟨none, "search", [], []⟩ [.spread fragment []]]

@[irreducible]
def find : Document where
  path := some "find"
  operations := [search "Find" "filter" "Filter" "Ranked"]
  fragments := [⟨"Ranked", "Hit", [], [select "rank" [] []]⟩]

@[irreducible]
def drafts : Document where
  path := some "drafts"
  operations := [search "Drafts" "draft" "Draft" "Again"]
  fragments := [⟨"Again", "Hit", [], [.spread "Ranked" []]⟩]

end Searches

theorem agree_build_of_perm_searches :
    [Searches.drafts, Searches.find].Perm [Searches.find, Searches.drafts] ∧
    Library.DefineOnce [Searches.drafts, Searches.find] ∧
    (Library.ofDocuments [Searches.drafts, Searches.find] []).Acyclic ∧
    (∃ linked model,
      Linked.ofDocuments .standard Search.schema [Searches.drafts, Searches.find] [] = .ok linked ∧
      (linked.build Search.config).result = .ok model ∧
      model.operations.map OperationModel.name = ["Drafts", "Find"] ∧
      model.declarations.inputObjects.map InputObject.name =
        ["Options", "Draft", "Range", "Filter"]) ∧
    Agree False (fun linked linked' : Linked => Agree False Model.Permuted
        (linked.build Search.config).result (linked'.build Search.config).result)
      (Linked.ofDocuments .standard Search.schema [Searches.drafts, Searches.find] [])
      (Linked.ofDocuments .standard Search.schema [Searches.find, Searches.drafts] []) := by
  have hperm : [Searches.drafts, Searches.find].Perm [Searches.find, Searches.drafts] := .swap ..
  have hdefine : Library.DefineOnce [Searches.drafts, Searches.find] := by
    unfold Library.DefineOnce List.Disjoint
    decide +kernel
  have hacyclic : (Library.ofDocuments [Searches.drafts, Searches.find] []).Acyclic :=
    Library.acyclic_of_rank (fun name => if name = "Again" then 1 else 0) (by decide +kernel)
  exact ⟨hperm, hdefine, hacyclic, Linked.exists_of_built? (by decide +kernel),
    agree_build_of_perm .standard Search.schema Search.config _ _ _ hperm hdefine hacyclic⟩

end ResponseModel

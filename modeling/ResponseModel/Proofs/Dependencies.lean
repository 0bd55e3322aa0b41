import ResponseModel.Proofs.ReachedFragments

/-!
# Fragments are built after those that they spread

The walk that collects the fragments of a selection set reaches whatever the selections spread, at
any depth, and nothing else.  So where no fragment spreads itself, none uses itself, and the build
order is right: every fragment that is spread anywhere in the selections of a fragment is built
before it (`Linked.BuildFrom.exists_before_fragment`), and every fragment that is spread in an
operation is built (`Linked.BuildFrom.exists_built_operation`).
-/

namespace ResponseModel

/-! ## The build order -/

namespace Linked

variable {schema : Schema} {documents accompanying : List Document} {linked : Linked}
  {model : Model} {order : List Name} {built : List (Name × FragmentModel)}

/-- The selections of all fragments. -/
def bodies (linked : Linked) : List (Name × List Resolved) :=
  linked.fragments.map fun (name, fragment) => (name, fragment.selections)

theorem lookup_bodies {name : Name} {body : List Resolved} :
    linked.bodies.lookup name = some body ↔
      ∃ fragment, linked.fragments.lookup name = some fragment ∧ fragment.selections = body := by
  rw [bodies, lookup_map_snd LinkedFragment.selections, Option.map_eq_some_iff]

variable (hfrom : LinkedFrom schema documents accompanying linked)
include hfrom

/-- What a fragment uses it spreads, directly or through others. -/
theorem LinkedFrom.spreads_of_uses {name other : Name}
    (h : BuildOrder.Uses linked.bodies name other) :
    Relation.TransGen linked.library.Spreads name other := by
  obtain ⟨body, reached, hbody, hreached, hother⟩ := h
  obtain ⟨fragment, hlookup, rfl⟩ := lookup_bodies.1 hbody
  have hresolve := (hfrom.exists_entry (mem_of_lookup_eq_some hlookup)).2
  obtain ⟨first, hfirst, hpath⟩ := (Library.mem_reachedFragments hresolve hreached).1 hother
  exact .head' ⟨fragment.entry, hfrom.entry?_eq hlookup, hfirst⟩ hpath

variable (hacyclic : linked.library.Acyclic)
include hacyclic

theorem LinkedFrom.acyclic_uses (name : Name) :
    ¬Relation.TransGen (BuildOrder.Uses linked.bodies) name name := by
  intro hcycle
  exact hacyclic name
    (hcycle.lift' id fun _ _ huses => hfrom.spreads_of_uses huses)

variable {name type : Name} {directives : List Directive} {selections : List Resolved}

/-- Where every fragment comes after those that it uses, it comes after those that are spread in its
selections. -/
theorem LinkedFrom.mem_before {before after : List Name} {around : Name}
    {fragment : LinkedFragment}
    (hordered : BuildOrder.Ordered linked.bodies (before ++ around :: after))
    (hlookup : linked.fragments.lookup around = some fragment)
    (hnode : .spread name directives type selections ∈ Resolved.nodesAll fragment.selections) :
    name ∈ before := by
  obtain ⟨body, reached, hbody, hreached, hearlier⟩ := hordered.exists_reached rfl
  obtain ⟨fragment', hlookup', rfl⟩ := lookup_bodies.1 hbody
  obtain rfl := Option.some.inj (hlookup.symm.trans hlookup')
  have hresolve := (hfrom.exists_entry (mem_of_lookup_eq_some hlookup)).2
  exact hearlier name ((Library.mem_reachedFragments hresolve hreached).2
    ((hfrom.resolution_fragment hacyclic hlookup).exists_path hnode))

variable (hparts : linked.BuildFrom order built model)
include hparts

/-- Every fragment is built, and every fragment after those that it uses. -/
theorem BuildFrom.ordered : BuildOrder.Ordered linked.bodies (built.map Prod.fst) ∧
    ∀ name fragment, linked.fragments.lookup name = some fragment →
      ∃ entry ∈ built, entry.1 = name := by
  obtain ⟨added, hadded, hnames, -⟩ := fragmentModels_result hparts.built_eq
  obtain rfl : built = added := hadded
  obtain ⟨hordered, hall⟩ :=
    BuildOrder.ordered_of_ofBodies (hfrom.acyclic_uses hacyclic) hparts.order_eq
  rw [hnames]
  refine ⟨hordered, fun name fragment hlookup => ?_⟩
  have hname : name ∈ linked.bodies.map Prod.fst :=
    List.mem_map_of_mem (mem_of_lookup_eq_some (lookup_bodies.2 ⟨fragment, hlookup, rfl⟩))
  rw [← List.mem_map, hnames]
  exact hall name hname

/-- A fragment that is spread in the selections of another is built before it. -/
theorem BuildFrom.exists_before_fragment {before after : List (Name × FragmentModel)}
    {around : Name} {fragment : LinkedFragment} {fragmentModel : FragmentModel}
    (hsplit : built = before ++ (around, fragmentModel) :: after)
    (hlookup : linked.fragments.lookup around = some fragment)
    (hnode : .spread name directives type selections ∈ Resolved.nodesAll fragment.selections) :
    ∃ entry ∈ before, entry.1 = name := by
  obtain ⟨hordered, -⟩ := hparts.ordered hfrom hacyclic
  rw [hsplit, List.map_append, List.map_cons] at hordered
  rw [← List.mem_map]
  exact hfrom.mem_before hacyclic hordered hlookup hnode

/-- A fragment that is spread in the selections of an operation is built. -/
theorem BuildFrom.exists_built_operation {operation : LinkedOperation}
    (hoperation : operation ∈ linked.operations)
    (hnode : .spread name directives type selections ∈ Resolved.nodesAll operation.selections) :
    ∃ entry ∈ built, entry.1 = name := by
  obtain ⟨fragment, hlookup, -⟩ := hfrom.sound_of_mem_nodes hacyclic
    (hfrom.resolution_operation hacyclic hoperation) _ hnode
  exact (hparts.ordered hfrom hacyclic).2 name fragment hlookup

end Linked

end ResponseModel

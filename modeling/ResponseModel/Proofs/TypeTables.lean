import ResponseModel.Proofs.Listing
import ResponseModel.Proofs.TypeSets

/-!
# Tables of concrete types

The concrete types of all types can be held in one table, which is filled while the declarations of
a schema are read.  An object adds itself to its own entry and to those of its interfaces, whether
these are declared earlier, later or nowhere; a union adds its members to its entry.  Reading a
declaration extends an entry by what the declaration contributes to it (`TypeTable.of_enter`), so
that the finished table agrees with `Schema.possibleTypes` in every entry
(`Schema.of_typeTable`), and asking it for several types at once, by going through the entry of
the first and leaving out what the others do not have, agrees with `Schema.commonTypes`.  Main
statement: `Schema.possibleTypes_exact`.
-/

namespace ResponseModel

/-- The concrete types of every type that has an entry. -/
structure TypeTable where
  entries : List (Name × List Name)

namespace TypeTable

/-- The concrete types of a type; without an entry there are none. -/
def of (table : TypeTable) (type : Name) : List Name := (table.entries.lookup type).getD []

/-- Adds concrete types to the entry of a type, which is made if need be. -/
def extend (table : TypeTable) (type : Name) (concrete : List Name) : TypeTable :=
  ⟨put type (concrete.foldl insertNew (table.of type)) table.entries⟩

/-- Takes a declaration into account. -/
def enter (table : TypeTable) (definition : TypeDefinition) : TypeTable :=
  match definition.body with
  | .object interfaces _ =>
      (definition.name :: interfaces).foldl
        (fun table type => table.extend type [definition.name]) table
  | .union members => table.extend definition.name members
  | _ => table

/-- The table of a list of declarations. -/
def ofDeclarations (declarations : List TypeDefinition) : TypeTable :=
  declarations.foldl enter ⟨[]⟩

/-- The concrete types of the first name, less those that another name does not have. -/
def common (table : TypeTable) : List Name → List Name
  | [] => []
  | first :: others =>
      others.foldl (fun possible name => possible.filter (· ∈ table.of name)) (table.of first)

/-! ## Filling a table -/

theorem of_extend (table : TypeTable) (type name : Name) (concrete : List Name) :
    (table.extend type concrete).of name =
      if name = type then concrete.foldl insertNew (table.of name) else table.of name := by
  rw [of, extend, lookup_put]
  split
  · next h => rw [h, Option.getD_some]
  · rfl

/-- One concrete type is added to the entries of several types. -/
theorem of_foldl_extend (table : TypeTable) (types : List Name) (concrete name : Name) :
    (types.foldl (fun table type => table.extend type [concrete]) table).of name =
      if name ∈ types then insertNew (table.of name) concrete else table.of name := by
  induction types generalizing table with
  | nil => rfl
  | cons type rest ih =>
      rw [List.foldl_cons, ih, of_extend]
      by_cases hname : type = name
      · subst hname
        -- adding the type once more changes nothing
        have hagain : insertNew (insertNew (table.of type) concrete) concrete =
            insertNew (table.of type) concrete := if_pos (mem_insertNew.2 (.inr rfl))
        simp [hagain]
      · simp [Ne.symm hname]

/-- Reading a declaration extends every entry by what the declaration contributes to it. -/
theorem of_enter (table : TypeTable) (definition : TypeDefinition) (name : Name) :
    (table.enter definition).of name =
      (Schema.contribution name definition).foldl insertNew (table.of name) := by
  cases hbody : definition.body with
  | object interfaces fields =>
      simp only [enter, Schema.contribution, hbody, of_foldl_extend, List.mem_cons,
        eq_comm (a := name)]
      split <;> rfl
  | union members =>
      simp only [enter, Schema.contribution, hbody, of_extend, eq_comm (a := name)]
      split <;> rfl
  | scalar => simp only [enter, Schema.contribution, hbody, List.foldl_nil]
  | interface interfaces fields =>
      simp only [enter, Schema.contribution, hbody, List.foldl_nil]
  | enum values => simp only [enter, Schema.contribution, hbody, List.foldl_nil]
  | inputObject fields => simp only [enter, Schema.contribution, hbody, List.foldl_nil]

theorem of_foldl_enter (table : TypeTable) (declarations : List TypeDefinition) (name : Name) :
    (declarations.foldl enter table).of name =
      (declarations.flatMap (Schema.contribution name)).foldl insertNew (table.of name) := by
  induction declarations generalizing table with
  | nil => rfl
  | cons definition rest ih =>
      rw [List.foldl_cons, ih, of_enter, List.flatMap_cons, List.foldl_append]

/-- An entry of the table holds what the declarations contribute to it. -/
theorem of_ofDeclarations (declarations : List TypeDefinition) (name : Name) :
    (ofDeclarations declarations).of name =
      distinct (declarations.flatMap (Schema.contribution name)) :=
  of_foldl_enter ⟨[]⟩ declarations name

theorem foldl_filter (table : TypeTable) (possible names : List Name) :
    names.foldl (fun possible name => possible.filter (· ∈ table.of name)) possible =
      possible.filter fun concrete => names.all fun name => concrete ∈ table.of name := by
  induction names generalizing possible with
  | nil => simp
  | cons name rest ih =>
      rw [List.foldl_cons, ih, List.filter_filter]
      simp [Bool.and_comm]

end TypeTable

namespace Schema

variable {schema : Schema}

theorem of_typeTable (schema : Schema) (name : Name) :
    (TypeTable.ofDeclarations schema.allTypes).of name = schema.possibleTypes name :=
  TypeTable.of_ofDeclarations schema.allTypes name

theorem common_typeTable (schema : Schema) (names : List Name) :
    (TypeTable.ofDeclarations schema.allTypes).common names = schema.commonTypes names := by
  cases names with
  | nil => rfl
  | cons first others =>
      rw [TypeTable.common, TypeTable.foldl_filter, commonTypes]
      simp only [of_typeTable]

/-- The members of an entry do not depend on the order of the declarations. -/
theorem mem_of_perm {declarations : List TypeDefinition} (h : declarations.Perm schema.allTypes)
    {type concrete : Name} : concrete ∈ (TypeTable.ofDeclarations declarations).of type ↔
      concrete ∈ schema.possibleTypes type := by
  rw [TypeTable.of_ofDeclarations, possibleTypes, mem_distinct, mem_distinct]
  exact (h.flatMap_right _).mem_iff

/-! ## What the declarations say -/

theorem NamesOnce.body?_eq_some (h : schema.NamesOnce) {definition : TypeDefinition}
    (hmem : definition ∈ schema.allTypes) :
    schema.body? definition.name = some definition.body := by
  rw [body?, h.type?_eq_some_of_mem_allTypes hmem, Option.map_some]

theorem exists_of_body? {name : Name} {body : TypeBody} (h : schema.body? name = some body) :
    ∃ definition ∈ schema.allTypes, definition.name = name ∧ definition.body = body := by
  obtain ⟨definition, hfind, hbody⟩ := Option.map_eq_some_iff.1 h
  exact ⟨definition, List.mem_of_find?_eq_some hfind, name_of_type? hfind, hbody⟩

/-- In a schema with different names, a type can resolve to the object that it is, to the objects
that list it, or to the members that it lists. -/
theorem NamesOnce.possible_iff (h : schema.NamesOnce) {type concrete : Name} :
    schema.Possible type concrete ↔
      (concrete = type ∧
        ∃ interfaces fields, schema.body? type = some (.object interfaces fields)) ∨
      (∃ interfaces fields, schema.body? concrete = some (.object interfaces fields) ∧
        type ∈ interfaces) ∨
      ∃ members, schema.body? type = some (.union members) ∧ concrete ∈ members := by
  constructor
  · intro hpossible
    cases hpossible with
    | itself hmem hbody => exact .inl ⟨rfl, _, _, hbody ▸ h.body?_eq_some hmem⟩
    | implementer hmem hbody htype =>
        exact .inr (.inl ⟨_, _, hbody ▸ h.body?_eq_some hmem, htype⟩)
    | member hmem hbody hconcrete =>
        exact .inr (.inr ⟨_, hbody ▸ h.body?_eq_some hmem, hconcrete⟩)
  · rintro (⟨rfl, interfaces, fields, hbody⟩ | ⟨interfaces, fields, hbody, htype⟩ |
      ⟨members, hbody, hconcrete⟩)
    · obtain ⟨definition, hmem, rfl, hdeclared⟩ := exists_of_body? hbody
      exact .itself hmem hdeclared
    · obtain ⟨definition, hmem, rfl, hdeclared⟩ := exists_of_body? hbody
      exact .implementer hmem hdeclared htype
    · obtain ⟨definition, hmem, rfl, hdeclared⟩ := exists_of_body? hbody
      exact .member hmem hdeclared hconcrete

/-- **The table of concrete types is exact.**  In a schema whose declarations have different names,
valid or not, the concrete types of a type are the type itself if it is an object, the objects that
list it among their interfaces, and its members if it is a union.  The table that is filled while
the declarations are read has these entries, and has the same members in them for any other order of
the declarations.  The concrete types of a type set that is not empty are those that all its members
have. -/
theorem possibleTypes_exact (hnames : schema.NamesOnce) :
    (∀ type concrete, concrete ∈ schema.possibleTypes type ↔
      (concrete = type ∧
        ∃ interfaces fields, schema.body? type = some (.object interfaces fields)) ∨
      (∃ interfaces fields, schema.body? concrete = some (.object interfaces fields) ∧
        type ∈ interfaces) ∨
      ∃ members, schema.body? type = some (.union members) ∧ concrete ∈ members) ∧
    (∀ type, (TypeTable.ofDeclarations schema.allTypes).of type = schema.possibleTypes type) ∧
    (∀ declarations : List TypeDefinition, declarations.Perm schema.allTypes →
      ∀ type concrete, concrete ∈ (TypeTable.ofDeclarations declarations).of type ↔
        concrete ∈ schema.possibleTypes type) ∧
    (∀ set : TypeSet,
      (TypeTable.ofDeclarations schema.allTypes).common set.names =
        schema.commonTypes set.names) ∧
    ∀ set : TypeSet, set.isEmpty = false → ∀ concrete,
      concrete ∈ schema.commonTypes set.names ↔
        ∀ name, set.contains name = true → concrete ∈ schema.possibleTypes name := by
  refine ⟨?_, schema.of_typeTable, fun _ hperm _ _ => mem_of_perm hperm,
    fun set => schema.common_typeTable set.names, ?_⟩
  · intro type concrete
    rw [mem_possibleTypes, hnames.possible_iff]
  · intro set hset concrete
    have hne : set.names ≠ [] := by
      simpa [TypeSet.isEmpty] using hset
    rw [mem_commonTypes hne]
    simp [TypeSet.contains, mem_possibleTypes]

end Schema

/-! ## Hotels

A union is declared before its members, and one of them nowhere; a guest lists an interface that is
declared after it and one that is not declared. -/

namespace Hotels

def schema : Schema where
  queryRoot := some "Guest"
  mutationRoot := none
  subscriptionRoot := none
  types :=
    [⟨"Visitor", none, [], .union ["Guest", "Ghost"]⟩,
      ⟨"Guest", none, [], .object ["Named", "Paying"] []⟩,
      ⟨"Named", none, [], .interface [] []⟩,
      ⟨"Dog", none, [], .object ["Named"] []⟩]
  directives := []

end Hotels

theorem Schema.possibleTypes_exact_hotels :
    Hotels.schema.NamesOnce ∧
    Hotels.schema.possibleTypes "Visitor" = ["Guest", "Ghost"] ∧
    Hotels.schema.possibleTypes "Paying" = ["Guest"] ∧
    (∀ concrete, concrete ∈
      (TypeTable.ofDeclarations Hotels.schema.allTypes.reverse).of "Named" ↔
        concrete ∈ Hotels.schema.possibleTypes "Named") ∧
    (TypeTable.ofDeclarations Hotels.schema.allTypes.reverse).of "Named" = ["Dog", "Guest"] ∧
    ("Guest" ∈ Hotels.schema.commonTypes (TypeSet.ofList ["Visitor", "Named"]).names ↔
      ∀ name, (TypeSet.ofList ["Visitor", "Named"]).contains name = true →
        "Guest" ∈ Hotels.schema.possibleTypes name) ∧
    "Guest" ∈ Hotels.schema.commonTypes (TypeSet.ofList ["Visitor", "Named"]).names := by
  have hnames : Hotels.schema.NamesOnce := by
    unfold Schema.NamesOnce
    decide +kernel
  obtain ⟨-, -, hperm, -, hcommon⟩ := Schema.possibleTypes_exact hnames
  exact ⟨hnames, by decide +kernel, by decide +kernel,
    hperm _ (List.reverse_perm _) "Named", by decide +kernel,
    hcommon _ (by decide +kernel) "Guest", by decide +kernel⟩

end ResponseModel

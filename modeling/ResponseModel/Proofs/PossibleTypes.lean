import ResponseModel.Schema.Lookup

/-!
# Possible types

Which concrete types a type can resolve to, said of the declarations of a schema: an object
resolves to itself, an interface to the objects that list it, a union to its members.  The table
`Schema.possibleTypes` holds exactly these (`mem_possibleTypes`), and the two questions that are
asked of the table, `covers` and `commonTypes`, are statements about them.
-/

namespace ResponseModel

namespace Schema

/-- `schema.Possible type concrete`: a value of the type `type` can be an object of the type
`concrete`. -/
inductive Possible (schema : Schema) : Name → Name → Prop
  /-- An object type stands for itself. -/
  | itself {d : TypeDefinition} {interfaces : List Name} {fields : List FieldDefinition} :
      d ∈ schema.allTypes → d.body = .object interfaces fields → Possible schema d.name d.name
  /-- An object type stands for every interface that it lists. -/
  | implementer {d : TypeDefinition} {interfaces : List Name} {fields : List FieldDefinition}
      {type : Name} : d ∈ schema.allTypes → d.body = .object interfaces fields →
      type ∈ interfaces → Possible schema type d.name
  /-- A member stands for its union. -/
  | member {d : TypeDefinition} {members : List Name} {concrete : Name} :
      d ∈ schema.allTypes → d.body = .union members → concrete ∈ members →
      Possible schema d.name concrete

theorem possible_of_mem_contribution {schema : Schema} {d : TypeDefinition} {type concrete : Name}
    (hd : d ∈ schema.allTypes) (h : concrete ∈ contribution type d) :
    schema.Possible type concrete := by
  unfold contribution at h
  split at h
  · next interfaces fields hbody =>
      split at h
      · next hname =>
          rw [List.mem_singleton] at h
          subst h
          rcases hname with rfl | hmem
          · exact .itself hd hbody
          · exact .implementer hd hbody hmem
      · exact absurd h List.not_mem_nil
  · next members hbody =>
      split at h
      · next hname => subst hname; exact .member hd hbody h
      · exact absurd h List.not_mem_nil
  · exact absurd h List.not_mem_nil

theorem Possible.mem_contribution {schema : Schema} {type concrete : Name}
    (h : schema.Possible type concrete) :
    ∃ d ∈ schema.allTypes, concrete ∈ contribution type d := by
  cases h with
  | @itself d _ _ hd hbody => exact ⟨d, hd, by simp [contribution, hbody]⟩
  | @implementer d _ _ _ hd hbody hmem => exact ⟨d, hd, by simp [contribution, hbody, hmem]⟩
  | @member d _ _ hd hbody hmem => exact ⟨d, hd, by simpa [contribution, hbody] using hmem⟩

/-- The table of possible types is exact. -/
theorem mem_possibleTypes {schema : Schema} {type concrete : Name} :
    concrete ∈ schema.possibleTypes type ↔ schema.Possible type concrete := by
  rw [possibleTypes, mem_distinct, List.mem_flatMap]
  constructor
  · rintro ⟨d, hd, h⟩
    exact possible_of_mem_contribution hd h
  · exact Possible.mem_contribution

instance (schema : Schema) (type concrete : Name) : Decidable (schema.Possible type concrete) :=
  decidable_of_iff (concrete ∈ schema.possibleTypes type) mem_possibleTypes

theorem covers_iff {schema : Schema} {type : Name} {concrete : List Name} :
    schema.covers type concrete = true ↔ ∀ c ∈ concrete, schema.Possible type c := by
  simp [covers, mem_possibleTypes]

/-- The common types of some names are the types that are possible for all of them. -/
theorem mem_commonTypes {schema : Schema} {names : List Name} (h : names ≠ []) {concrete : Name} :
    concrete ∈ schema.commonTypes names ↔ ∀ name ∈ names, schema.Possible name concrete := by
  cases names with
  | nil => exact absurd rfl h
  | cons first others => simp [commonTypes, mem_possibleTypes]

end Schema

end ResponseModel

import ResponseModel.Proofs.Outlines

/-!
# Values of custom scalars

Nothing is known about the values of a custom scalar, so a literal in its place is translated node
by node.  `Literal.StandsFor` says what each node becomes, numbers included: an integer that does
not fit in 32 bits becomes a double, and a number that is no finite double stays text.  The relation
has exactly one value for every literal (`standsFor_iff`).

Coercion gives that value for every literal but a list: lists are refused before the declaration of
the scalar is looked at, although a list inside an object is translated with it.
-/

namespace ResponseModel

/-! ## Node by node -/

/-- No integer of 32 bits is spelled by the text. -/
def Numeral.IsWide (text : String) : Prop :=
  ∀ value, SpellsInt text value → value < -2 ^ 31 ∨ 2 ^ 31 ≤ value

theorem Numeral.isWide_iff {text : String} : IsWide text ↔ int32OfText? text = none := by
  constructor
  · intro hwide
    rw [Option.eq_none_iff_forall_ne_some]
    intro value hvalue
    obtain ⟨hspells, hlow, hhigh⟩ := int32OfText?_eq_some_iff.1 hvalue
    have := hwide value hspells
    omega
  · intro hnone value hspells
    by_contra hfits
    have hsome : int32OfText? text = some value :=
      int32OfText?_eq_some_iff.2 ⟨hspells, by omega, by omega⟩
    rw [hnone] at hsome
    cases hsome

namespace Literal

/-- The value that a literal stands for where no type is expected. -/
inductive StandsFor : Literal → Value → Prop
  | null : StandsFor .null .null
  | boolean {value : Bool} : StandsFor (.boolean value) (.boolean value)
  | string {content : String} : StandsFor (.string content) (.string content)
  | enum {symbol : Name} : StandsFor (.enum symbol) (.enum symbol)
  | var {name : Name} : StandsFor (.var name) (.var name)
  | int {text : String} {value : Int} : Numeral.SpellsInt text value → -2 ^ 31 ≤ value →
      value < 2 ^ 31 → StandsFor (.int text) (.int value)
  | wideInt {text : String} {value : Binary64} : Numeral.IsWide text →
      Binary64.ofText? text = some value → StandsFor (.int text) (.float value)
  | hugeInt {text : String} : Numeral.IsWide text → Binary64.ofText? text = none →
      StandsFor (.int text) (.string text)
  | float {text : String} {value : Binary64} : Binary64.ofText? text = some value →
      StandsFor (.float text) (.float value)
  | hugeFloat {text : String} : Binary64.ofText? text = none →
      StandsFor (.float text) (.string text)
  | list {items : List Literal} {values : List Value} : List.Forall₂ StandsFor items values →
      StandsFor (.list items) (.list values)
  /-- The names and their order stay. -/
  | object {fields : List (Name × Literal)} {values : List (Name × Value)} :
      values.map Prod.fst = fields.map Prod.fst →
      List.Forall₂ StandsFor (fields.map Prod.snd) (values.map Prod.snd) →
      StandsFor (.object fields) (.object values)

theorem verbatimItems_eq (items : List Literal) : verbatimItems items = items.map verbatim := by
  induction items with
  | nil => rfl
  | cons item rest ih => rw [verbatimItems, ih, List.map_cons]

theorem verbatimFields_eq (fields : List (Name × Literal)) :
    verbatimFields fields = fields.map fun field => (field.1, field.2.verbatim) := by
  induction fields with
  | nil => rfl
  | cons field rest ih => rw [verbatimFields, ih, List.map_cons]

theorem standsFor_int_iff {text : String} {value : Value} :
    StandsFor (.int text) value ↔ value = .ofIntText text := by
  unfold Value.ofIntText
  cases hint : int32OfText? text with
  | some exact =>
      have hfits := Numeral.int32OfText?_eq_some_iff.1 hint
      have hnarrow : ¬ Numeral.IsWide text := by
        rw [Numeral.isWide_iff, hint]
        exact Option.some_ne_none _
      constructor
      · intro h
        cases h with
        | int hspells hlow hhigh =>
            have hsame := Numeral.int32OfText?_eq_some_iff.2 ⟨hspells, hlow, hhigh⟩
            rw [hint] at hsame
            rw [Option.some.inj hsame]
        | wideInt hwide _ => exact absurd hwide hnarrow
        | hugeInt hwide _ => exact absurd hwide hnarrow
      · rintro rfl
        exact .int hfits.1 hfits.2.1 hfits.2.2
  | none =>
      have hwide := Numeral.isWide_iff.2 hint
      cases hdouble : Binary64.ofText? text with
      | some double =>
          constructor
          · intro h
            cases h with
            | int hspells hlow hhigh =>
                have := hwide _ hspells
                omega
            | wideInt _ hfound => rw [Option.some.inj (hfound.symm.trans hdouble)]
            | hugeInt _ hfound => simp [hfound] at hdouble
          · rintro rfl
            exact .wideInt hwide hdouble
      | none =>
          constructor
          · intro h
            cases h with
            | int hspells hlow hhigh =>
                have := hwide _ hspells
                omega
            | wideInt _ hfound => simp [hfound] at hdouble
            | hugeInt _ _ => rfl
          · rintro rfl
            exact .hugeInt hwide hdouble

theorem standsFor_float_iff {text : String} {value : Value} :
    StandsFor (.float text) value ↔ value = .ofFloatText text := by
  unfold Value.ofFloatText
  cases hdouble : Binary64.ofText? text with
  | some double =>
      constructor
      · intro h
        cases h with
        | float hfound => rw [Option.some.inj (hfound.symm.trans hdouble)]
        | hugeFloat hfound => simp [hfound] at hdouble
      · rintro rfl
        exact .float hdouble
  | none =>
      constructor
      · intro h
        cases h with
        | float hfound => simp [hfound] at hdouble
        | hugeFloat _ => rfl
      · rintro rfl
        exact .hugeFloat hdouble

/-- Lists stand for the values of their items, if each item stands for one value only. -/
theorem forall₂_standsFor_iff {items : List Literal} {values : List Value}
    (h : ∀ item ∈ items, ∀ value, StandsFor item value ↔ value = item.verbatim) :
    List.Forall₂ StandsFor items values ↔ values = items.map verbatim := by
  induction items generalizing values with
  | nil => simp
  | cons item rest ih =>
      have hitem := h item List.mem_cons_self
      have hrest : ∀ {others : List Value},
          List.Forall₂ StandsFor rest others ↔ others = rest.map verbatim :=
        ih fun other hother => h other (List.mem_cons_of_mem _ hother)
      rw [List.forall₂_cons_left_iff, List.map_cons]
      simp only [hitem, hrest]
      constructor
      · rintro ⟨value, others, rfl, rfl, rfl⟩
        rfl
      · rintro rfl
        exact ⟨_, _, rfl, rfl, rfl⟩

theorem standsFor_list_iff {items : List Literal} {value : Value}
    (h : ∀ item ∈ items, ∀ value, StandsFor item value ↔ value = item.verbatim) :
    StandsFor (.list items) value ↔ value = (Literal.list items).verbatim := by
  rw [verbatim, verbatimItems_eq]
  constructor
  · intro hstands
    cases hstands with
    | list hitems => rw [(forall₂_standsFor_iff h).1 hitems]
  · rintro rfl
    exact .list ((forall₂_standsFor_iff h).2 rfl)

theorem standsFor_object_iff {fields : List (Name × Literal)} {value : Value}
    (h : ∀ field ∈ fields, ∀ value, StandsFor field.2 value ↔ value = field.2.verbatim) :
    StandsFor (.object fields) value ↔ value = (Literal.object fields).verbatim := by
  have hparts : ∀ part ∈ fields.map Prod.snd, ∀ value,
      StandsFor part value ↔ value = part.verbatim := by
    intro part hpart
    obtain ⟨field, hfield, rfl⟩ := List.mem_map.1 hpart
    exact h field hfield
  rw [verbatim, verbatimFields_eq]
  constructor
  · intro hstands
    cases hstands with
    | @object _ values hnames hvalues =>
        have hpairs := (forall₂_standsFor_iff hparts).1 hvalues
        have hzip := List.zip_of_prod hnames hpairs
        rw [List.map_map, List.zip_map'] at hzip
        exact congrArg Value.object hzip
  · rintro rfl
    refine .object ?_ ((forall₂_standsFor_iff hparts).2 ?_)
    · simp [Function.comp_def]
    · simp [Function.comp_def]

/-- **Every literal stands for exactly one value**, the one that it is translated to. -/
theorem standsFor_iff (literal : Literal) :
    ∀ value, literal.StandsFor value ↔ value = literal.verbatim := by
  induction literal using Literal.induction with
  | _ literal hitems hfields =>
      intro value
      cases literal with
      | int text => exact standsFor_int_iff
      | float text => exact standsFor_float_iff
      | list items => exact standsFor_list_iff (hitems items rfl)
      | object fields => exact standsFor_object_iff (hfields fields rfl)
      | null | boolean _ | string _ | enum _ | var _ =>
          constructor
          · intro h
            cases h
            rfl
          · rintro rfl
            constructor

end Literal

/-! ## In the place of a custom scalar -/

namespace Coercion

variable {schema : Schema} {name : Name}

theorem coerce_custom_eq_ok (hcustom : schema.IsCustomScalar name) {literal : Literal}
    (hlist : ∀ items, literal ≠ .list items) :
    coerce schema (.named name false) literal = .ok literal.verbatim := by
  have hkind : schema.inputKind name = .anything := by
    rw [Schema.inputKind, hcustom.2, hcustom.1]
  cases literal with
  | list items => exact absurd rfl (hlist items)
  | null => rfl
  | var key => rw [coerce, Literal.verbatim]
  | object fields => rw [coerce, hkind]
  | boolean _ | string _ | int _ | float _ | enum _ => simp only [coerce, leaf, hkind]

/-- **A custom scalar takes every literal that is not a list as it is written**, null included and
whatever is nested in it; a list is a mismatch. -/
theorem coerce_custom (hcustom : schema.IsCustomScalar name) (literal : Literal) :
    ((∀ items, literal ≠ .list items) →
      coerce schema (.named name false) literal = .ok literal.verbatim ∧
        ∀ value, literal.StandsFor value ↔ value = literal.verbatim) ∧
    (∀ items, literal = .list items → coerce schema (.named name false) literal =
      .error (mismatch (.named name false) literal)) := by
  constructor
  · intro hlist
    exact ⟨coerce_custom_eq_ok hcustom hlist, literal.standsFor_iff⟩
  · rintro items rfl
    rw [coerce]

namespace Reviews

/-- A literal of many parts: a list with a null and a variable in it, an integer of 33 bits and a
number beyond all doubles. -/
def mixed : Literal :=
  .object [("parts", .list [.null, .var "x", .list []]), ("wide", .int "4294967296"),
    ("huge", .float "1e400")]

/-- What it stands for. -/
def mixedValue : Value :=
  .object [("parts", .list [.null, .var "x", .list []]), ("wide", .float ⟨0x41F0000000000000⟩),
    ("huge", .string "1e400")]

theorem isCustomScalar_json : annotated.IsCustomScalar "Json" := ⟨rfl, rfl⟩

end Reviews

theorem coerce_custom_mixed :
    Reviews.annotated.IsCustomScalar "Json" ∧
    (coerce Reviews.annotated (.named "Json" false) Reviews.mixed = .ok Reviews.mixedValue ∧
      Reviews.mixed.StandsFor Reviews.mixedValue) ∧
    coerce Reviews.annotated (.named "Json" false) (.list [Reviews.mixed]) =
      .error (mismatch (.named "Json" false) (.list [Reviews.mixed])) := by
  obtain ⟨hmixed, hstands⟩ := (coerce_custom Reviews.isCustomScalar_json Reviews.mixed).1
    fun items h => Literal.noConfusion h
  have hlist := (coerce_custom Reviews.isCustomScalar_json (.list [Reviews.mixed])).2 _ rfl
  exact ⟨Reviews.isCustomScalar_json, ⟨hmixed, (hstands _).2 rfl⟩, hlist⟩

/-- A custom scalar does not take a list, although the list stands for a value. -/
theorem json_refuses_list :
    Reviews.annotated.IsCustomScalar "Json" ∧
    (Literal.list [.int "1"]).StandsFor (.list [.int 1]) ∧
    ∀ value, coerce Reviews.annotated (.named "Json" false) (.list [.int "1"]) ≠ .ok value := by
  refine ⟨Reviews.isCustomScalar_json, (Literal.standsFor_iff _ _).2 rfl, fun value h => ?_⟩
  rw [coerce] at h
  cases h

end Coercion

end ResponseModel

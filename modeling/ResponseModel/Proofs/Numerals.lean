import Mathlib.Algebra.Group.Int.Defs
import Mathlib.Data.List.Basic
import ResponseModel.Number.Numeral

/-!
# Numerals

The grammar of numerals, and the numeral that a text of the grammar stands for (`Numeral.Spells`).
Reading takes the parts of a text one after the other, each as long as it can be; no part of the
grammar can begin with a character that the part before it could take, so that reading finds
exactly the numeral that a text spells (`Numeral.ofText?_eq_some_iff`), and the same for integers
(`Numeral.int32OfText?_eq_some_iff`).
-/

namespace ResponseModel

namespace Numeral

/-! ## The grammar -/

/-- All characters are digits. -/
def AllDigits (cs : List Char) : Prop := ∀ c ∈ cs, c.isDigit = true

/-- The number that digits with a sign spell. -/
def signed (negative : Bool) (digits : List Char) : Int :=
  if negative then -(ofDigits digits : Int) else ofDigits digits

/-- A sign that may be missing, and whether it is a minus. -/
inductive Sign : List Char → Bool → Prop
  | missing : Sign [] false
  | plus : Sign ['+'] false
  | minus : Sign ['-'] true

/-- A point and digits after it, both of which may be missing, and the digits. -/
inductive Fraction : List Char → List Char → Prop
  | missing : Fraction [] []
  | point {digits : List Char} : AllDigits digits → Fraction ('.' :: digits) digits

/-- An exponent that may be missing, and its number. -/
inductive Exponent : List Char → Int → Prop
  | missing : Exponent [] 0
  | marked {mark : Char} {sign digits : List Char} {negative : Bool} : mark = 'e' ∨ mark = 'E' →
      Sign sign negative → AllDigits digits → digits ≠ [] →
      Exponent (mark :: (sign ++ digits)) (signed negative digits)

/-- The text is a sign, digits, a fraction and an exponent, with a digit before or after the point,
and stands for the numeral. -/
inductive Spells : String → Numeral → Prop
  | parts {text : String} {sign whole point fraction mark : List Char} {negative : Bool}
      {exponent : Int} : text.toList = sign ++ (whole ++ (point ++ mark)) → Sign sign negative →
      AllDigits whole → Fraction point fraction → whole ++ fraction ≠ [] →
      Exponent mark exponent →
      Spells text ⟨negative, ofDigits (whole ++ fraction), exponent - fraction.length⟩

/-- The text is digits with a sign that may be missing, and stands for the integer. -/
inductive SpellsInt : String → Int → Prop
  | parts {text : String} {sign digits : List Char} {negative : Bool} :
      text.toList = sign ++ digits → Sign sign negative → AllDigits digits → digits ≠ [] →
      SpellsInt text (signed negative digits)

/-! ## Reading the parts -/

theorem spanDigits_append {digits rest : List Char} (h : AllDigits digits)
    (hrest : ∀ c ∈ rest.head?, c.isDigit = false) :
    spanDigits (digits ++ rest) = (digits, rest) := by
  induction digits with
  | nil =>
      cases rest with
      | nil => rfl
      | cons c rest => simp [spanDigits, hrest c rfl]
  | cons c digits ih =>
      obtain ⟨hc, hdigits⟩ := List.forall_mem_cons.1 h
      simp [spanDigits, hc, ih hdigits]

theorem append_of_spanDigits {cs digits rest : List Char} (h : spanDigits cs = (digits, rest)) :
    cs = digits ++ rest ∧ AllDigits digits := by
  induction cs generalizing digits with
  | nil =>
      obtain ⟨rfl, rfl⟩ := Prod.mk.inj h
      exact ⟨rfl, fun _ hc => absurd hc List.not_mem_nil⟩
  | cons c cs ih =>
      rw [spanDigits] at h
      split at h
      · next hc =>
          rcases hspan : spanDigits cs with ⟨digits', rest'⟩
          rw [hspan] at h
          obtain ⟨rfl, rfl⟩ := Prod.mk.inj h
          obtain ⟨rfl, hdigits⟩ := ih hspan
          exact ⟨rfl, List.forall_mem_cons.2 ⟨hc, hdigits⟩⟩
      · obtain ⟨rfl, rfl⟩ := Prod.mk.inj h
        exact ⟨rfl, fun _ hc => absurd hc List.not_mem_nil⟩

theorem Sign.spanSign_append {sign rest : List Char} {negative : Bool} (h : Sign sign negative)
    (hrest : ∀ c ∈ rest.head?, c ≠ '-' ∧ c ≠ '+') : spanSign (sign ++ rest) = (negative, rest) := by
  cases h with
  | plus => rfl
  | minus => rfl
  | missing =>
      unfold spanSign
      split
      · next heq => exact absurd rfl (hrest '-' (by rw [← List.nil_append rest, heq]; rfl)).1
      · next heq => exact absurd rfl (hrest '+' (by rw [← List.nil_append rest, heq]; rfl)).2
      · rfl

theorem exists_sign_of_spanSign {cs rest : List Char} {negative : Bool}
    (h : spanSign cs = (negative, rest)) : ∃ sign, Sign sign negative ∧ cs = sign ++ rest := by
  unfold spanSign at h
  split at h
  · obtain ⟨rfl, rfl⟩ := Prod.mk.inj h
    exact ⟨['-'], .minus, rfl⟩
  · obtain ⟨rfl, rfl⟩ := Prod.mk.inj h
    exact ⟨['+'], .plus, rfl⟩
  · obtain ⟨rfl, rfl⟩ := Prod.mk.inj h
    exact ⟨[], .missing, rfl⟩

theorem Fraction.fractionPart_append {point fraction rest : List Char}
    (h : Fraction point fraction) (hrest : ∀ c ∈ rest.head?, c ≠ '.' ∧ c.isDigit = false) :
    fractionPart (point ++ rest) = (fraction, rest) := by
  cases h with
  | point hdigits => exact spanDigits_append hdigits fun c hc => (hrest c hc).2
  | missing =>
      unfold fractionPart
      split
      · next heq => exact absurd rfl (hrest '.' (by rw [← List.nil_append rest, heq]; rfl)).1
      · rfl

theorem exists_point_of_fractionPart {cs fraction rest : List Char}
    (h : fractionPart cs = (fraction, rest)) :
    ∃ point, Fraction point fraction ∧ cs = point ++ rest := by
  unfold fractionPart at h
  split at h
  · obtain ⟨rfl, hdigits⟩ := append_of_spanDigits h
    exact ⟨'.' :: fraction, .point hdigits, rfl⟩
  · obtain ⟨rfl, rfl⟩ := Prod.mk.inj h
    exact ⟨[], .missing, rfl⟩

theorem not_isDigit_head?_nil : ∀ c ∈ ([] : List Char).head?, c.isDigit = false := by simp

theorem ne_sign_of_isDigit {c : Char} (h : c.isDigit = true) : c ≠ '-' ∧ c ≠ '+' := by
  constructor <;> rintro rfl <;> exact absurd h (by decide)

theorem AllDigits.head {digits : List Char} (h : AllDigits digits) :
    ∀ c ∈ digits.head?, c.isDigit = true := fun c hc => h c (List.mem_of_head? hc)

theorem exponentPart?_eq_some_iff {cs : List Char} {exponent : Int} :
    exponentPart? cs = some exponent ↔ Exponent cs exponent := by
  constructor
  · intro h
    unfold exponentPart? at h
    split at h
    · obtain rfl := Option.some.inj h
      exact .missing
    · next mark rest =>
        split at h
        · next hmark =>
            rcases hsign : spanSign rest with ⟨negative, tail⟩
            simp only [hsign] at h
            split at h
            · cases h
            · next digits hne hspan =>
                obtain rfl := Option.some.inj h
                obtain ⟨rfl, hdigits⟩ := append_of_spanDigits hspan
                obtain ⟨sign, hwritten, rfl⟩ := exists_sign_of_spanSign hsign
                rw [List.append_nil]
                exact .marked hmark hwritten hdigits hne
            · cases h
        · cases h
  · intro h
    cases h with
    | missing => rfl
    | @marked mark sign digits negative hmark hsign hdigits hne =>
        have hspanSign : spanSign (sign ++ digits) = (negative, digits) :=
          hsign.spanSign_append fun c hc => ne_sign_of_isDigit (hdigits.head c hc)
        have hspan : spanDigits digits = (digits, []) := by
          simpa using spanDigits_append hdigits not_isDigit_head?_nil
        rw [exponentPart?, if_pos hmark]
        simp only [hspanSign, hspan]
        cases digits with
        | nil => exact absurd rfl hne
        | cons c digits => rfl

theorem mem_head?_append {c : Char} {cs rest : List Char} (h : c ∈ (cs ++ rest).head?) :
    c ∈ cs.head? ∨ c ∈ rest.head? := by
  cases cs with
  | nil => exact .inr h
  | cons first cs => exact .inl h

theorem Exponent.head {mark : List Char} {exponent : Int} (h : Exponent mark exponent) :
    ∀ c ∈ mark.head?, c = 'e' ∨ c = 'E' := by
  cases h with
  | missing => simp
  | marked hmark _ _ _ => simpa using hmark

theorem Fraction.head {point fraction : List Char} (h : Fraction point fraction) :
    ∀ c ∈ point.head?, c = '.' := by
  cases h <;> simp

/-! ## Reading -/

/-- Reading a text finds the numeral that it spells. -/
theorem ofText?_eq_some_iff {text : String} {numeral : Numeral} :
    ofText? text = some numeral ↔ Spells text numeral := by
  constructor
  · intro h
    rcases hsign : spanSign text.toList with ⟨negative, unsigned⟩
    rcases hwhole : spanDigits unsigned with ⟨whole, afterWhole⟩
    rcases hfraction : fractionPart afterWhole with ⟨fraction, afterFraction⟩
    simp only [ofText?, hsign, hwhole, hfraction] at h
    split at h
    · cases h
    · next hsome =>
        obtain ⟨exponent, hexponent, rfl⟩ := Option.map_eq_some_iff.1 h
        obtain ⟨sign, hsigned, htext⟩ := exists_sign_of_spanSign hsign
        obtain ⟨rfl, hdigits⟩ := append_of_spanDigits hwhole
        obtain ⟨point, hpoint, rfl⟩ := exists_point_of_fractionPart hfraction
        have hne : whole ++ fraction ≠ [] := by simpa using hsome
        exact .parts htext hsigned hdigits hpoint hne (exponentPart?_eq_some_iff.1 hexponent)
  · rintro ⟨htext, hsign, hdigits, hpoint, hne, hexponent⟩
    next sign whole point fraction mark negative exponent =>
    -- no part can be taken for a continuation of the one before it
    have hafter : ∀ c ∈ (point ++ mark).head?, c = '.' ∨ c = 'e' ∨ c = 'E' := by
      intro c hc
      rcases mem_head?_append hc with hc | hc
      · exact .inl (hpoint.head c hc)
      · exact .inr (hexponent.head c hc)
    have hmark : ∀ c ∈ mark.head?, c ≠ '.' ∧ c.isDigit = false := by
      intro c hc
      rcases hexponent.head c hc with rfl | rfl <;> exact ⟨by decide, by decide⟩
    have hsigned : spanSign text.toList = (negative, whole ++ (point ++ mark)) := by
      rw [htext]
      refine hsign.spanSign_append fun c hc => ?_
      rcases mem_head?_append hc with hc | hc
      · exact ne_sign_of_isDigit (hdigits.head c hc)
      · rcases hafter c hc with rfl | rfl | rfl <;> exact ⟨by decide, by decide⟩
    have hwhole : spanDigits (whole ++ (point ++ mark)) = (whole, point ++ mark) := by
      refine spanDigits_append hdigits fun c hc => ?_
      rcases hafter c hc with rfl | rfl | rfl <;> decide
    have hfraction : fractionPart (point ++ mark) = (fraction, mark) :=
      hpoint.fractionPart_append hmark
    have hsome : ¬ (whole.isEmpty && fraction.isEmpty) = true := by simpa using hne
    simp only [ofText?, hsigned, hwhole, hfraction, if_neg hsome,
      exponentPart?_eq_some_iff.2 hexponent, Option.map_some]

/-- Reading an integer finds the one that the text spells, if it fits in 32 bits. -/
theorem int32OfText?_eq_some_iff {text : String} {value : Int} :
    int32OfText? text = some value ↔
      SpellsInt text value ∧ -2 ^ 31 ≤ value ∧ value < 2 ^ 31 := by
  constructor
  · intro h
    rcases hsign : spanSign text.toList with ⟨negative, unsigned⟩
    simp only [int32OfText?, hsign] at h
    split at h
    · cases h
    · next digits hne hspan =>
        change (if -2147483648 ≤ signed negative digits ∧ signed negative digits ≤ 2147483647
          then some (signed negative digits) else none) = some value at h
        split at h
        · next hfits =>
            obtain rfl := Option.some.inj h
            obtain ⟨rfl, hdigits⟩ := append_of_spanDigits hspan
            obtain ⟨sign, hsigned, htext⟩ := exists_sign_of_spanSign hsign
            rw [List.append_nil] at htext
            exact ⟨.parts htext hsigned hdigits hne, by omega, by omega⟩
        · cases h
    · cases h
  · rintro ⟨⟨htext, hsign, hdigits, hne⟩, hlow, hhigh⟩
    next sign digits negative =>
    have hsigned : spanSign text.toList = (negative, digits) := by
      rw [htext]
      exact hsign.spanSign_append fun c hc => ne_sign_of_isDigit (hdigits.head c hc)
    have hspan : spanDigits digits = (digits, []) := by
      simpa using spanDigits_append hdigits not_isDigit_head?_nil
    have hfits : -2147483648 ≤ signed negative digits ∧ signed negative digits ≤ 2147483647 := by
      omega
    simp only [int32OfText?, hsigned, hspan]
    cases digits with
    | nil => exact absurd rfl hne
    | cons c digits => exact if_pos hfits

end Numeral

end ResponseModel

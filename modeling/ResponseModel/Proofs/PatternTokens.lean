import Mathlib.Data.List.TakeDrop
import ResponseModel.Pattern.Parse

/-!
# What is left of a pattern

The readers of the small parts of a pattern: blanks, flags, escapes, the front of a class, bounds of
repetitions, names of groups.  Each of them leaves a suffix of the text that it is given, and most
of them a proper one (`Leaves`); so reading comes to an end, and what is left tells how far it went.
Where a reader decides by the first character, a lemma says which way it goes on whatever follows
(`escape?_cons`).
-/

namespace ResponseModel

namespace Pattern

/-- Some of the text was read, and the rest is left of it. -/
def Leaves (text rest : List Char) : Prop := ∃ c after, text = c :: after ∧ rest <:+ after

namespace Leaves

variable {text middle rest : List Char}

theorem cons {c : Char} (h : rest <:+ text) : Leaves (c :: text) rest := ⟨c, text, rfl, h⟩

theorem of_cons {c : Char} (h : Leaves (c :: text) rest) : rest <:+ text := by
  obtain ⟨c', after, heq, h⟩ := h
  obtain ⟨-, rfl⟩ := List.cons.inj heq
  exact h

theorem suffix (h : Leaves text rest) : rest <:+ text := by
  obtain ⟨c, after, rfl, h⟩ := h
  exact h.trans (List.suffix_cons c after)

theorem length_lt (h : Leaves text rest) : rest.length < text.length := by
  obtain ⟨c, after, rfl, h⟩ := h
  exact Nat.lt_succ_of_le h.length_le

theorem trans (h : Leaves text middle) (h' : rest <:+ middle) : Leaves text rest := by
  obtain ⟨c, after, rfl, h⟩ := h
  exact .cons (h'.trans h)

theorem of_suffix (h : middle <:+ text) (h' : Leaves middle rest) : Leaves text rest := by
  obtain ⟨c, after, rfl, h'⟩ := h'
  obtain ⟨before, rfl⟩ := h
  cases before with
  | nil => exact .cons h'
  | cons first before =>
      exact .cons (h'.trans ((List.suffix_cons c after).trans (List.suffix_append before _)))

end Leaves

/-! ## What is left of a text -/

theorem suffix_of_span {test : Char → Bool} {text taken rest : List Char}
    (h : text.span test = (taken, rest)) : rest <:+ text := by
  rw [List.span_eq_takeWhile_dropWhile, Prod.mk.injEq] at h
  exact h.2 ▸ List.dropWhile_suffix test

theorem dropComment_suffix (text : List Char) : dropComment text <:+ text := by
  fun_induction dropComment text with
  | case1 => exact List.suffix_refl _
  | case2 rest => exact List.suffix_cons '\n' rest
  | case3 c rest _ ih => exact ih.trans (List.suffix_cons c rest)

theorem skipBlanks_suffix (flags : Flags) (fuel : Nat) (text : List Char) :
    skipBlanks flags fuel text <:+ text := by
  fun_induction skipBlanks flags fuel text with
  | case1 fuel c rest _ ih => exact ih.trans (List.suffix_cons c rest)
  | case2 fuel c rest _ _ ih =>
      exact (ih.trans (dropComment_suffix rest)).trans (List.suffix_cons c rest)
  | case3 => exact List.suffix_refl _
  | case4 => exact List.suffix_refl _

theorem skip_suffix (flags : Flags) (text : List Char) : skip flags text <:+ text :=
  skipBlanks_suffix flags text.length text

/-- A character after the blanks shortens what is left. -/
theorem length_lt_of_skip {flags : Flags} {text rest : List Char} {c : Char}
    (h : skip flags text = c :: rest) : rest.length < text.length := by
  have hle := (skip_suffix flags text).length_le
  rw [h, List.length_cons] at hle
  exact hle

theorem readFlags?_leaves {seen : List Char} {on : Bool} {flags flags' : Flags}
    {text rest : List Char} {last : Char} {any : Bool}
    (h : readFlags? seen on flags text = some (flags', last, any, rest)) : Leaves text rest := by
  induction text generalizing seen on flags with
  | nil => cases h
  | cons c after ih =>
      rw [readFlags?] at h
      split at h
      · split at h
        · cases h
        · obtain ⟨-, -, -, rfl⟩ : _ ∧ _ ∧ _ ∧ after = rest := by simpa using h
          exact .cons (List.suffix_refl _)
      · split at h
        · cases h
        · split at h
          · exact .cons (ih h).suffix
          · obtain ⟨inner, -, h⟩ := Option.bind_eq_some_iff.1 h
            exact .cons (ih h).suffix

/-! ## Runs of characters -/

theorem readWhile_suffix (flags : Flags) (test : Char → Bool) (fuel : Nat) (text : List Char) :
    (readWhile flags test fuel text).2 <:+ text := by
  induction fuel generalizing text with
  | zero => cases text <;> exact List.suffix_refl _
  | succ fuel ih =>
      cases text with
      | nil => exact List.suffix_refl _
      | cons c rest =>
          rw [readWhile]
          split
          · exact ((ih _).trans (skip_suffix flags rest)).trans (List.suffix_cons c rest)
          · exact List.suffix_refl _

theorem run_suffix {flags : Flags} {test : Char → Bool} {text taken rest : List Char}
    (h : run flags test text = (taken, rest)) : rest <:+ text := by
  have hsuffix := readWhile_suffix flags test text.length text
  rw [← run, h] at hsuffix
  exact hsuffix

/-- A run takes nothing exactly where the text does not start with a character that passes. -/
theorem run_eq_of_not {flags : Flags} {test : Char → Bool} {c : Char} (hc : test c = false)
    (rest : List Char) : run flags test (c :: rest) = ([], c :: rest) := by
  simp [run, readWhile, hc]

theorem run_fst_ne_nil {flags : Flags} {test : Char → Bool} {c : Char} (hc : test c = true)
    (rest : List Char) : (run flags test (c :: rest)).1 ≠ [] := by
  simp [run, readWhile, hc]

theorem readCount?_suffix {flags : Flags} {n : Nat} {text taken rest : List Char}
    (h : readCount? flags n text = some (taken, rest)) : rest <:+ text := by
  induction n generalizing text taken with
  | zero =>
      obtain ⟨-, rfl⟩ := Prod.mk.inj (Option.some.inj h)
      exact List.suffix_refl _
  | succ n ih =>
      cases text with
      | nil => cases h
      | cons c after =>
          obtain ⟨_, hafter, hpair⟩ := Option.map_eq_some_iff.1 h
          obtain ⟨-, rfl⟩ := Prod.mk.inj hpair
          exact ((ih hafter).trans (skip_suffix flags after)).trans (List.suffix_cons c after)

theorem braced?_eq_some_iff {flags : Flags} {text inner after : List Char} :
    braced? flags text = some (inner, after) ↔
      ∃ c, run flags (· != '\x7d') (skip flags text) = (inner, c :: after) := by
  unfold braced?
  split
  · next hrun => simp [hrun]
  · next hrun => simp [hrun]

theorem braced?_suffix {flags : Flags} {text inner after : List Char}
    (h : braced? flags text = some (inner, after)) : after <:+ text := by
  obtain ⟨c, hrun⟩ := braced?_eq_some_iff.1 h
  exact ((List.suffix_cons c after).trans (run_suffix hrun)).trans (skip_suffix flags text)

/-! ## Escapes -/

/-- How a code point is written, after blanks: in braces, or with a fixed number of digits. -/
inductive ReadsPoint (flags : Flags) (width : Nat) : List Char → Char → List Char → Prop
  | braced {text digits after : List Char} {c : Char} :
      braced? flags text = some (digits, after) → (hexNumber? digits).bind charOf? = some c →
      ReadsPoint flags width ('\x7b' :: text) c after
  | fixed {text digits after : List Char} {c : Char} : (∀ rest, text ≠ '\x7b' :: rest) →
      readCount? flags width text = some (digits, after) →
      (hexNumber? digits).bind charOf? = some c → isStrayByte flags width c = false →
      ReadsPoint flags width text c after

theorem codePoint?_eq_some_iff {flags : Flags} {width : Nat} {text rest : List Char} {c : Char} :
    codePoint? flags width text = some (c, rest) ↔
      ReadsPoint flags width (skip flags text) c rest := by
  constructor
  · intro h
    unfold codePoint? at h
    split at h
    · next after heq =>
        obtain ⟨⟨digits, after'⟩, hbraced, h⟩ := Option.bind_eq_some_iff.1 h
        obtain ⟨c', hpoint, h⟩ := Option.bind_eq_some_iff.1 h
        obtain ⟨rfl, rfl⟩ := Prod.mk.inj (Option.some.inj h)
        exact heq ▸ .braced hbraced hpoint
    · next hbrace =>
        obtain ⟨⟨digits, after⟩, hcount, h⟩ := Option.bind_eq_some_iff.1 h
        obtain ⟨c', hpoint, h⟩ := Option.bind_eq_some_iff.1 h
        simp only [Option.ite_none_left_eq_some, Option.some.injEq, Prod.mk.injEq,
          Bool.not_eq_true] at h
        obtain ⟨hbyte, rfl, rfl⟩ := h
        exact .fixed (fun rest heq => hbrace rest heq) hcount hpoint hbyte
  · intro h
    unfold codePoint?
    generalize skip flags text = start at h
    cases h with
    | braced hbraced hpoint => simp [hbraced, hpoint]
    | fixed hbrace hcount hpoint hbyte =>
        split
        · exact absurd rfl (hbrace _)
        · simp [hcount, hpoint, hbyte]

theorem ReadsPoint.suffix {flags : Flags} {width : Nat} {text rest : List Char} {c : Char}
    (h : ReadsPoint flags width text c rest) : rest <:+ text := by
  cases h with
  | braced hbraced => exact (braced?_suffix hbraced).trans (List.suffix_cons _ _)
  | fixed _ hcount => exact readCount?_suffix hcount

/-- How the name of a class is written, after blanks. -/
inductive ReadsQuery (flags : Flags) : List Char → ClassQuery → List Char → Prop
  | braced {text name after : List Char} : braced? flags text = some (name, after) →
      ReadsQuery flags ('\x7b' :: text) (.ofText name) after
  | letter {c : Char} {rest : List Char} : c ≠ '\x7b' → c ≠ '\\' →
      ReadsQuery flags (c :: rest) (.named (String.singleton c)) rest

theorem classQuery?_eq_some_iff {flags : Flags} {text rest : List Char} {query : ClassQuery} :
    classQuery? flags text = some (query, rest) ↔
      ReadsQuery flags (skip flags text) query rest := by
  constructor
  · intro h
    unfold classQuery? at h
    split at h
    · cases h
    · next heq =>
        obtain ⟨⟨name, after⟩, hbraced, hpair⟩ := Option.map_eq_some_iff.1 h
        obtain ⟨rfl, rfl⟩ := Prod.mk.inj hpair
        exact heq ▸ .braced hbraced
    · cases h
    · next hbrace hslash heq =>
        obtain ⟨rfl, rfl⟩ := Prod.mk.inj (Option.some.inj h)
        exact heq ▸ .letter hbrace hslash
  · intro h
    unfold classQuery?
    generalize skip flags text = start at h
    cases h with
    | braced hbraced => simp [hbraced]
    | letter hbrace hslash =>
        split
        · next heq => cases heq
        · next heq => exact absurd (List.cons.inj heq).1 hbrace
        · next heq => exact absurd (List.cons.inj heq).1 hslash
        · next heq =>
            obtain ⟨rfl, rfl⟩ := List.cons.inj heq
            rfl

theorem ReadsQuery.suffix {flags : Flags} {text rest : List Char} {query : ClassQuery}
    (h : ReadsQuery flags text query rest) : rest <:+ text := by
  cases h with
  | braced hbraced => exact (braced?_suffix hbraced).trans (List.suffix_cons _ _)
  | letter => exact List.suffix_cons _ _

theorem unicodeClass?_eq_some_iff {engine : Engine} {flags : Flags} {negated : Bool}
    {text rest : List Char} {e : Escape} :
    unicodeClass? engine flags negated text = some (e, rest) ↔
      ∃ query set, ReadsQuery flags (skip flags text) query rest ∧
        (flags.unicode && (engine.class? query).isSome) = true ∧
        closeClass? flags negated (.named query) = some set ∧ e = .set set := by
  constructor
  · intro h
    obtain ⟨⟨query, after⟩, hquery, h⟩ := Option.bind_eq_some_iff.1 h
    simp only [Option.ite_none_right_eq_some] at h
    obtain ⟨hknown, h⟩ := h
    obtain ⟨set, hset, h⟩ := Option.bind_eq_some_iff.1 h
    obtain ⟨rfl, rfl⟩ := Prod.mk.inj (Option.some.inj h)
    exact ⟨query, set, classQuery?_eq_some_iff.1 hquery, hknown, hset, rfl⟩
  · rintro ⟨query, set, hquery, hknown, hset, rfl⟩
    rw [unicodeClass?, classQuery?_eq_some_iff.2 hquery]
    simp only [Option.bind_eq_bind, Option.bind_some, hknown, if_true, hset]

theorem boundary?_suffix {flags : Flags} {text rest : List Char} {e : Escape}
    (h : boundary? flags text = some (e, rest)) : rest <:+ text := by
  unfold boundary? at h
  split at h
  · next after =>
      split at h
      · cases h
      · obtain ⟨-, rfl⟩ := Prod.mk.inj (Option.some.inj h)
        exact List.suffix_refl _
      · next name tail _ hrun =>
          obtain ⟨_, -, heq⟩ := Option.map_eq_some_iff.1 h
          obtain ⟨-, rfl⟩ := Prod.mk.inj heq
          exact (((List.suffix_cons _ tail).trans (run_suffix hrun)).trans
            (skip_suffix flags after)).trans (List.suffix_cons _ after)
      · cases h
  · obtain ⟨-, rfl⟩ := Prod.mk.inj (Option.some.inj h)
    exact List.suffix_refl _

/-- What the first character of an escape says about the rest: a code point follows, or the name of
a class, or perhaps that of a boundary, or the escape is complete. -/
theorem escape?_cons (engine : Engine) (flags : Flags) (c : Char) :
    (∃ width, ∀ rest, escape? engine flags (c :: rest) =
      (codePoint? flags width rest).map fun point => (.char point.1, point.2)) ∨
    (∃ negated, ∀ rest, escape? engine flags (c :: rest) =
      unicodeClass? engine flags negated rest) ∨
    (∀ rest, escape? engine flags (c :: rest) = boundary? flags rest) ∨
    ∃ found : Option Escape, ∀ rest, escape? engine flags (c :: rest) = found.map (·, rest) := by
  by_cases hself : isEscapable c = true
  · exact .inr (.inr (.inr ⟨some (.char c), fun rest => if_pos hself⟩))
  by_cases hletter : c ∈ ['x', 'u', 'U', 'p', 'P', 'b']
  · simp only [List.mem_cons, List.not_mem_nil, or_false] at hletter
    rcases hletter with rfl | rfl | rfl | rfl | rfl | rfl
    · exact .inl ⟨2, fun _ => rfl⟩
    · exact .inl ⟨4, fun _ => rfl⟩
    · exact .inl ⟨8, fun _ => rfl⟩
    · exact .inr (.inl ⟨false, fun _ => rfl⟩)
    · exact .inr (.inl ⟨true, fun _ => rfl⟩)
    · exact .inr (.inr (.inl fun _ => rfl))
  · refine .inr (.inr (.inr ⟨letterEscape? flags c, fun rest => ?_⟩))
    refine (if_neg hself).trans ?_
    split
    case h_7 => rfl
    all_goals exact absurd (by decide) hletter

theorem escape?_leaves {engine : Engine} {flags : Flags} {text rest : List Char} {e : Escape}
    (h : escape? engine flags text = some (e, rest)) : Leaves text rest := by
  cases text with
  | nil => cases h
  | cons c after =>
      rcases escape?_cons engine flags c with ⟨width, heq⟩ | ⟨negated, heq⟩ | heq | ⟨found, heq⟩
      · rw [heq] at h
        obtain ⟨_, hpoint, hpair⟩ := Option.map_eq_some_iff.1 h
        obtain ⟨-, rfl⟩ := Prod.mk.inj hpair
        exact .cons ((codePoint?_eq_some_iff.1 hpoint).suffix.trans (skip_suffix flags after))
      · obtain ⟨_, _, hquery, -⟩ := unicodeClass?_eq_some_iff.1 (heq after ▸ h)
        exact .cons (hquery.suffix.trans (skip_suffix flags after))
      · exact .cons (boundary?_suffix (heq after ▸ h))
      · obtain ⟨_, -, hpair⟩ := Option.map_eq_some_iff.1 (heq after ▸ h)
        obtain ⟨-, rfl⟩ := Prod.mk.inj hpair
        exact .cons (List.suffix_refl _)

theorem classItem?_leaves {engine : Engine} {flags : Flags} {text rest : List Char}
    {item : Escape} (h : classItem? engine flags text = some (item, rest)) : Leaves text rest := by
  unfold classItem? at h
  split at h
  · cases h
  · exact .cons (escape?_leaves h).suffix
  · obtain ⟨-, rfl⟩ := Prod.mk.inj (Option.some.inj h)
    exact .cons (List.suffix_refl _)

/-! ## Classes -/

/-- The name of a class of ASCII characters and what closes it, after the mark of negation. -/
def asciiName? (text : List Char) : Option (CharSet × List Char) :=
  match text.span (· != ':') with
  | (name, ':' :: ']' :: after) =>
      (CharSet.ofClassName? (String.ofList name)).map fun set => (set, after)
  | _ => none

/-- The mark of negation before the name of a class, if there is one, and what follows. -/
def asciiSign : List Char → Bool × List Char
  | '^' :: rest => (true, rest)
  | rest => (false, rest)

theorem asciiClass?_colon (text : List Char) :
    asciiClass? (':' :: text) =
      (asciiName? (asciiSign text).2).map fun found => ((asciiSign text).1, found) := by
  have hname (negated : Bool) (rest : List Char) : (match rest.span (· != ':') with
      | (name, ':' :: ']' :: after) =>
          (CharSet.ofClassName? (String.ofList name)).map fun set => (negated, set, after)
      | _ => none) = (asciiName? rest).map fun found => (negated, found) := by
    unfold asciiName?
    split
    · rw [Option.map_map]
      rfl
    · rfl
  exact hname _ _

theorem asciiSign_suffix (text : List Char) : (asciiSign text).2 <:+ text := by
  unfold asciiSign
  split
  · exact List.suffix_cons _ _
  · exact List.suffix_refl _

/-- A class of ASCII characters is a colon, perhaps the mark of negation, and a name. -/
theorem asciiClass?_eq_some_iff {text rest : List Char} {negated : Bool} {set : CharSet} :
    asciiClass? text = some (negated, set, rest) ↔
      ∃ after, text = ':' :: after ∧ negated = (asciiSign after).1 ∧
        asciiName? (asciiSign after).2 = some (set, rest) := by
  constructor
  · intro h
    obtain ⟨after, rfl⟩ : ∃ after, text = ':' :: after := by
      unfold asciiClass? at h
      split at h
      · exact ⟨_, rfl⟩
      · cases h
    rw [asciiClass?_colon] at h
    obtain ⟨_, hname, hpair⟩ := Option.map_eq_some_iff.1 h
    obtain ⟨rfl, rfl⟩ := Prod.mk.inj hpair
    exact ⟨after, rfl, rfl, hname⟩
  · rintro ⟨after, rfl, rfl, hname⟩
    rw [asciiClass?_colon, hname]
    rfl

theorem asciiName?_suffix {text rest : List Char} {set : CharSet}
    (h : asciiName? text = some (set, rest)) : rest <:+ text := by
  unfold asciiName? at h
  split at h
  · next name tail hspan =>
      obtain ⟨_, -, hpair⟩ := Option.map_eq_some_iff.1 h
      obtain ⟨-, rfl⟩ := Prod.mk.inj hpair
      exact ((List.suffix_cons _ tail).trans (List.suffix_cons _ _)).trans (suffix_of_span hspan)
  · cases h

theorem asciiClass?_leaves {text rest : List Char} {negated : Bool} {set : CharSet}
    (h : asciiClass? text = some (negated, set, rest)) : Leaves text rest := by
  obtain ⟨after, rfl, -, hname⟩ := asciiClass?_eq_some_iff.1 h
  exact .cons ((asciiName?_suffix hname).trans (asciiSign_suffix after))

theorem leadingDashes_suffix (flags : Flags) (fuel : Nat) (set : CharSet) (text : List Char) :
    (leadingDashes flags fuel set text).2 <:+ text := by
  fun_induction leadingDashes flags fuel set text with
  | case1 fuel set rest ih =>
      exact (ih.trans (skip_suffix flags rest)).trans (List.suffix_cons _ rest)
  | case2 => exact List.suffix_refl _

/-- The mark of negation at the front of a class, if there is one, and what follows. -/
def classSign (flags : Flags) (text : List Char) : Bool × List Char :=
  match skip flags text with
  | '^' :: rest => (true, skip flags rest)
  | text => (false, text)

/-- A closing bracket stands for itself where nothing stands before it. -/
def leadingBracket (flags : Flags) : CharSet × List Char → CharSet × List Char
  | (.none, ']' :: rest) => (.single ']', skip flags rest)
  | front => front

/-- The same, next to the mark of negation. -/
def signedBracket (flags : Flags) (negated : Bool) (front : CharSet × List Char) :
    Bool × CharSet × List Char :=
  match front.1, front.2 with
  | .none, ']' :: rest => (negated, .single ']', skip flags rest)
  | set, text => (negated, set, text)

/-- The items that stand for themselves only at the front of a class, and what follows. -/
def classFront (flags : Flags) (text : List Char) : CharSet × List Char :=
  leadingBracket flags (leadingDashes flags text.length .none text)

theorem signedBracket_eq (flags : Flags) (negated : Bool) (front : CharSet × List Char) :
    signedBracket flags negated front = (negated, leadingBracket flags front) := by
  obtain ⟨set, text⟩ := front
  unfold signedBracket leadingBracket
  simp only
  split
  · rfl
  · next hother =>
      split
      · next heq =>
          obtain ⟨rfl, rfl⟩ := Prod.mk.inj heq
          exact absurd rfl (hother _ rfl)
      · rfl

theorem classStart_eq (flags : Flags) (text : List Char) :
    classStart flags text =
      ((classSign flags text).1, classFront flags (classSign flags text).2) :=
  signedBracket_eq flags _ _

theorem classSign_suffix (flags : Flags) (text : List Char) :
    (classSign flags text).2 <:+ text := by
  unfold classSign
  split
  · next rest heq =>
      exact (skip_suffix flags rest).trans
        ((List.suffix_cons _ rest).trans (heq ▸ skip_suffix flags text))
  · exact skip_suffix flags text

theorem leadingBracket_suffix (flags : Flags) (front : CharSet × List Char) :
    (leadingBracket flags front).2 <:+ front.2 := by
  unfold leadingBracket
  split
  · next rest => exact (skip_suffix flags rest).trans (List.suffix_cons _ rest)
  · exact List.suffix_refl _

theorem classFront_suffix (flags : Flags) (text : List Char) :
    (classFront flags text).2 <:+ text :=
  (leadingBracket_suffix flags _).trans (leadingDashes_suffix flags text.length .none text)

theorem classStart_suffix (flags : Flags) (text : List Char) :
    (classStart flags text).2.2 <:+ text := by
  rw [classStart_eq]
  exact (classFront_suffix flags _).trans (classSign_suffix flags text)

/-! ## Repetitions -/

/-- How a number is written: digits, with blanks around them. -/
theorem count?_eq_some_iff {flags : Flags} {text rest : List Char} {n : Nat} :
    count? flags text = some (n, rest) ↔
      ∃ digits after, run flags Char.isDigit (text.dropWhile Text.isSpaceChar) = (digits, after) ∧
        digits ≠ [] ∧ digits.foldl (fun n c => 10 * n + (c.toNat - '0'.toNat)) 0 = n ∧
        n < 4294967296 ∧ rest = (run flags Text.isSpaceChar after).2 := by
  unfold count?
  split
  · next hrun =>
      rw [hrun]
      simp
  · next digits after hdigits hrun =>
      have hne : digits ≠ [] := fun hnil => hdigits hnil
      rw [hrun]
      simp only [Option.ite_none_right_eq_some, Option.some.injEq, Prod.mk.injEq]
      constructor
      · rintro ⟨hlt, rfl, rfl⟩
        exact ⟨digits, after, ⟨rfl, rfl⟩, hne, rfl, hlt, rfl⟩
      · rintro ⟨_, _, ⟨rfl, rfl⟩, -, rfl, hlt, rfl⟩
        exact ⟨hlt, rfl, rfl⟩

theorem count?_suffix {flags : Flags} {text rest : List Char} {n : Nat}
    (h : count? flags text = some (n, rest)) : rest <:+ text := by
  obtain ⟨digits, after, hrun, -, -, -, rfl⟩ := count?_eq_some_iff.1 h
  exact ((readWhile_suffix flags _ _ after).trans (run_suffix hrun)).trans
    (List.dropWhile_suffix _)

/-- How the bounds of a counted repetition are written, after the opening brace and blanks. -/
inductive ReadsBounds (flags : Flags) : List Char → Nat → Option Nat → List Char → Prop
  | exactly {text rest : List Char} {n : Nat} : count? flags text = some (n, '\x7d' :: rest) →
      ReadsBounds flags text n (some n) rest
  | atLeast {text after rest : List Char} {n : Nat} : count? flags text = some (n, ',' :: after) →
      skip flags after = '\x7d' :: rest → ReadsBounds flags text n none rest
  | between {text after rest : List Char} {least most : Nat} :
      count? flags text = some (least, ',' :: after) →
      count? flags (skip flags after) = some (most, '\x7d' :: rest) →
      least ≤ most → ReadsBounds flags text least (some most) rest

theorem bounds?_eq_some_iff {flags : Flags} {text rest : List Char} {least : Nat}
    {most : Option Nat} :
    bounds? flags text = some (least, most, rest) ↔
      ReadsBounds flags (skip flags text) least most rest := by
  constructor
  · intro h
    unfold bounds? at h
    obtain ⟨⟨n, after⟩, hcount, h⟩ := Option.bind_eq_some_iff.1 h
    simp only at h
    split at h
    · simp only [Option.some.injEq, Prod.mk.injEq] at h
      obtain ⟨rfl, rfl, rfl⟩ := h
      exact .exactly hcount
    · split at h
      · next hclose =>
          simp only [Option.some.injEq, Prod.mk.injEq] at h
          obtain ⟨rfl, rfl, rfl⟩ := h
          exact .atLeast hcount hclose
      · obtain ⟨⟨greatest, after'⟩, hcount', h⟩ := Option.bind_eq_some_iff.1 h
        simp only at h
        split at h
        · split at h
          · next hle =>
              simp only [Option.some.injEq, Prod.mk.injEq] at h
              obtain ⟨rfl, rfl, rfl⟩ := h
              exact .between hcount hcount' hle
          · cases h
        · cases h
    · cases h
  · intro h
    unfold bounds?
    cases h with
    | exactly hcount => simp [hcount]
    | atLeast hcount hclose => simp [hcount, hclose]
    | between hcount hcount' hle =>
        simp only [hcount, Option.bind_eq_bind, Option.bind_some]
        split
        · next heq =>
            rw [heq] at hcount'
            -- a closing brace does not start a number
            cases hcount'
        · simp [hcount', hle]

theorem ReadsBounds.suffix {flags : Flags} {text rest : List Char} {least : Nat}
    {most : Option Nat} (h : ReadsBounds flags text least most rest) : rest <:+ text := by
  cases h with
  | exactly hcount => exact (List.suffix_cons _ _).trans (count?_suffix hcount)
  | @atLeast after _ _ hcount hclose =>
      have hafter : '\x7d' :: rest <:+ after := hclose ▸ skip_suffix flags after
      exact (((List.suffix_cons _ _).trans hafter).trans (List.suffix_cons _ _)).trans
        (count?_suffix hcount)
  | between hcount hcount' =>
      exact (((List.suffix_cons _ _).trans (count?_suffix hcount')).trans
        (skip_suffix flags _)).trans ((List.suffix_cons _ _).trans (count?_suffix hcount))

theorem dropLazy_suffix (text : List Char) : dropLazy text <:+ text := by
  unfold dropLazy
  split
  · exact List.suffix_cons _ _
  · exact List.suffix_refl _

/-- What the first character of a repetition says about the rest: bounds follow, or it is
complete. -/
theorem repetition?_cons (flags : Flags) (c : Char) :
    (∀ rest, repetition? flags (c :: rest) = (bounds? flags rest).map fun found =>
      (found.1, found.2.1, dropLazy (skip flags found.2.2))) ∨
    (∃ least most, (∀ bound ∈ most, least ≤ bound) ∧
      ∀ rest, repetition? flags (c :: rest) = some (least, most, dropLazy rest)) ∨
    ∀ rest, repetition? flags (c :: rest) = none := by
  by_cases hc : c ∈ ['\x7b', '*', '+', '?']
  · simp only [List.mem_cons, List.not_mem_nil, or_false] at hc
    rcases hc with rfl | rfl | rfl | rfl
    · exact .inl fun _ => rfl
    · exact .inr (.inl ⟨0, none, by simp, fun _ => rfl⟩)
    · exact .inr (.inl ⟨1, none, by simp, fun _ => rfl⟩)
    · exact .inr (.inl ⟨0, some 1, by simp, fun _ => rfl⟩)
  · refine .inr (.inr fun rest => ?_)
    unfold repetition?
    split <;> simp_all

theorem repetition?_leaves {flags : Flags} {text rest : List Char} {least : Nat}
    {most : Option Nat} (h : repetition? flags text = some (least, most, rest)) :
    Leaves text rest := by
  cases text with
  | nil => cases h
  | cons c after =>
      rcases repetition?_cons flags c with heq | ⟨_, _, -, heq⟩ | heq
      · rw [heq] at h
        obtain ⟨⟨_, _, after'⟩, hbounds, hpair⟩ := Option.map_eq_some_iff.1 h
        simp only [Prod.mk.injEq] at hpair
        obtain ⟨-, -, rfl⟩ := hpair
        exact .cons ((((dropLazy_suffix _).trans (skip_suffix flags after')).trans
          (bounds?_eq_some_iff.1 hbounds).suffix).trans (skip_suffix flags after))
      · rw [heq] at h
        simp only [Option.some.injEq, Prod.mk.injEq] at h
        obtain ⟨-, -, rfl⟩ := h
        exact .cons (dropLazy_suffix after)
      · cases (heq after).symm.trans h

theorem groupName?_suffix {engine : Engine} {text rest : List Char} {name : String}
    (h : groupName? engine text = some (name, rest)) : rest <:+ text := by
  unfold groupName? at h
  split at h
  · next hspan =>
      split at h
      · obtain ⟨-, rfl⟩ := Prod.mk.inj (Option.some.inj h)
        exact (List.suffix_cons _ _).trans (suffix_of_span hspan)
      · cases h
  · cases h

end Pattern

end ResponseModel

import ResponseModel.Proofs.PatternTokens

/-!
# The grammar of patterns

How a text is read as a pattern, without the bounds on the number of steps that the readers carry:
the opening of a group (`Opens`), the items of a class (`ReadsRange`, `ReadsClass`), alternatives up
to the end or to the parenthesis that closes them (`Reads`).  The readers follow these rules, and
the bounds that they are given are never met (`class?_eq_some_iff`, `Reads.body?_eq`).  Main
statement: `ofText?_eq_some_iff`, a text is a pattern exactly if the rules read it to its end.
-/

namespace ResponseModel

namespace Pattern

/-! ## Groups -/

/-- How a group is opened, after its parenthesis and blanks. -/
inductive Opens (engine : Engine) (flags : Flags) (names : List String) :
    List Char → Opening → List Char → Prop
  /-- A group with a new name. -/
  | named {text rest after : List Char} {name : String} :
      text = '?' :: 'P' :: '<' :: rest ∨
        text = '?' :: '<' :: rest ∧ rest.head? ≠ some '=' ∧ rest.head? ≠ some '!' →
      groupName? engine rest = some (name, after) → name ∉ names →
      Opens engine flags names text (.group flags (name :: names)) after
  /-- A group with flags of its own. -/
  | flagged {rest after : List Char} {inner : Flags} {any : Bool} :
      readFlags? [] true flags rest = some (inner, ':', any, after) →
      Opens engine flags names ('?' :: rest) (.group inner names) after
  /-- Flags for what follows. -/
  | directive {rest after : List Char} {inner : Flags} {last : Char} : last ≠ ':' →
      readFlags? [] true flags rest = some (inner, last, true, after) →
      Opens engine flags names ('?' :: rest) (.directive inner) after
  /-- A group without a name or flags. -/
  | plain {text : List Char} : (∀ rest, text ≠ '?' :: rest) →
      Opens engine flags names text (.group flags names) text

theorem readFlags?_eq_none {flags : Flags} {c : Char} (hc : c ∈ ['=', '!', '<', 'P'])
    (rest : List Char) : readFlags? [] true flags (c :: rest) = none := by
  simp only [List.mem_cons, List.not_mem_nil, or_false] at hc
  rcases hc with rfl | rfl | rfl | rfl <;> rfl

/-- Neither look-around nor a name starts with flags. -/
theorem opening?_of_readFlags? {engine : Engine} {flags inner : Flags} {names : List String}
    {text rest after : List Char} {last : Char} {any : Bool}
    (htext : skip flags text = '?' :: rest)
    (hflags : readFlags? [] true flags rest = some (inner, last, any, after)) :
    opening? engine flags names text =
      if last = ':' then some (.group inner names, after)
      else if any then some (.directive inner, after) else none := by
  have hfirst : ∀ c more, rest = c :: more → c ∉ ['=', '!', '<', 'P'] := by
    rintro c more rfl hc
    rw [readFlags?_eq_none hc] at hflags
    cases hflags
  unfold opening?
  simp only [htext]
  split
  · next heq => exact absurd (by simp) (hfirst _ _ (List.cons.inj heq).2)
  · next heq => exact absurd (by simp) (hfirst _ _ (List.cons.inj heq).2)
  · next heq => exact absurd (by simp) (hfirst _ _ (List.cons.inj heq).2)
  · next heq => exact absurd (by simp) (hfirst _ _ (List.cons.inj heq).2)
  · next heq => exact absurd (by simp) (hfirst _ _ (List.cons.inj heq).2)
  · next heq => exact absurd (by simp) (hfirst _ _ (List.cons.inj heq).2)
  · next heq =>
      rw [← (List.cons.inj heq).2, hflags]
      rfl
  · next hnot => exact absurd rfl (hnot _)

theorem opening?_eq_some_iff {engine : Engine} {flags : Flags} {names : List String}
    {text rest : List Char} {opening : Opening} :
    opening? engine flags names text = some (opening, rest) ↔
      Opens engine flags names (skip flags text) opening rest := by
  constructor
  · intro h
    unfold opening? at h
    simp only at h
    split at h
    · cases h
    · cases h
    · cases h
    · cases h
    · next more heq =>
        obtain ⟨⟨name, after⟩, hname, h⟩ := Option.bind_eq_some_iff.1 h
        simp only [Option.ite_none_left_eq_some, Option.some.injEq, Prod.mk.injEq] at h
        obtain ⟨hnew, rfl, rfl⟩ := h
        exact .named (.inl heq) hname hnew
    · next more hbehind hnotBehind heq =>
        obtain ⟨⟨name, after⟩, hname, h⟩ := Option.bind_eq_some_iff.1 h
        simp only [Option.ite_none_left_eq_some, Option.some.injEq, Prod.mk.injEq] at h
        obtain ⟨hnew, rfl, rfl⟩ := h
        refine .named (.inr ⟨heq, fun hhead => ?_, fun hhead => ?_⟩) hname hnew
        · obtain ⟨tail, rfl⟩ := List.head?_eq_some_iff.1 hhead
          exact hbehind tail rfl
        · obtain ⟨tail, rfl⟩ := List.head?_eq_some_iff.1 hhead
          exact hnotBehind tail rfl
    · next heq =>
        obtain ⟨⟨inner, last, any, after⟩, hflags, h⟩ := Option.bind_eq_some_iff.1 h
        simp only at h
        rw [heq]
        split_ifs at h with hlast hany
        · obtain ⟨rfl, rfl⟩ := Prod.mk.inj (Option.some.inj h)
          exact .flagged (hlast ▸ hflags)
        · obtain ⟨rfl, rfl⟩ := Prod.mk.inj (Option.some.inj h)
          exact .directive hlast (hany ▸ hflags)
    · next hplain =>
        obtain ⟨rfl, rfl⟩ := Prod.mk.inj (Option.some.inj h)
        exact .plain fun rest heq => hplain rest heq
  · intro h
    generalize htext : skip flags text = skipped at h
    cases h with
    | named hskipped hname hnew =>
        unfold opening?
        simp only [htext]
        rcases hskipped with rfl | ⟨rfl, hbehind, hnotBehind⟩
        · simp [hname, hnew]
        · split
          · next heq => simp at heq
          · next heq => simp at heq
          · next heq => simp [(List.cons.inj (List.cons.inj heq).2).2] at hbehind
          · next heq => simp [(List.cons.inj (List.cons.inj heq).2).2] at hnotBehind
          · next heq => simp at heq
          · next heq =>
              simp only [List.cons.injEq, true_and] at heq
              simp [← heq, hname, hnew]
          · next hnot heq =>
              simp only [List.cons.injEq, true_and] at heq
              exact absurd heq.symm (hnot _)
          · next hnot => exact absurd rfl (hnot _)
    | flagged hflags => rw [opening?_of_readFlags? htext hflags, if_pos rfl]
    | directive hlast hflags =>
        rw [opening?_of_readFlags? htext hflags, if_neg hlast, if_pos rfl]
    | plain hplain =>
        unfold opening?
        simp only [htext]
        split
        case h_8 => rfl
        all_goals exact absurd rfl (hplain _)

theorem Opens.suffix {engine : Engine} {flags : Flags} {names : List String}
    {text rest : List Char} {opening : Opening}
    (h : Opens engine flags names text opening rest) : rest <:+ text := by
  cases h with
  | named htext hname =>
      rcases htext with rfl | ⟨rfl, -⟩
      · exact (groupName?_suffix hname).trans
          ((List.suffix_cons _ _).trans ((List.suffix_cons _ _).trans (List.suffix_cons _ _)))
      · exact (groupName?_suffix hname).trans
          ((List.suffix_cons _ _).trans (List.suffix_cons _ _))
  | flagged hflags => exact (readFlags?_leaves hflags).suffix.trans (List.suffix_cons _ _)
  | directive _ hflags => exact (readFlags?_leaves hflags).suffix.trans (List.suffix_cons _ _)
  | plain => exact List.suffix_refl _

/-! ## Classes -/

/-- How an item or a range inside brackets is read. -/
inductive ReadsRange (engine : Engine) (flags : Flags) : List Char → CharSet → List Char → Prop
  /-- One item; a minus after it has to be followed by another one or by the end of the class. -/
  | item {text after : List Char} {item : Escape} {set : CharSet} :
      classItem? engine flags text = some (item, after) → item.charSet? flags = some set →
      skip flags after ≠ [] →
      (∀ more, skip flags after = '-' :: more → endsRange flags more = true) →
      ReadsRange engine flags text set (skip flags after)
  /-- A range between two characters. -/
  | range {text after more rest : List Char} {first last : Escape} {set : CharSet} :
      classItem? engine flags text = some (first, after) → skip flags after = '-' :: more →
      endsRange flags more = false →
      classItem? engine flags (skip flags more) = some (last, rest) →
      charRange? flags first last = some set → ReadsRange engine flags text set rest

theorem classRange?_eq_some_iff {engine : Engine} {flags : Flags} {text rest : List Char}
    {set : CharSet} :
    classRange? engine flags text = some (set, rest) ↔ ReadsRange engine flags text set rest := by
  constructor
  · intro h
    unfold classRange? at h
    obtain ⟨⟨item, after⟩, hitem, h⟩ := Option.bind_eq_some_iff.1 h
    simp only at h
    split at h
    · cases h
    · next more heq =>
        split at h
        · next hends =>
            obtain ⟨set', hset, hpair⟩ := Option.map_eq_some_iff.1 h
            obtain ⟨rfl, rfl⟩ := Prod.mk.inj hpair
            rw [← heq]
            exact .item hitem hset (by simp [heq]) fun more' heq' =>
              (List.cons.inj (heq.symm.trans heq')).2 ▸ hends
        · next hends =>
            obtain ⟨⟨last, left⟩, hlast, h⟩ := Option.bind_eq_some_iff.1 h
            obtain ⟨set', hset, hpair⟩ := Option.map_eq_some_iff.1 h
            obtain ⟨rfl, rfl⟩ := Prod.mk.inj hpair
            exact .range hitem heq (Bool.not_eq_true _ ▸ hends) hlast hset
    · next hnil hminus =>
        obtain ⟨set', hset, hpair⟩ := Option.map_eq_some_iff.1 h
        obtain ⟨rfl, rfl⟩ := Prod.mk.inj hpair
        exact .item hitem hset hnil fun more heq => absurd heq (hminus more)
  · intro h
    unfold classRange?
    cases h with
    | item hitem hset hne hminus =>
        rw [hitem]
        simp only [Option.bind_eq_bind, Option.bind_some]
        split
        · next heq => exact absurd heq hne
        · next more heq => rw [if_pos (hminus more heq), hset, heq, Option.map_some]
        · rw [hset, Option.map_some]
    | range hitem hminus hends hlast hset =>
        rw [hitem]
        simp [hminus, hends, hlast, hset]

theorem ReadsRange.leaves {engine : Engine} {flags : Flags} {text rest : List Char}
    {set : CharSet} (h : ReadsRange engine flags text set rest) : Leaves text rest := by
  cases h with
  | item hitem => exact (classItem?_leaves hitem).trans (skip_suffix flags _)
  | @range after more _ _ _ _ hitem hminus _ hlast =>
      refine (classItem?_leaves hitem).trans ((classItem?_leaves hlast).suffix.trans ?_)
      have hmore : '-' :: more <:+ after := hminus ▸ skip_suffix flags after
      exact (skip_suffix flags more).trans ((List.suffix_cons _ more).trans hmore)

/-- The character that is doubled to write an operator. -/
def SetOp.char : SetOp → Char
  | .inter => '&'
  | .diff => '-'
  | .symmDiff => '~'

/-- How the items of a class are read, up to its closing bracket. -/
inductive ReadsClass (engine : Engine) (flags : Flags) :
    Bool → CharSet → Option (SetOp × CharSet) → List Char → CharSet → List Char → Prop
  | close {negated : Bool} {set result : CharSet} {pending : Option (SetOp × CharSet)}
      {text rest : List Char} : skip flags text = ']' :: rest →
      closeClass? flags negated (combine flags set pending) = some result →
      ReadsClass engine flags negated set pending text result rest
  | operator {negated : Bool} {set result : CharSet} {pending : Option (SetOp × CharSet)}
      {text after rest : List Char} (op : SetOp) : skip flags text = op.char :: op.char :: after →
      ReadsClass engine flags negated .none (some (op, combine flags set pending)) after result
        rest →
      ReadsClass engine flags negated set pending text result rest
  /-- A class of ASCII characters inside the class. -/
  | named {negated innerNegated : Bool} {set members inner result : CharSet}
      {pending : Option (SetOp × CharSet)} {text start after rest : List Char} :
      skip flags text = '[' :: start →
      asciiClass? start = some (innerNegated, members, after) →
      closeClass? flags innerNegated members = some inner →
      ReadsClass engine flags negated (.union set inner) pending after result rest →
      ReadsClass engine flags negated set pending text result rest
  /-- Another class inside the class. -/
  | nested {negated : Bool} {set inner result : CharSet} {pending : Option (SetOp × CharSet)}
      {text start after rest : List Char} : skip flags text = '[' :: start →
      asciiClass? start = none →
      ReadsClass engine flags (classStart flags start).1 (classStart flags start).2.1 none
        (classStart flags start).2.2 inner after →
      ReadsClass engine flags negated (.union set inner) pending after result rest →
      ReadsClass engine flags negated set pending text result rest
  | item {negated : Bool} {set item result : CharSet} {pending : Option (SetOp × CharSet)}
      {text start after rest : List Char} {c : Char} : skip flags text = c :: start →
      c ≠ ']' → c ≠ '[' → (∀ (op : SetOp) more, c :: start ≠ op.char :: op.char :: more) →
      ReadsRange engine flags (c :: start) item after →
      ReadsClass engine flags negated (.union set item) pending after result rest →
      ReadsClass engine flags negated set pending text result rest

theorem ReadsClass.leaves {engine : Engine} {flags : Flags} {negated : Bool}
    {set result : CharSet} {pending : Option (SetOp × CharSet)} {text rest : List Char}
    (h : ReadsClass engine flags negated set pending text result rest) : Leaves text rest := by
  induction h with
  | @close _ _ _ _ text rest htext =>
      exact .of_suffix (htext ▸ skip_suffix flags text) (.cons (List.suffix_refl rest))
  | @operator _ _ _ _ text after _ _ htext _ ih =>
      exact .of_suffix (htext ▸ skip_suffix flags text)
        (.cons (ih.suffix.trans (List.suffix_cons _ after)))
  | @named _ _ _ _ _ _ _ text start _ _ htext hname _ _ ih =>
      exact .of_suffix (htext ▸ skip_suffix flags text)
        (.cons (ih.suffix.trans (asciiClass?_leaves hname).suffix))
  | @nested _ _ _ _ _ text start _ _ htext _ _ _ ihinner ih =>
      exact .of_suffix (htext ▸ skip_suffix flags text)
        (.cons (ih.suffix.trans (ihinner.suffix.trans (classStart_suffix flags start))))
  | @item _ _ _ _ _ text _ _ _ _ htext _ _ _ hitem _ ih =>
      exact .of_suffix (htext ▸ skip_suffix flags text) (hitem.leaves.trans ih.suffix)

theorem readsClass_of_classBody? {engine : Engine} {flags : Flags} {fuel : Nat} {negated : Bool}
    {set result : CharSet} {pending : Option (SetOp × CharSet)} {text rest : List Char}
    (h : classBody? engine flags fuel negated set pending text = some (result, rest)) :
    ReadsClass engine flags negated set pending text result rest := by
  induction fuel generalizing negated set result pending text rest with
  | zero => cases h
  | succ fuel ih =>
      rw [classBody?] at h
      split at h
      · cases h
      · next htext =>
          obtain ⟨_, hclose, hpair⟩ := Option.map_eq_some_iff.1 h
          obtain ⟨rfl, rfl⟩ := Prod.mk.inj hpair
          exact .close htext hclose
      · next htext => exact .operator .inter htext (ih h)
      · next htext => exact .operator .diff htext (ih h)
      · next htext => exact .operator .symmDiff htext (ih h)
      · next start htext =>
          split at h
          · next hname =>
              split at h
              · next hinner => exact .named htext hname hinner (ih h)
              · cases h
          · next hname =>
              simp only at h
              split at h
              · next hinner => exact .nested htext hname (ih hinner) (ih h)
              · cases h
      · next c start hclose hinter hdiff hsymm hopen htext =>
          split at h
          · next hrange =>
              refine .item htext hclose hopen ?_ (classRange?_eq_some_iff.1 hrange) (ih h)
              intro op more heq
              obtain ⟨hfirst, hsecond⟩ := List.cons.inj heq
              cases op with
              | inter => exact hinter more hfirst hsecond
              | diff => exact hdiff more hfirst hsecond
              | symmDiff => exact hsymm more hfirst hsecond
          · cases h

theorem ReadsClass.classBody?_eq {engine : Engine} {flags : Flags} {negated : Bool}
    {set result : CharSet} {pending : Option (SetOp × CharSet)} {text rest : List Char}
    (h : ReadsClass engine flags negated set pending text result rest) (fuel : Nat)
    (hfuel : text.length < fuel) :
    classBody? engine flags fuel negated set pending text = some (result, rest) := by
  induction h generalizing fuel with
  | close htext hclose =>
      obtain ⟨fuel, rfl⟩ := Nat.exists_eq_add_one.2 (Nat.zero_lt_of_lt hfuel)
      rw [classBody?]
      simp only [htext, hclose, Option.map_some]
  | operator op htext _ ih =>
      obtain ⟨fuel, rfl⟩ := Nat.exists_eq_add_one.2 (Nat.zero_lt_of_lt hfuel)
      have hlt := length_lt_of_skip htext
      rw [List.length_cons] at hlt
      rw [classBody?, ← ih fuel (by omega)]
      cases op with
      | inter => simp only [htext, SetOp.char]
      | diff => simp only [htext, SetOp.char]
      | symmDiff => simp only [htext, SetOp.char]
  | named htext hname hinner _ ih =>
      obtain ⟨fuel, rfl⟩ := Nat.exists_eq_add_one.2 (Nat.zero_lt_of_lt hfuel)
      have hlt := length_lt_of_skip htext
      have hafter := (asciiClass?_leaves hname).length_lt
      rw [classBody?]
      simp only [htext, hname, hinner]
      exact ih fuel (by omega)
  | @nested _ _ _ _ _ _ start _ _ htext hname hinner _ ihinner ih =>
      obtain ⟨fuel, rfl⟩ := Nat.exists_eq_add_one.2 (Nat.zero_lt_of_lt hfuel)
      have hlt := length_lt_of_skip htext
      have hstart := (classStart_suffix flags start).length_le
      have hafter := hinner.leaves.length_lt
      rw [classBody?]
      simp only [htext, hname, ihinner fuel (by omega)]
      exact ih fuel (by omega)
  | @item _ _ _ _ _ _ start _ _ c htext hclose hopen hop hitem _ ih =>
      obtain ⟨fuel, rfl⟩ := Nat.exists_eq_add_one.2 (Nat.zero_lt_of_lt hfuel)
      have hlt := length_lt_of_skip htext
      have hafter := hitem.leaves.length_lt
      rw [List.length_cons] at hafter
      rw [classBody?]
      simp only [htext]
      split
      · next heq => cases heq
      · next heq => exact absurd (List.cons.inj heq).1 hclose
      · next heq => exact absurd heq (hop .inter _)
      · next heq => exact absurd heq (hop .diff _)
      · next heq => exact absurd heq (hop .symmDiff _)
      · next heq => exact absurd (List.cons.inj heq).1 hopen
      · next heq =>
          obtain ⟨rfl, rfl⟩ := List.cons.inj heq
          simp only [classRange?_eq_some_iff.2 hitem]
          exact ih fuel (by omega)

theorem class?_eq_some_iff {engine : Engine} {flags : Flags} {text rest : List Char}
    {set : CharSet} :
    class? engine flags text = some (set, rest) ↔
      ReadsClass engine flags (classStart flags text).1 (classStart flags text).2.1 none
        (classStart flags text).2.2 set rest := by
  have hlength := (classStart_suffix flags text).length_le
  exact ⟨readsClass_of_classBody?, fun h => h.classBody?_eq _ (by omega)⟩

/-! ## Patterns -/

/-- What the first character of an atom says about the rest: an escape or a class follows, or
nothing. -/
theorem atom?_cons (engine : Engine) (flags : Flags) (c : Char) :
    (∀ rest, atom? engine flags (c :: rest) =
      (escape? engine flags rest).map fun found => (ofEscape flags found.1, found.2)) ∨
    (∀ rest, atom? engine flags (c :: rest) =
      (class? engine flags rest).map fun found => (.chars found.1, found.2)) ∨
    ∃ found : Option Pattern, ∀ rest, atom? engine flags (c :: rest) = found.map (·, rest) := by
  by_cases hmeta : c ∈ ['\\', '[', '.', '^', '$']
  · simp only [List.mem_cons, List.not_mem_nil, or_false] at hmeta
    rcases hmeta with rfl | rfl | rfl | rfl | rfl
    · exact .inl fun _ => rfl
    · exact .inr (.inl fun _ => rfl)
    · refine .inr (.inr ⟨if flags.unicode then some (.chars (dot flags)) else none, fun _ => ?_⟩)
      rw [atom?]
      split <;> rfl
    · exact .inr (.inr ⟨some _, fun _ => rfl⟩)
    · exact .inr (.inr ⟨some _, fun _ => rfl⟩)
  · refine .inr (.inr ⟨some (literal flags c), fun rest => ?_⟩)
    unfold atom?
    split <;> simp_all

theorem atom?_leaves {engine : Engine} {flags : Flags} {text rest : List Char} {pattern : Pattern}
    (h : atom? engine flags text = some (pattern, rest)) : Leaves text rest := by
  cases text with
  | nil => cases h
  | cons c after =>
      rcases atom?_cons engine flags c with heq | heq | ⟨found, heq⟩
      · rw [heq] at h
        obtain ⟨_, hescape, hpair⟩ := Option.map_eq_some_iff.1 h
        obtain ⟨-, rfl⟩ := Prod.mk.inj hpair
        exact .cons (escape?_leaves hescape).suffix
      · rw [heq] at h
        obtain ⟨_, hclass, hpair⟩ := Option.map_eq_some_iff.1 h
        obtain ⟨-, rfl⟩ := Prod.mk.inj hpair
        exact .cons ((class?_eq_some_iff.1 hclass).leaves.suffix.trans (classStart_suffix flags _))
      · obtain ⟨_, -, hpair⟩ := Option.map_eq_some_iff.1 (heq after ▸ h)
        obtain ⟨-, rfl⟩ := Prod.mk.inj hpair
        exact .cons (List.suffix_refl _)

/-- How alternatives are read, up to the end of the text or the parenthesis that closes the
group. -/
inductive Reads (engine : Engine) : Flags → List String → List Pattern → List (Option Pattern) →
    List Char → Pattern → List String → List Char → Prop
  | finish {flags : Flags} {names : List String} {branches : List Pattern}
      {pieces : List (Option Pattern)} {text : List Char} : skip flags text = [] →
      Reads engine flags names branches pieces text (choice (sequence pieces :: branches).reverse)
        names []
  | close {flags : Flags} {names : List String} {branches : List Pattern}
      {pieces : List (Option Pattern)} {text rest : List Char} : skip flags text = ')' :: rest →
      Reads engine flags names branches pieces text (choice (sequence pieces :: branches).reverse)
        names (')' :: rest)
  | branch {flags : Flags} {names names' : List String} {branches : List Pattern}
      {pieces : List (Option Pattern)} {text after rest : List Char} {result : Pattern} :
      skip flags text = '|' :: after →
      Reads engine flags names (sequence pieces :: branches) [] after result names' rest →
      Reads engine flags names branches pieces text result names' rest
  | directive {flags inner : Flags} {names names' : List String} {branches : List Pattern}
      {pieces : List (Option Pattern)} {text start after rest : List Char} {result : Pattern} :
      skip flags text = '(' :: start →
      Opens engine flags names (skip flags start) (.directive inner) after →
      Reads engine inner names branches (none :: pieces) after result names' rest →
      Reads engine flags names branches pieces text result names' rest
  | group {flags inner : Flags} {names names' innerNames outerNames : List String}
      {branches : List Pattern} {pieces : List (Option Pattern)}
      {text start content after rest : List Char} {group result : Pattern} :
      skip flags text = '(' :: start →
      Opens engine flags names (skip flags start) (.group inner innerNames) content →
      Reads engine inner innerNames [] [] content group outerNames (')' :: after) →
      Reads engine flags outerNames branches (some group :: pieces) after result names' rest →
      Reads engine flags names branches pieces text result names' rest
  | repetition {flags : Flags} {names names' : List String} {branches : List Pattern}
      {last : Pattern} {pieces : List (Option Pattern)} {text start after rest : List Char}
      {c : Char} {least : Nat} {most : Option Nat} {result : Pattern} :
      skip flags text = c :: start → isRepetition c = true →
      repetition? flags (c :: start) = some (least, most, after) →
      Reads engine flags names branches (some (.many last least most) :: pieces) after result names'
        rest →
      Reads engine flags names branches (some last :: pieces) text result names' rest
  | atom {flags : Flags} {names names' : List String} {branches : List Pattern}
      {pieces : List (Option Pattern)} {text start after rest : List Char} {c : Char}
      {piece result : Pattern} :
      skip flags text = c :: start → c ∉ [')', '|', '('] → isRepetition c = false →
      atom? engine flags (c :: start) = some (piece, after) →
      Reads engine flags names branches (some piece :: pieces) after result names' rest →
      Reads engine flags names branches pieces text result names' rest

theorem Reads.suffix {engine : Engine} {flags : Flags} {names names' : List String}
    {branches : List Pattern} {pieces : List (Option Pattern)} {text rest : List Char}
    {result : Pattern}
    (h : Reads engine flags names branches pieces text result names' rest) :
    rest <:+ skip flags text := by
  induction h with
  | finish => exact List.nil_suffix
  | close htext => exact htext ▸ List.suffix_refl _
  | branch htext _ ih =>
      rw [htext]
      exact (ih.trans (skip_suffix _ _)).trans (List.suffix_cons _ _)
  | directive htext hopens _ ih =>
      rw [htext]
      exact ((ih.trans (skip_suffix _ _)).trans (hopens.suffix.trans (skip_suffix _ _))).trans
        (List.suffix_cons _ _)
  | group htext hopens _ _ ihinner ih =>
      rw [htext]
      have hafter := ((List.suffix_cons _ _).trans ihinner).trans (skip_suffix _ _)
      exact (((ih.trans (skip_suffix _ _)).trans hafter).trans
        (hopens.suffix.trans (skip_suffix _ _))).trans (List.suffix_cons _ _)
  | repetition htext _ hrepetition _ ih =>
      rw [htext]
      exact (ih.trans (skip_suffix _ _)).trans (repetition?_leaves hrepetition).suffix
  | atom htext _ _ hatom _ ih =>
      rw [htext]
      exact (ih.trans (skip_suffix _ _)).trans (atom?_leaves hatom).suffix

theorem reads_of_body? {engine : Engine} {fuel : Nat} {flags : Flags} {names names' : List String}
    {branches : List Pattern} {pieces : List (Option Pattern)} {text rest : List Char}
    {result : Pattern}
    (h : body? engine fuel flags names branches pieces text = some (result, names', rest)) :
    Reads engine flags names branches pieces text result names' rest := by
  induction fuel generalizing flags names names' branches pieces text rest result with
  | zero => cases h
  | succ fuel ih =>
      rw [body?] at h
      split at h
      · next htext =>
          simp only [Option.some.injEq, Prod.mk.injEq] at h
          obtain ⟨rfl, rfl, rfl⟩ := h
          exact .finish htext
      · next htext =>
          simp only [Option.some.injEq, Prod.mk.injEq] at h
          obtain ⟨rfl, rfl, rfl⟩ := h
          exact .close htext
      · next htext => exact .branch htext (ih h)
      · next htext =>
          split at h
          · next hopening => exact .directive htext (opening?_eq_some_iff.1 hopening) (ih h)
          · next hopening =>
              split at h
              · next hinner =>
                  exact .group htext (opening?_eq_some_iff.1 hopening) (ih hinner) (ih h)
              · cases h
          · cases h
      · next c start hclose hbranch hopen htext =>
          split at h
          · next hoperator =>
              split at h
              · next hrepetition => exact .repetition htext hoperator hrepetition (ih h)
              · cases h
          · next hoperator =>
              split at h
              · next hatom =>
                  refine .atom htext ?_ (Bool.not_eq_true _ ▸ hoperator) hatom (ih h)
                  simpa using ⟨hclose, hbranch, hopen⟩
              · cases h

theorem Reads.body?_eq {engine : Engine} {flags : Flags} {names names' : List String}
    {branches : List Pattern} {pieces : List (Option Pattern)} {text rest : List Char}
    {result : Pattern}
    (h : Reads engine flags names branches pieces text result names' rest) (fuel : Nat)
    (hfuel : text.length < fuel) :
    body? engine fuel flags names branches pieces text = some (result, names', rest) := by
  induction h generalizing fuel with
  | finish htext =>
      obtain ⟨fuel, rfl⟩ := Nat.exists_eq_add_one.2 (Nat.zero_lt_of_lt hfuel)
      rw [body?]
      simp only [htext]
  | close htext =>
      obtain ⟨fuel, rfl⟩ := Nat.exists_eq_add_one.2 (Nat.zero_lt_of_lt hfuel)
      rw [body?]
      simp only [htext]
  | branch htext _ ih =>
      obtain ⟨fuel, rfl⟩ := Nat.exists_eq_add_one.2 (Nat.zero_lt_of_lt hfuel)
      have hlt := length_lt_of_skip htext
      rw [body?]
      simp only [htext]
      exact ih fuel (by omega)
  | directive htext hopens _ ih =>
      obtain ⟨fuel, rfl⟩ := Nat.exists_eq_add_one.2 (Nat.zero_lt_of_lt hfuel)
      have hlt := length_lt_of_skip htext
      have hafter := (hopens.suffix.trans (skip_suffix _ _)).length_le
      rw [body?]
      simp only [htext, opening?_eq_some_iff.2 hopens]
      exact ih fuel (by omega)
  | group htext hopens hinner _ ihinner ih =>
      obtain ⟨fuel, rfl⟩ := Nat.exists_eq_add_one.2 (Nat.zero_lt_of_lt hfuel)
      have hlt := length_lt_of_skip htext
      have hcontent := (hopens.suffix.trans (skip_suffix _ _)).length_le
      have hafter := (hinner.suffix.trans (skip_suffix _ _)).length_le
      rw [List.length_cons] at hafter
      rw [body?]
      simp only [htext, opening?_eq_some_iff.2 hopens, ihinner fuel (by omega)]
      exact ih fuel (by omega)
  | repetition htext hoperator hrepetition _ ih =>
      obtain ⟨fuel, rfl⟩ := Nat.exists_eq_add_one.2 (Nat.zero_lt_of_lt hfuel)
      have hlt := length_lt_of_skip htext
      have hafter := (repetition?_leaves hrepetition).length_lt
      rw [List.length_cons] at hafter
      rw [body?]
      simp only [htext]
      split
      · next heq => cases heq
      · next heq =>
          obtain ⟨rfl, rfl⟩ := List.cons.inj heq
          cases hoperator
      · next heq =>
          obtain ⟨rfl, rfl⟩ := List.cons.inj heq
          cases hoperator
      · next heq =>
          obtain ⟨rfl, rfl⟩ := List.cons.inj heq
          cases hoperator
      · next heq =>
          obtain ⟨rfl, rfl⟩ := List.cons.inj heq
          simp only [hoperator, if_true, hrepetition]
          exact ih fuel (by omega)
  | atom htext hplain hoperator hatom _ ih =>
      obtain ⟨fuel, rfl⟩ := Nat.exists_eq_add_one.2 (Nat.zero_lt_of_lt hfuel)
      have hlt := length_lt_of_skip htext
      have hafter := (atom?_leaves hatom).length_lt
      rw [List.length_cons] at hafter
      rw [body?]
      simp only [htext]
      split
      · next heq => cases heq
      · next heq =>
          obtain ⟨rfl, rfl⟩ := List.cons.inj heq
          exact absurd (by simp) hplain
      · next heq =>
          obtain ⟨rfl, rfl⟩ := List.cons.inj heq
          exact absurd (by simp) hplain
      · next heq =>
          obtain ⟨rfl, rfl⟩ := List.cons.inj heq
          exact absurd (by simp) hplain
      · next heq =>
          obtain ⟨rfl, rfl⟩ := List.cons.inj heq
          simp only [hoperator, Bool.false_eq_true, if_false, hatom]
          exact ih fuel (by omega)

/-- Reading the text as a pattern gives the result, and leaves the rest. -/
def ReadsText (engine : Engine) (text : List Char) (result : Pattern) (rest : List Char) : Prop :=
  ∃ names, Reads engine { } [] [] [] text result names rest

theorem ofText?_eq_some_iff {engine : Engine} {text : String} {pattern : Pattern} :
    ofText? engine text = some pattern ↔ ReadsText engine text.toList pattern [] := by
  have hfuel : text.toList.length < text.length + 1 := by
    rw [String.length_toList]
    exact Nat.lt_succ_self _
  constructor
  · intro h
    unfold ofText? at h
    split at h
    · next names hbody =>
        obtain rfl := Option.some.inj h
        exact ⟨names, reads_of_body? hbody⟩
    · cases h
  · rintro ⟨names, h⟩
    unfold ofText?
    rw [h.body?_eq _ hfuel]

end Pattern

end ResponseModel

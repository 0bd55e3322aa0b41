import ResponseModel.Proofs.PatternGrammar

/-!
# Patterns inside a group

A text that stands before a closing parenthesis, with some `tail` after it.  A reader that leaves
the parenthesis alone reads the text in the same way when it ends there: the lemmas named
`of_append` say so for each reader, from the flags of a group up to alternatives (`Reads.of_append`,
the main statement), and those named `append` say what a reader does that cannot stop elsewhere.

Three places look further than they read.  A comment can go on past the parenthesis, but then it
swallows all of a tail on one line, and nothing is left to close the group (`skip_append`).  The
escape of a boundary refuses a brace at the end of a text, where it leaves one before a parenthesis
to a repetition; but that is none either (`boundary?_of_append`, `not_reads_brace`).  And whether a
minus inside brackets makes a range is decided by what follows it, but the bracket that closes the
class still comes before the parenthesis (`endsRange_append`).
-/

namespace ResponseModel

namespace Pattern

section Enclosed

variable {tail text left rest : List Char} {c : Char} {engine : Engine} {flags : Flags}

/-! ## Texts before a parenthesis -/

theorem not_append_suffix : ¬left ++ ')' :: tail <:+ tail := by
  intro h
  have hlength := h.length_le
  simp only [List.length_append, List.length_cons] at hlength
  omega

/-- What is left by a reader that stops before the parenthesis. -/
theorem exists_append_of_suffix (h : left ++ ')' :: tail <:+ rest) :
    ∃ more, rest = more ++ ')' :: tail := by
  obtain ⟨before, rfl⟩ := h
  exact ⟨before ++ left, (List.append_assoc before left _).symm⟩

/-- A character before a rest that goes on to the parenthesis belongs to the enclosed text. -/
theorem exists_cons_of_append (h : text ++ ')' :: tail = c :: rest)
    (hleft : left ++ ')' :: tail <:+ rest) :
    ∃ more, text = c :: more ∧ rest = more ++ ')' :: tail := by
  cases text with
  | nil =>
      obtain ⟨-, rfl⟩ := List.cons.inj h
      exact absurd hleft not_append_suffix
  | cons first more =>
      obtain ⟨rfl, rfl⟩ := List.cons.inj h
      exact ⟨more, rfl, rfl⟩

theorem exists_cons_of_ne (h : text ++ ')' :: tail = c :: rest) (hc : c ≠ ')') :
    ∃ more, text = c :: more ∧ rest = more ++ ')' :: tail := by
  cases text with
  | nil => exact absurd (List.cons.inj h).1.symm hc
  | cons first more =>
      obtain ⟨rfl, rfl⟩ := List.cons.inj h
      exact ⟨more, rfl, rfl⟩

theorem suffix_of_cons {first : Char} {after : List Char} (h : c :: rest <:+ first :: after) :
    rest <:+ after := by
  rcases List.suffix_cons_iff.1 h with heq | h
  · exact (List.cons.inj heq).2 ▸ List.suffix_refl rest
  · exact (List.suffix_cons c rest).trans h

theorem cons_of_leaves (h : Leaves (text ++ ')' :: tail) (left ++ ')' :: tail)) :
    ∃ c more, text = c :: more := by
  obtain ⟨c, after, heq, hleft⟩ := h
  obtain ⟨more, rfl, -⟩ := exists_cons_of_append heq hleft
  exact ⟨c, more, rfl⟩

/-! ## Characters that pass a test -/

theorem dropWhile_append_of_not {test : Char → Bool} (htest : test ')' = false) :
    (text ++ ')' :: tail).dropWhile test = text.dropWhile test ++ ')' :: tail := by
  rw [List.dropWhile_append, List.dropWhile_cons_of_neg (by simp [htest])]
  split
  · next h => rw [List.isEmpty_iff.1 h, List.nil_append]
  · rfl

/-- Where the characters that pass the test end within a text, they end there if it goes on. -/
theorem span_append_of_cons {test : Char → Bool} {taken : List Char}
    (h : text.span test = (taken, c :: rest)) (more : List Char) :
    (text ++ more).span test = (taken, c :: (rest ++ more)) := by
  rw [List.span_eq_takeWhile_dropWhile, Prod.mk.injEq] at h
  obtain ⟨htaken, hrest⟩ := h
  have hsplit := List.takeWhile_append_dropWhile (p := test) (l := text)
  rw [hrest] at hsplit
  have hlength : (text.takeWhile test).length ≠ text.length := by
    intro heq
    have hsplit := congrArg List.length hsplit
    rw [List.length_append, heq, List.length_cons] at hsplit
    omega
  rw [List.span_eq_takeWhile_dropWhile, List.takeWhile_append, List.dropWhile_append,
    if_neg hlength, hrest, htaken]
  rfl

/-- Where the characters that pass the test end within the enclosed text, what follows it does not
count. -/
theorem span_of_append {test : Char → Bool} {taken : List Char}
    (h : (text ++ ')' :: tail).span test = (taken, c :: rest))
    (hleft : left ++ ')' :: tail <:+ rest) :
    ∃ more, text.span test = (taken, c :: more) ∧ rest = more ++ ')' :: tail := by
  have hrest : (text ++ ')' :: tail).dropWhile test = c :: rest := by
    rw [List.span_eq_takeWhile_dropWhile] at h
    exact (Prod.mk.inj h).2
  rw [List.dropWhile_append] at hrest
  split at hrest
  · have hsuffix := hrest ▸ List.dropWhile_suffix (l := ')' :: tail) test
    rcases List.suffix_cons_iff.1 hsuffix with heq | hsuffix
    · obtain ⟨-, rfl⟩ := List.cons.inj heq
      exact absurd hleft not_append_suffix
    · exact absurd (hleft.trans ((List.suffix_cons _ _).trans hsuffix)) not_append_suffix
  · obtain ⟨more, heq, rfl⟩ := exists_cons_of_append hrest hleft
    have hspan : text.span test = (text.takeWhile test, c :: more) := by
      rw [List.span_eq_takeWhile_dropWhile, heq]
    have htaken := (Prod.mk.inj ((span_append_of_cons hspan _).symm.trans h)).1
    exact ⟨more, htaken ▸ hspan, rfl⟩

/-! ## Flags -/

theorem readFlags?_of_append {seen : List Char} {on : Bool} {flags' : Flags} {last : Char}
    {any : Bool} (h : readFlags? seen on flags (text ++ ')' :: tail) =
      some (flags', last, any, left ++ ')' :: tail)) :
    readFlags? seen on flags text = some (flags', last, any, left) := by
  induction text generalizing seen on flags with
  | nil =>
      obtain ⟨_, _, hnil⟩ := cons_of_leaves (readFlags?_leaves h)
      cases hnil
  | cons c rest ih =>
      rw [List.cons_append, readFlags?] at h
      rw [readFlags?]
      split at h
      · next hlast =>
          rw [if_pos hlast]
          split at h
          · cases h
          · next hminus =>
              rw [if_neg hminus]
              simpa using h
      · next hlast =>
          rw [if_neg hlast]
          split at h
          · cases h
          · next hseen =>
              rw [if_neg hseen]
              split at h
              · next hoff => rw [if_pos hoff, ih h]
              · next hoff =>
                  obtain ⟨inner, hset, h⟩ := Option.bind_eq_some_iff.1 h
                  rw [if_neg hoff, hset, Option.bind_some, ih h]

/-! ## Names of ASCII classes -/

theorem asciiName?_of_append {set : CharSet}
    (h : asciiName? (text ++ ')' :: tail) = some (set, left ++ ')' :: tail)) :
    asciiName? text = some (set, left) := by
  unfold asciiName? at h
  split at h
  · next name after hspan =>
      obtain ⟨found, hfound, hpair⟩ := Option.map_eq_some_iff.1 h
      obtain ⟨rfl, rfl⟩ := Prod.mk.inj hpair
      obtain ⟨more, hmore, heq⟩ := span_of_append hspan (List.suffix_cons _ _)
      obtain ⟨more', rfl, heq'⟩ := exists_cons_of_ne heq.symm (by decide)
      obtain rfl := List.append_cancel_right heq'
      rw [asciiName?, hmore]
      simp only [hfound, Option.map_some]
  · cases h

theorem asciiName?_append {set : CharSet} (h : asciiName? text = some (set, left))
    (more : List Char) : asciiName? (text ++ more) = some (set, left ++ more) := by
  unfold asciiName? at h
  split at h
  · next name after hspan =>
      obtain ⟨found, hfound, hpair⟩ := Option.map_eq_some_iff.1 h
      obtain ⟨rfl, rfl⟩ := Prod.mk.inj hpair
      rw [asciiName?, span_append_of_cons hspan more]
      simp only [List.cons_append, hfound, Option.map_some]
  · cases h

theorem asciiSign_append : asciiSign (text ++ ')' :: tail) =
    ((asciiSign text).1, (asciiSign text).2 ++ ')' :: tail) := by
  cases text with
  | nil => rfl
  | cons c rest => by_cases hc : c = '^' <;> simp [asciiSign, hc]

theorem asciiClass?_of_append {negated : Bool} {set : CharSet}
    (h : asciiClass? (text ++ ')' :: tail) = some (negated, set, left ++ ')' :: tail)) :
    asciiClass? text = some (negated, set, left) := by
  obtain ⟨after, heq, hsign, hname⟩ := asciiClass?_eq_some_iff.1 h
  obtain ⟨more, rfl, rfl⟩ := exists_cons_of_ne heq (by decide)
  rw [asciiSign_append] at hsign hname
  exact asciiClass?_eq_some_iff.2 ⟨more, rfl, hsign, asciiName?_of_append hname⟩

theorem asciiClass?_eq_none_of_append (h : asciiClass? (text ++ ')' :: tail) = none) :
    asciiClass? text = none := by
  rw [Option.eq_none_iff_forall_ne_some]
  rintro ⟨negated, set, left⟩ hsome
  obtain ⟨after, rfl, -, hname⟩ := asciiClass?_eq_some_iff.1 hsome
  rw [List.cons_append, asciiClass?_colon, asciiSign_append, asciiName?_append hname] at h
  cases h

/-! ## Openings of groups -/

theorem groupName?_of_append {name : String}
    (h : groupName? engine (text ++ ')' :: tail) = some (name, left ++ ')' :: tail)) :
    groupName? engine text = some (name, left) := by
  unfold groupName? at h
  split at h
  · next first others last after hspan =>
      split at h
      · next hname =>
          obtain ⟨rfl, rfl⟩ := Prod.mk.inj (Option.some.inj h)
          obtain ⟨more, hmore, heq⟩ := span_of_append hspan (List.suffix_refl _)
          rw [groupName?, hmore]
          simp only [hname, if_true, List.append_cancel_right heq]
      · cases h
  · cases h

theorem Opens.of_append {names : List String} {opening : Opening}
    (h : Opens engine flags names (text ++ ')' :: tail) opening (left ++ ')' :: tail)) :
    Opens engine flags names text opening left := by
  generalize hwhole : text ++ ')' :: tail = whole at h
  generalize hleft : left ++ ')' :: tail = rest at h
  cases h with
  | named htext hname hnew =>
      subst hleft
      obtain ⟨start, rfl⟩ := exists_append_of_suffix (groupName?_suffix hname)
      refine .named ?_ (groupName?_of_append hname) hnew
      rcases htext with rfl | ⟨rfl, hbehind, hnotBehind⟩
      · left
        exact List.append_cancel_right (hwhole.trans rfl)
      · refine .inr ⟨List.append_cancel_right (hwhole.trans rfl), fun hhead => hbehind ?_,
          fun hhead => hnotBehind ?_⟩
        · rw [List.head?_append, hhead]
          rfl
        · rw [List.head?_append, hhead]
          rfl
  | flagged hflags =>
      subst hleft
      obtain ⟨start, rfl, rfl⟩ := exists_cons_of_ne hwhole (by decide)
      exact .flagged (readFlags?_of_append hflags)
  | directive hlast hflags =>
      subst hleft
      obtain ⟨start, rfl, rfl⟩ := exists_cons_of_ne hwhole (by decide)
      exact .directive hlast (readFlags?_of_append hflags)
  | plain hplain =>
      obtain rfl := List.append_cancel_right (hwhole.trans hleft.symm)
      refine .plain fun rest heq => hplain (rest ++ ')' :: tail) ?_
      rw [← hwhole, heq]
      rfl

/-! ## Blanks -/

theorem skipBlanks_nil (flags : Flags) (fuel : Nat) : skipBlanks flags fuel [] = [] := by
  cases fuel <;> rfl

theorem dropComment_eq_nil (h : '\n' ∉ text) : dropComment text = [] := by
  fun_induction dropComment text with
  | case1 => rfl
  | case2 => simp at h
  | case3 c rest _ ih => exact ih fun hrest => h (List.mem_cons_of_mem c hrest)

theorem leadingDashes_of_ne {set : CharSet} (fuel : Nat) (h : ∀ rest, text ≠ '-' :: rest) :
    leadingDashes flags fuel set text = (set, text) := by
  unfold leadingDashes
  split
  · exact absurd rfl (h _)
  · rfl

section OneLine

variable (hline : '\n' ∉ tail)
include hline

/-- A comment ends within the enclosed text, or it does not end. -/
theorem dropComment_append (text : List Char) :
    dropComment (text ++ ')' :: tail) = dropComment text ++ ')' :: tail ∨
      dropComment (text ++ ')' :: tail) = [] := by
  induction text with
  | nil => exact .inr (dropComment_eq_nil (by simpa using hline))
  | cons c rest ih =>
      rw [List.cons_append, dropComment, dropComment]
      split
      · exact .inl rfl
      · exact ih

theorem skipBlanks_append (fuel fuel' : Nat) (hfuel : (text ++ ')' :: tail).length ≤ fuel)
    (hfuel' : text.length ≤ fuel') :
    skipBlanks flags fuel (text ++ ')' :: tail) = skipBlanks flags fuel' text ++ ')' :: tail ∨
      skipBlanks flags fuel (text ++ ')' :: tail) = [] := by
  induction fuel generalizing fuel' text with
  | zero => simp at hfuel
  | succ fuel ih =>
      cases text with
      | nil =>
          left
          rw [skipBlanks_nil, List.nil_append, skipBlanks, if_neg, if_neg]
          · simp
          · simp [show Text.isSpaceChar ')' = false by decide]
      | cons c rest =>
          rw [List.length_append, List.length_cons] at hfuel
          rw [List.length_cons] at hfuel'
          obtain ⟨fuel', rfl⟩ := Nat.exists_eq_add_one.2 (Nat.zero_lt_of_lt hfuel')
          rw [List.cons_append, skipBlanks, skipBlanks]
          split
          · exact ih fuel' (by rw [List.length_append]; omega) (by omega)
          · split
            · have hle := (dropComment_suffix rest).length_le
              rcases dropComment_append hline rest with heq | heq
              · rw [heq]
                exact ih fuel' (by rw [List.length_append]; omega) (by omega)
              · rw [heq]
                exact .inr (skipBlanks_nil flags fuel)
            · exact .inl rfl

/-- Blanks end within the enclosed text, or a comment goes on to the end. -/
theorem skip_append (flags : Flags) (text : List Char) :
    skip flags (text ++ ')' :: tail) = skip flags text ++ ')' :: tail ∨
      skip flags (text ++ ')' :: tail) = [] :=
  skipBlanks_append hline _ _ (Nat.le_refl _) (Nat.le_refl _)

theorem skip_append_of_cons (h : skip flags (text ++ ')' :: tail) = c :: rest) :
    skip flags text ++ ')' :: tail = c :: rest := by
  rcases skip_append hline flags text with heq | heq
  · exact heq ▸ h
  · cases heq.symm.trans h

theorem skip_append_of_suffix (h : left ++ ')' :: tail <:+ skip flags (text ++ ')' :: tail)) :
    skip flags (text ++ ')' :: tail) = skip flags text ++ ')' :: tail := by
  rcases skip_append hline flags text with heq | heq
  · exact heq
  · rw [heq] at h
    simp at h

theorem exists_skip_of_ne (h : skip flags (text ++ ')' :: tail) = c :: rest) (hc : c ≠ ')') :
    ∃ more, skip flags text = c :: more ∧ rest = more ++ ')' :: tail :=
  exists_cons_of_ne (skip_append_of_cons hline h) hc

theorem exists_skip_of_suffix (h : skip flags (text ++ ')' :: tail) = c :: rest)
    (hleft : left ++ ')' :: tail <:+ rest) :
    ∃ more, skip flags text = c :: more ∧ rest = more ++ ')' :: tail :=
  exists_cons_of_append (skip_append_of_cons hline h) hleft

/-! ## Runs of characters -/

/-- Where the characters that pass a test end within the enclosed text, what follows it does not
count. -/
theorem readWhile_of_append {test : Char → Bool} {taken : List Char} (fuel fuel' : Nat)
    (hfuel : (text ++ ')' :: tail).length ≤ fuel) (hfuel' : text.length ≤ fuel')
    (h : readWhile flags test fuel (text ++ ')' :: tail) = (taken, c :: rest))
    (hleft : left ++ ')' :: tail <:+ rest) :
    ∃ more, readWhile flags test fuel' text = (taken, c :: more) ∧ rest = more ++ ')' :: tail := by
  induction fuel generalizing fuel' text taken with
  | zero => simp at hfuel
  | succ fuel ih =>
      cases text with
      | nil =>
          have hsuffix := readWhile_suffix flags test (fuel + 1) (')' :: tail)
          rw [← List.nil_append (')' :: tail), h] at hsuffix
          exact absurd (hleft.trans (suffix_of_cons hsuffix)) not_append_suffix
      | cons first text =>
          rw [List.length_append, List.length_cons] at hfuel
          rw [List.length_cons] at hfuel'
          obtain ⟨fuel', rfl⟩ := Nat.exists_eq_add_one.2 (Nat.zero_lt_of_lt hfuel')
          rw [List.cons_append, readWhile] at h
          rw [readWhile]
          split at h
          · next hfirst =>
              obtain ⟨rfl, hrest⟩ := Prod.mk.inj h
              have hafter := readWhile_suffix flags test fuel (skip flags (text ++ ')' :: tail))
              rw [hrest] at hafter
              have hskip := skip_append_of_suffix hline
                ((hleft.trans (List.suffix_cons c rest)).trans hafter)
              have hle := (skip_suffix flags text).length_le
              rw [hskip] at hrest ⊢
              obtain ⟨more, hmore, rfl⟩ := ih fuel' (by rw [List.length_append]; omega) (by omega)
                (Prod.ext rfl hrest)
              exact ⟨more, by rw [if_pos hfirst, hmore], rfl⟩
          · next hfirst =>
              obtain ⟨rfl, heq⟩ := Prod.mk.inj h
              obtain ⟨rfl, rfl⟩ := List.cons.inj heq
              exact ⟨text, by rw [if_neg hfirst], rfl⟩

theorem run_of_append {test : Char → Bool} {taken : List Char}
    (h : run flags test (text ++ ')' :: tail) = (taken, c :: rest))
    (hleft : left ++ ')' :: tail <:+ rest) :
    ∃ more, run flags test text = (taken, c :: more) ∧ rest = more ++ ')' :: tail :=
  readWhile_of_append hline _ _ (Nat.le_refl _) (Nat.le_refl _) h hleft

theorem readCount?_of_append {n : Nat} {taken : List Char}
    (h : readCount? flags n (text ++ ')' :: tail) = some (taken, left ++ ')' :: tail)) :
    readCount? flags n text = some (taken, left) := by
  induction n generalizing text taken with
  | zero =>
      obtain ⟨rfl, heq⟩ := Prod.mk.inj (Option.some.inj h)
      rw [List.append_cancel_right heq]
      rfl
  | succ n ih =>
      cases text with
      | nil =>
          obtain ⟨_, hafter, hpair⟩ := Option.map_eq_some_iff.1 h
          obtain ⟨-, hleft⟩ := Prod.mk.inj hpair
          exact absurd (hleft ▸ (readCount?_suffix hafter).trans (skip_suffix flags tail))
            not_append_suffix
      | cons first text =>
          rw [List.cons_append, readCount?] at h
          obtain ⟨⟨others, _⟩, hafter, hpair⟩ := Option.map_eq_some_iff.1 h
          obtain ⟨rfl, rfl⟩ := Prod.mk.inj hpair
          rw [skip_append_of_suffix hline (readCount?_suffix hafter)] at hafter
          rw [readCount?, ih hafter]
          rfl

theorem braced?_of_append {inner : List Char}
    (h : braced? flags (text ++ ')' :: tail) = some (inner, left ++ ')' :: tail)) :
    braced? flags text = some (inner, left) := by
  obtain ⟨c, hrun⟩ := braced?_eq_some_iff.1 h
  rw [skip_append_of_suffix hline ((List.suffix_cons _ _).trans (run_suffix hrun))] at hrun
  obtain ⟨more, hmore, heq⟩ := run_of_append hline hrun (List.suffix_refl _)
  rw [List.append_cancel_right heq]
  exact braced?_eq_some_iff.2 ⟨c, hmore⟩

/-! ## Escapes -/

theorem ReadsPoint.of_append {width : Nat}
    (h : ReadsPoint flags width (text ++ ')' :: tail) c (left ++ ')' :: tail)) :
    ReadsPoint flags width text c left := by
  generalize hwhole : text ++ ')' :: tail = whole at h
  generalize hleft : left ++ ')' :: tail = rest at h
  cases h with
  | braced hbraced hpoint =>
      subst hleft
      obtain ⟨more, rfl, rfl⟩ := exists_cons_of_ne hwhole (by decide)
      exact .braced (braced?_of_append hline hbraced) hpoint
  | fixed hbrace hcount hpoint hbyte =>
      subst hwhole hleft
      refine .fixed (fun more heq => hbrace (more ++ ')' :: tail) ?_)
        (readCount?_of_append hline hcount) hpoint hbyte
      rw [heq, List.cons_append]

theorem ReadsQuery.of_append {query : ClassQuery}
    (h : ReadsQuery flags (text ++ ')' :: tail) query (left ++ ')' :: tail)) :
    ReadsQuery flags text query left := by
  generalize hwhole : text ++ ')' :: tail = whole at h
  generalize hleft : left ++ ')' :: tail = rest at h
  cases h with
  | braced hbraced =>
      subst hleft
      obtain ⟨more, rfl, rfl⟩ := exists_cons_of_ne hwhole (by decide)
      exact .braced (braced?_of_append hline hbraced)
  | letter hbrace hslash =>
      subst hleft
      obtain ⟨more, rfl, heq⟩ := exists_cons_of_append hwhole (List.suffix_refl _)
      rw [List.append_cancel_right heq]
      exact .letter hbrace hslash

/-- A brace at the end of the enclosed text is taken for the start of a repetition by the reader of
boundaries only because the parenthesis follows. -/
theorem boundary?_of_append {e : Escape}
    (h : boundary? flags (text ++ ')' :: tail) = some (e, left ++ ')' :: tail)) :
    boundary? flags text = some (e, left) ∨
      (∃ test, e = .anchor test) ∧ ∃ blanks, left = '\x7b' :: blanks ∧ skip flags blanks = [] := by
  unfold boundary? at h
  split at h
  · next after hafter =>
      obtain ⟨more, rfl, rfl⟩ := exists_cons_of_ne hafter (by decide)
      split at h
      · cases h
      · next start hstart hrun =>
          obtain ⟨rfl, hleft⟩ := Prod.mk.inj (Option.some.inj h)
          obtain rfl : '\x7b' :: more = left := List.append_cancel_right hleft
          by_cases hblanks : skip flags more = []
          · exact .inr ⟨⟨_, rfl⟩, more, rfl, hblanks⟩
          · obtain ⟨first, others, hfirst⟩ := List.exists_cons_of_ne_nil hblanks
            left
            have hother : isBoundaryChar first = false := by
              rcases skip_append hline flags more with heq | heq
              · rw [heq, hfirst] at hrun
                by_contra hpasses
                exact run_fst_ne_nil (Bool.not_eq_false _ ▸ hpasses) _ (congrArg Prod.fst hrun)
              · rw [heq] at hrun
                exact absurd (congrArg Prod.snd hrun).symm hstart
            rw [boundary?, hfirst, run_eq_of_not hother]
      · next name after' hname hrun =>
          obtain ⟨test, htest, heq⟩ := Option.map_eq_some_iff.1 h
          obtain ⟨rfl, rfl⟩ := Prod.mk.inj heq
          rw [skip_append_of_suffix hline ((List.suffix_cons _ _).trans (run_suffix hrun))] at hrun
          obtain ⟨more', hmore', heq'⟩ := run_of_append hline hrun (List.suffix_refl _)
          obtain rfl := List.append_cancel_right heq'
          left
          rw [boundary?, hmore']
          cases name with
          | nil => exact absurd rfl hname
          | cons first others => simp only [htest, Option.map_some]
      · cases h
  · next hbrace =>
      obtain ⟨rfl, hleft⟩ := Prod.mk.inj (Option.some.inj h)
      obtain rfl := List.append_cancel_right hleft
      left
      unfold boundary?
      split
      · exact absurd rfl (hbrace _)
      · rfl

theorem escape?_of_append {e : Escape}
    (h : escape? engine flags (text ++ ')' :: tail) = some (e, left ++ ')' :: tail)) :
    escape? engine flags text = some (e, left) ∨
      (∃ test, e = .anchor test) ∧ ∃ blanks, left = '\x7b' :: blanks ∧ skip flags blanks = [] := by
  obtain ⟨c, rest, rfl⟩ := cons_of_leaves (escape?_leaves h)
  rw [List.cons_append] at h
  rcases escape?_cons engine flags c with ⟨width, heq⟩ | ⟨negated, heq⟩ | heq | ⟨found, heq⟩
  · rw [heq] at h
    obtain ⟨⟨d, _⟩, hpoint, hpair⟩ := Option.map_eq_some_iff.1 h
    obtain ⟨rfl, rfl⟩ := Prod.mk.inj hpair
    have hpoint := codePoint?_eq_some_iff.1 hpoint
    rw [skip_append_of_suffix hline hpoint.suffix] at hpoint
    rw [heq, codePoint?_eq_some_iff.2 (hpoint.of_append hline)]
    exact .inl rfl
  · rw [heq] at h ⊢
    obtain ⟨query, set, hquery, hknown, hset, rfl⟩ := unicodeClass?_eq_some_iff.1 h
    rw [skip_append_of_suffix hline hquery.suffix] at hquery
    exact .inl (unicodeClass?_eq_some_iff.2
      ⟨query, set, hquery.of_append hline, hknown, hset, rfl⟩)
  · rw [heq] at h ⊢
    exact boundary?_of_append hline h
  · rw [heq] at h ⊢
    obtain ⟨_, hfound, hpair⟩ := Option.map_eq_some_iff.1 h
    obtain ⟨rfl, hleft⟩ := Prod.mk.inj hpair
    rw [hfound, List.append_cancel_right hleft]
    exact .inl rfl

theorem classItem?_of_append {item : Escape}
    (h : classItem? engine flags (text ++ ')' :: tail) = some (item, left ++ ')' :: tail))
    (hitem : ∀ test, item ≠ .anchor test) : classItem? engine flags text = some (item, left) := by
  obtain ⟨c, rest, rfl⟩ := cons_of_leaves (classItem?_leaves h)
  rw [List.cons_append] at h
  unfold classItem? at h ⊢
  split at h
  · next heq => cases heq
  · next heq =>
      obtain ⟨rfl, rfl⟩ := List.cons.inj heq
      exact (escape?_of_append hline h).resolve_right fun hanchor =>
        hitem _ hanchor.1.choose_spec
  · next hescape heq =>
      obtain ⟨rfl, rfl⟩ := List.cons.inj heq
      obtain ⟨rfl, hleft⟩ := Prod.mk.inj (Option.some.inj h)
      obtain rfl := List.append_cancel_right hleft
      split
      · next heq => cases heq
      · next heq => exact absurd (List.cons.inj heq).1 hescape
      · next heq =>
          obtain ⟨rfl, rfl⟩ := List.cons.inj heq
          rfl

/-! ## Repetitions -/

theorem count?_of_append {n : Nat} (h : count? flags (text ++ ')' :: tail) = some (n, c :: rest))
    (hleft : left ++ ')' :: tail <:+ rest) :
    ∃ more, count? flags text = some (n, c :: more) ∧ rest = more ++ ')' :: tail := by
  obtain ⟨digits, after, hdigits, hne, hvalue, hlt, hblanks⟩ := count?_eq_some_iff.1 h
  have hafter := readWhile_suffix flags Text.isSpaceChar after.length after
  rw [← run, ← hblanks] at hafter
  cases after with
  | nil => simp at hafter
  | cons first after =>
      rw [dropWhile_append_of_not (by decide)] at hdigits
      obtain ⟨more, hmore, rfl⟩ :=
        run_of_append hline hdigits (hleft.trans (suffix_of_cons hafter))
      rw [← List.cons_append] at hblanks
      obtain ⟨more', hmore', rfl⟩ := run_of_append hline (Prod.ext rfl hblanks.symm) hleft
      exact ⟨more', count?_eq_some_iff.2
        ⟨digits, first :: more, hmore, hne, hvalue, hlt, by rw [hmore']⟩, rfl⟩

theorem ReadsBounds.of_append {least : Nat} {most : Option Nat}
    (h : ReadsBounds flags (text ++ ')' :: tail) least most (left ++ ')' :: tail)) :
    ReadsBounds flags text least most left := by
  generalize hwhole : text ++ ')' :: tail = whole at h
  generalize hleft : left ++ ')' :: tail = rest at h
  cases h with
  | exactly hcount =>
      subst hwhole hleft
      obtain ⟨more, hcount, heq⟩ := count?_of_append hline hcount (List.suffix_refl _)
      rw [List.append_cancel_right heq]
      exact .exactly hcount
  | @atLeast after _ _ hcount hclose =>
      subst hwhole hleft
      have hafter : '\x7d' :: (left ++ ')' :: tail) <:+ after := hclose ▸ skip_suffix flags after
      obtain ⟨more, hleast, rfl⟩ :=
        count?_of_append hline hcount ((List.suffix_cons _ _).trans hafter)
      obtain ⟨more', hmore', heq⟩ := exists_skip_of_ne hline hclose (by decide)
      rw [List.append_cancel_right heq]
      exact .atLeast hleast hmore'
  | between hcount hcount' hle =>
      subst hwhole hleft
      have hafter := (List.suffix_cons _ _).trans (count?_suffix hcount')
      obtain ⟨more, hleast, rfl⟩ :=
        count?_of_append hline hcount (hafter.trans (skip_suffix flags _))
      rw [skip_append_of_suffix hline hafter] at hcount'
      obtain ⟨more', hmost, heq⟩ := count?_of_append hline hcount' (List.suffix_refl _)
      rw [List.append_cancel_right heq]
      exact .between hleast hmost hle

omit hline in
theorem dropLazy_append : dropLazy (text ++ ')' :: tail) = dropLazy text ++ ')' :: tail := by
  cases text with
  | nil => rfl
  | cons c rest => by_cases hc : c = '?' <;> simp [dropLazy, hc]

theorem repetition?_of_append {least : Nat} {most : Option Nat}
    (h : repetition? flags (text ++ ')' :: tail) = some (least, most, left ++ ')' :: tail)) :
    repetition? flags text = some (least, most, left) := by
  obtain ⟨c, rest, rfl⟩ := cons_of_leaves (repetition?_leaves h)
  rw [List.cons_append] at h
  rcases repetition?_cons flags c with heq | ⟨_, _, -, heq⟩ | heq
  · rw [heq] at h
    obtain ⟨⟨_, _, after⟩, hbounds, hpair⟩ := Option.map_eq_some_iff.1 h
    simp only [Prod.mk.injEq] at hpair
    obtain ⟨rfl, rfl, hleft⟩ := hpair
    have hbounds := bounds?_eq_some_iff.1 hbounds
    have hsuffix : left ++ ')' :: tail <:+ skip flags after := hleft ▸ dropLazy_suffix _
    obtain ⟨more, rfl⟩ := exists_append_of_suffix (hsuffix.trans (skip_suffix flags after))
    rw [skip_append_of_suffix hline hsuffix, dropLazy_append] at hleft
    rw [skip_append_of_suffix hline hbounds.suffix] at hbounds
    rw [heq, bounds?_eq_some_iff.2 (hbounds.of_append hline), Option.map_some,
      List.append_cancel_right hleft]
  · rw [heq, dropLazy_append] at h
    simp only [Option.some.injEq, Prod.mk.injEq] at h
    obtain ⟨rfl, rfl, hleft⟩ := h
    rw [heq, List.append_cancel_right hleft]
  · cases (heq _).symm.trans h

/-! ## Classes -/

theorem classSign_append (h : left ++ ')' :: tail <:+ (classSign flags (text ++ ')' :: tail)).2) :
    classSign flags (text ++ ')' :: tail) =
      ((classSign flags text).1, (classSign flags text).2 ++ ')' :: tail) := by
  unfold classSign at h ⊢
  split at h
  · next after hsign =>
      obtain ⟨more, heq, rfl⟩ := exists_skip_of_ne hline hsign (by decide)
      simp only [heq, skip_append_of_suffix hline h]
  · next hsign =>
      rw [skip_append_of_suffix hline h] at hsign ⊢
      split
      · next heq => exact absurd (congrArg (· ++ ')' :: tail) heq) (hsign _)
      · rfl

theorem leadingDashes_append {set : CharSet} (fuel fuel' : Nat)
    (hfuel : (text ++ ')' :: tail).length ≤ fuel) (hfuel' : text.length ≤ fuel')
    (h : left ++ ')' :: tail <:+ (leadingDashes flags fuel set (text ++ ')' :: tail)).2) :
    leadingDashes flags fuel set (text ++ ')' :: tail) =
      ((leadingDashes flags fuel' set text).1,
        (leadingDashes flags fuel' set text).2 ++ ')' :: tail) := by
  induction fuel generalizing fuel' set text with
  | zero => simp at hfuel
  | succ fuel ih =>
      by_cases hdash : ∃ rest, text = '-' :: rest
      · obtain ⟨rest, rfl⟩ := hdash
        rw [List.length_append, List.length_cons] at hfuel
        rw [List.length_cons] at hfuel'
        obtain ⟨fuel', rfl⟩ := Nat.exists_eq_add_one.2 (Nat.zero_lt_of_lt hfuel')
        have hle := (skip_suffix flags rest).length_le
        rw [List.cons_append, leadingDashes] at h
        have hskip := skip_append_of_suffix hline (h.trans (leadingDashes_suffix flags fuel _ _))
        rw [hskip] at h
        rw [List.cons_append, leadingDashes, leadingDashes, hskip]
        exact ih fuel' (by rw [List.length_append]; omega) (by omega) h
      · rw [leadingDashes_of_ne fuel' fun rest heq => hdash ⟨rest, heq⟩, leadingDashes_of_ne]
        intro rest heq
        obtain ⟨more, rfl, -⟩ := exists_cons_of_ne heq (by decide)
        exact hdash ⟨more, rfl⟩

theorem leadingBracket_append {set : CharSet}
    (h : left ++ ')' :: tail <:+ (leadingBracket flags (set, text ++ ')' :: tail)).2) :
    leadingBracket flags (set, text ++ ')' :: tail) =
      ((leadingBracket flags (set, text)).1,
        (leadingBracket flags (set, text)).2 ++ ')' :: tail) := by
  unfold leadingBracket at h
  split at h
  · next heq =>
      obtain ⟨rfl, hclose⟩ := Prod.mk.inj heq
      obtain ⟨more, rfl, rfl⟩ := exists_cons_of_ne hclose (by decide)
      rw [List.cons_append, leadingBracket, leadingBracket, skip_append_of_suffix hline h]
  · next hother =>
      unfold leadingBracket
      split
      · next heq => exact absurd heq (hother _)
      · split
        · next heq =>
            obtain ⟨rfl, rfl⟩ := Prod.mk.inj heq
            exact absurd rfl (hother _)
        · rfl

theorem classStart_append
    (h : left ++ ')' :: tail <:+ (classStart flags (text ++ ')' :: tail)).2.2) :
    classStart flags (text ++ ')' :: tail) =
      ((classStart flags text).1, (classStart flags text).2.1,
        (classStart flags text).2.2 ++ ')' :: tail) := by
  rw [classStart_eq] at h
  have hsign := classSign_append hline (h.trans (classFront_suffix flags _))
  rw [hsign, classFront] at h
  have hdashes := leadingDashes_append hline _ (classSign flags text).2.length (Nat.le_refl _)
    (Nat.le_refl _) (h.trans (leadingBracket_suffix flags _))
  rw [hdashes] at h
  rw [classStart_eq, classStart_eq, hsign, classFront, hdashes, leadingBracket_append hline h]
  rfl

omit hline in
theorem peekBlanks_append (commented : Bool) (text : List Char) :
    peekBlanks commented (text ++ ')' :: tail) = (peekBlanks commented text).or (some ')') := by
  induction text generalizing commented with
  | nil => simp [peekBlanks, show Text.isSpaceChar ')' = false by decide]
  | cons c rest ih =>
      rw [List.cons_append, peekBlanks, peekBlanks]
      split
      · exact ih commented
      · split
        · exact ih true
        · rfl

omit hline in
/-- A text that is all blanks does not start like the end of a class or an operator. -/
theorem head?_of_peekBlanks_eq_none {commented : Bool} (h : peekBlanks commented text = none) :
    text.head? ≠ some ']' ∧ text.head? ≠ some '-' := by
  cases text with
  | nil => simp
  | cons c rest =>
      have hother {d : Char} (hspace : Text.isSpaceChar d = false) (hmark : d ≠ '#') : c ≠ d := by
        rintro rfl
        simp [peekBlanks, hspace, hmark] at h
      simp [hother (d := ']') (by decide) (by decide), hother (d := '-') (by decide) (by decide)]

omit hline in
/-- The parenthesis neither ends a class nor makes an operator. -/
theorem endsRange_append : endsRange flags (text ++ ')' :: tail) = endsRange flags text := by
  have hhead : (text ++ ')' :: tail).head? = text.head?.or (some ')') := by cases text <;> rfl
  unfold endsRange peek
  split
  · rw [peekBlanks_append]
    cases hpeek : peekBlanks false text with
    | none =>
        obtain ⟨hclose, hminus⟩ := head?_of_peekBlanks_eq_none hpeek
        simp [hclose, hminus]
    | some c => rfl
  · rw [hhead]
    cases text.head? <;> rfl

/-- An item that is not the last of the enclosed text. -/
theorem ReadsRange.of_append {set : CharSet}
    (h : ReadsRange engine flags (text ++ ')' :: tail) set (left ++ ')' :: tail))
    (hleft : left ≠ []) : ReadsRange engine flags text set left := by
  generalize hwhole : text ++ ')' :: tail = whole at h
  generalize hrest : left ++ ')' :: tail = rest at h
  cases h with
  | @item after item _ hitem hset hne hminus =>
      subst hwhole
      obtain ⟨more, rfl⟩ := exists_append_of_suffix (hrest ▸ skip_suffix flags after)
      have hself : left ++ ')' :: tail <:+ skip flags (more ++ ')' :: tail) :=
        hrest ▸ List.suffix_refl _
      have hskip := skip_append_of_suffix hline hself
      obtain rfl : left = skip flags more := List.append_cancel_right (hrest.trans hskip)
      have hanchor : ∀ test, item ≠ .anchor test := by
        rintro test rfl
        cases hset
      refine .item (classItem?_of_append hline hitem hanchor) hset hleft fun next hnext => ?_
      rw [hnext] at hskip
      exact endsRange_append.symm.trans (hminus (next ++ ')' :: tail) hskip)
  | @range after more _ first last _ hitem hminus hends hlast hset =>
      subst hwhole hrest
      have hmore := (classItem?_leaves hlast).suffix
      have hafter : '-' :: more <:+ after := hminus ▸ skip_suffix flags after
      obtain ⟨after, rfl⟩ := exists_append_of_suffix
        (((hmore.trans (skip_suffix flags more)).trans (List.suffix_cons _ _)).trans hafter)
      obtain ⟨more', hmore', rfl⟩ := exists_skip_of_ne hline hminus (by decide)
      rw [skip_append_of_suffix hline hmore] at hlast
      have hchars : (∀ test, first ≠ .anchor test) ∧ ∀ test, last ≠ .anchor test := by
        cases first <;> cases last <;> simp [charRange?] at hset ⊢
      exact .range (classItem?_of_append hline hitem hchars.1) hmore'
        (endsRange_append.symm.trans hends) (classItem?_of_append hline hlast hchars.2) hset

theorem ReadsClass.of_append {negated : Bool} {set result : CharSet}
    {pending : Option (SetOp × CharSet)}
    (h : ReadsClass engine flags negated set pending (text ++ ')' :: tail) result
      (left ++ ')' :: tail)) :
    ReadsClass engine flags negated set pending text result left := by
  generalize hwhole : text ++ ')' :: tail = whole at h
  generalize hleft : left ++ ')' :: tail = rest at h
  induction h generalizing text left with
  | close htext hclose =>
      subst hwhole hleft
      obtain ⟨more, hmore, heq⟩ := exists_skip_of_ne hline htext (by decide)
      obtain rfl := List.append_cancel_right heq
      exact .close hmore hclose
  | operator op htext hafter ih =>
      subst hwhole hleft
      have hsuffix := hafter.leaves.suffix
      obtain ⟨more, hmore, heq⟩ :=
        exists_skip_of_suffix hline htext (hsuffix.trans (List.suffix_cons _ _))
      obtain ⟨after, rfl, rfl⟩ := exists_cons_of_append heq.symm hsuffix
      exact .operator op hmore (ih rfl rfl)
  | named htext hname hmembers hafter ih =>
      subst hwhole hleft
      obtain ⟨start, hstart, rfl⟩ := exists_skip_of_ne hline htext (by decide)
      obtain ⟨after, rfl⟩ := exists_append_of_suffix hafter.leaves.suffix
      exact .named hstart (asciiClass?_of_append hname) hmembers (ih rfl rfl)
  | nested htext hname hinner hafter ihinner ih =>
      subst hwhole hleft
      obtain ⟨start, hstart, rfl⟩ := exists_skip_of_ne hline htext (by decide)
      obtain ⟨after, rfl⟩ := exists_append_of_suffix hafter.leaves.suffix
      have hfront := classStart_append hline hinner.leaves.suffix
      rw [hfront] at ihinner
      exact .nested hstart (asciiClass?_eq_none_of_append hname) (ihinner rfl rfl) (ih rfl rfl)
  | item htext hclose hopen hop hitem hafter ih =>
      subst hwhole hleft
      obtain ⟨after, rfl⟩ := exists_append_of_suffix hafter.leaves.suffix
      obtain ⟨start, hstart, rfl⟩ := exists_skip_of_suffix hline htext hitem.leaves.of_cons
      -- the bracket that closes the class comes after the item, and before the parenthesis
      have hne : after ≠ [] := by
        obtain ⟨_, _, rfl⟩ := cons_of_leaves hafter.leaves
        exact List.cons_ne_nil _ _
      refine .item hstart hclose hopen ?_ (hitem.of_append hline hne) (ih rfl rfl)
      intro op more heq
      exact hop op (more ++ ')' :: tail) (congrArg (· ++ ')' :: tail) heq)

theorem class?_of_append {set : CharSet}
    (h : class? engine flags (text ++ ')' :: tail) = some (set, left ++ ')' :: tail)) :
    class? engine flags text = some (set, left) := by
  rw [class?_eq_some_iff] at h ⊢
  rw [classStart_append hline h.leaves.suffix] at h
  exact h.of_append hline

/-! ## Patterns -/

/-- Only the escape of a boundary looks at what follows it. -/
theorem atom?_of_append {pattern : Pattern}
    (h : atom? engine flags (text ++ ')' :: tail) = some (pattern, left ++ ')' :: tail)) :
    atom? engine flags text = some (pattern, left) ∨
      ∃ blanks, left = '\x7b' :: blanks ∧ skip flags blanks = [] := by
  obtain ⟨c, rest, rfl⟩ := cons_of_leaves (atom?_leaves h)
  rw [List.cons_append] at h
  rcases atom?_cons engine flags c with heq | heq | ⟨found, heq⟩
  · rw [heq] at h
    obtain ⟨⟨e, _⟩, hescape, hpair⟩ := Option.map_eq_some_iff.1 h
    obtain ⟨rfl, rfl⟩ := Prod.mk.inj hpair
    refine (escape?_of_append hline hescape).imp (fun hread => ?_) fun hread => hread.2
    rw [heq, hread]
    rfl
  · rw [heq] at h
    obtain ⟨⟨set, _⟩, hclass, hpair⟩ := Option.map_eq_some_iff.1 h
    obtain ⟨rfl, rfl⟩ := Prod.mk.inj hpair
    left
    rw [heq, class?_of_append hline hclass]
    rfl
  · rw [heq] at h
    obtain ⟨_, hfound, hpair⟩ := Option.map_eq_some_iff.1 h
    obtain ⟨rfl, hleft⟩ := Prod.mk.inj hpair
    left
    rw [heq, hfound, List.append_cancel_right hleft]
    rfl

omit hline in
theorem count?_parenthesis (flags : Flags) (tail : List Char) :
    count? flags (')' :: tail) = none := by
  rw [count?, List.dropWhile_cons_of_neg (by decide), run_eq_of_not (by decide)]

/-- A brace with nothing but blanks between it and the parenthesis is no repetition. -/
theorem not_reads_brace {names names' : List String} {branches : List Pattern}
    {pieces : List (Option Pattern)} {result : Pattern} {blanks : List Char}
    (hblanks : skip flags blanks = []) :
    ¬Reads engine flags names branches pieces ('\x7b' :: (blanks ++ ')' :: tail)) result names'
      rest := by
  have hskip (more : List Char) : skip flags ('\x7b' :: more) = '\x7b' :: more := by
    rw [skip, List.length_cons, skipBlanks, if_neg, if_neg]
    · simp
    · simp [show Text.isSpaceChar '\x7b' = false by decide]
  have hbounds : bounds? flags (blanks ++ ')' :: tail) = none := by
    rw [bounds?]
    rcases skip_append hline flags blanks with heq | heq
    · rw [heq, hblanks, List.nil_append, count?_parenthesis]
      rfl
    · rw [heq]
      rfl
  intro h
  cases h with
  | finish htext => simp [hskip] at htext
  | close htext => simp [hskip] at htext
  | branch htext => simp [hskip] at htext
  | directive htext => simp [hskip] at htext
  | group htext => simp [hskip] at htext
  | repetition htext _ hrepetition =>
      obtain ⟨rfl, rfl⟩ := List.cons.inj ((hskip _).symm.trans htext)
      rw [repetition?, hbounds] at hrepetition
      cases hrepetition
  | atom htext _ hoperator =>
      obtain ⟨rfl, rfl⟩ := List.cons.inj ((hskip _).symm.trans htext)
      cases hoperator

/-- Alternatives that are read up to the parenthesis, or to one before it, are read in the same way
when the text ends there. -/
theorem Reads.of_append {names names' : List String} {branches : List Pattern}
    {pieces : List (Option Pattern)} {result : Pattern}
    (h : Reads engine flags names branches pieces (text ++ ')' :: tail) result names'
      (left ++ ')' :: tail)) :
    Reads engine flags names branches pieces text result names' left := by
  generalize hwhole : text ++ ')' :: tail = whole at h
  generalize hleft : left ++ ')' :: tail = rest at h
  induction h generalizing text left with
  | finish => simp at hleft
  | close htext =>
      subst hwhole
      have hskip := (skip_append_of_cons hline htext).trans hleft.symm
      obtain hskip := List.append_cancel_right hskip
      cases left with
      | nil => exact .finish hskip
      | cons c more =>
          obtain ⟨rfl, -⟩ := List.cons.inj hleft
          exact .close hskip
  | branch htext hafter ih =>
      subst hwhole hleft
      obtain ⟨after, hmore, rfl⟩ := exists_skip_of_ne hline htext (by decide)
      exact .branch hmore (ih rfl rfl)
  | directive htext hopens hafter ih =>
      subst hwhole hleft
      obtain ⟨start, hstart, rfl⟩ := exists_skip_of_ne hline htext (by decide)
      obtain ⟨after, rfl⟩ := exists_append_of_suffix (hafter.suffix.trans (skip_suffix _ _))
      rw [skip_append_of_suffix hline hopens.suffix] at hopens
      exact .directive hstart hopens.of_append (ih rfl rfl)
  | group htext hopens hinner hafter ihinner ih =>
      subst hwhole hleft
      obtain ⟨start, hstart, rfl⟩ := exists_skip_of_ne hline htext (by decide)
      obtain ⟨after, rfl⟩ := exists_append_of_suffix (hafter.suffix.trans (skip_suffix _ _))
      rw [← List.cons_append] at hinner ihinner
      obtain ⟨content, rfl⟩ := exists_append_of_suffix (hinner.suffix.trans (skip_suffix _ _))
      rw [skip_append_of_suffix hline hopens.suffix] at hopens
      exact .group hstart hopens.of_append (ihinner rfl rfl) (ih rfl rfl)
  | repetition htext hoperator hrepetition hafter ih =>
      subst hwhole hleft
      obtain ⟨after, rfl⟩ := exists_append_of_suffix (hafter.suffix.trans (skip_suffix _ _))
      obtain ⟨start, hstart, rfl⟩ :=
        exists_skip_of_suffix hline htext (repetition?_leaves hrepetition).of_cons
      exact .repetition hstart hoperator (repetition?_of_append hline hrepetition) (ih rfl rfl)
  | atom htext hplain hoperator hatom hafter ih =>
      subst hwhole hleft
      obtain ⟨after, rfl⟩ := exists_append_of_suffix (hafter.suffix.trans (skip_suffix _ _))
      obtain ⟨start, hstart, rfl⟩ :=
        exists_skip_of_suffix hline htext (atom?_leaves hatom).of_cons
      rw [← List.cons_append] at hatom
      rcases atom?_of_append hline hatom with hread | ⟨blanks, rfl, hblanks⟩
      · exact .atom hstart hplain hoperator hread (ih rfl rfl)
      · exact absurd hafter (not_reads_brace hline hblanks)

end OneLine

end Enclosed

end Pattern

end ResponseModel

import Mathlib.Data.List.Induction
import ResponseModel.Path
import ResponseModel.TypeRef

/-!
# The text of a path

A path is written as `file:Root`, followed by one piece `.response{A, B}<Type>` for each step.  The
file name may be any text, with colons, dots and braces in it, so the text cannot be read from its
start.  It can be read from its end: a root ends in a letter and a step in `>`, and no delimiter
occurs in a name, so the last step is cut off by the last `<`, the last brace before it and the last
dot before that (`Element.append_text_inj`), and what is left once all steps are gone splits at its
last colon (`heading_inj`).
-/

namespace ResponseModel

/-! ## Names -/

/-- Whether the characters are a name of GraphQL: a letter or an underscore, followed by letters,
digits and underscores. -/
def spellsName : List Char → Bool
  | [] => false
  | first :: rest => (first.isAlpha || first == '_') && rest.all TypeRef.isNameChar

/-- A name that GraphQL allows. -/
def IsName (name : Name) : Prop := spellsName name.toList = true

instance : DecidablePred IsName := fun name =>
  inferInstanceAs (Decidable (spellsName name.toList = true))

namespace IsName

variable {name : Name}

theorem ne_nil (h : IsName name) : name.toList ≠ [] := by
  intro hnil
  rw [IsName, hnil] at h
  simp [spellsName] at h

theorem isNameChar (h : IsName name) {c : Char} (hc : c ∈ name.toList) :
    TypeRef.isNameChar c = true := by
  rw [IsName] at h
  cases hchars : name.toList with
  | nil => simp [hchars] at hc
  | cons first rest =>
      rw [hchars, spellsName, Bool.and_eq_true, List.all_eq_true] at h
      rw [hchars, List.mem_cons] at hc
      rcases hc with rfl | hc
      · have hfirst := h.1
        simp only [TypeRef.isNameChar, Char.isAlphanum, Bool.or_eq_true] at hfirst ⊢
        exact hfirst.imp_left .inl
      · exact h.2 c hc

/-- A delimiter does not occur in a name. -/
theorem notMem (h : IsName name) {c : Char} (hc : TypeRef.isNameChar c = false) :
    c ∉ name.toList := by
  intro hmem
  rw [h.isNameChar hmem] at hc
  exact Bool.noConfusion hc

end IsName

/-! ## Cutting at a delimiter -/

/-- A text is cut in one way only at the first place where the delimiter occurs. -/
theorem append_cons_inj_of_first {c : Char} {front front' back back' : List Char}
    (hfront : c ∉ front) (hfront' : c ∉ front') (h : front ++ c :: back = front' ++ c :: back') :
    front = front' ∧ back = back' := by
  induction front generalizing front' with
  | nil =>
      cases front' with
      | nil => exact ⟨rfl, (List.cons.inj h).2⟩
      | cons d rest' =>
          have hd : c = d := (List.cons.inj h).1
          simp [hd] at hfront'
  | cons d rest ih =>
      cases front' with
      | nil =>
          have hd : d = c := (List.cons.inj h).1
          simp [hd] at hfront
      | cons d' rest' =>
          obtain ⟨rfl, hrest⟩ := List.cons.inj h
          obtain ⟨rfl, hback⟩ := ih (List.not_mem_of_not_mem_cons hfront)
            (List.not_mem_of_not_mem_cons hfront') hrest
          exact ⟨rfl, hback⟩

/-- A text is cut in one way only at the last place where the delimiter occurs. -/
theorem append_cons_inj_of_last {c : Char} {front front' back back' : List Char}
    (hback : c ∉ back) (hback' : c ∉ back') (h : front ++ c :: back = front' ++ c :: back') :
    front = front' ∧ back = back' := by
  have hreverse : back.reverse ++ c :: front.reverse = back'.reverse ++ c :: front'.reverse := by
    simpa using congrArg List.reverse h
  obtain ⟨hbacks, hfronts⟩ :=
    append_cons_inj_of_first (by simpa using hback) (by simpa using hback') hreverse
  exact ⟨List.reverse_inj.1 hfronts, List.reverse_inj.1 hbacks⟩

/-! ## Type sets -/

namespace TypeSet

/-- The members with commas between them, as characters. -/
def memberChars (names : List Name) : List Char := [',', ' '].intercalate (names.map String.toList)

theorem toList_text (set : TypeSet) :
    set.text.toList = '\x7b' :: (memberChars set.names ++ ['\x7d']) := by
  simp [text, memberChars, String.toList_append, String.toList_intercalate]

@[simp] theorem memberChars_nil : memberChars [] = [] := rfl

@[simp] theorem memberChars_singleton (name : Name) : memberChars [name] = name.toList := by
  simp [memberChars]

@[simp] theorem memberChars_cons_cons (name next : Name) (rest : List Name) :
    memberChars (name :: next :: rest) =
      name.toList ++ ',' :: ' ' :: memberChars (next :: rest) := by
  simp [memberChars]

/-- No delimiter but the comma and the blank occurs between the braces. -/
theorem notMem_memberChars {names : List Name} (hnames : ∀ name ∈ names, IsName name) {c : Char}
    (hc : TypeRef.isNameChar c = false) (hcomma : c ≠ ',') (hblank : c ≠ ' ') :
    c ∉ memberChars names := by
  induction names with
  | nil => simp
  | cons name rest ih =>
      have hname : c ∉ name.toList := (hnames name List.mem_cons_self).notMem hc
      cases rest with
      | nil => simpa using hname
      | cons next rest =>
          have hrest := ih fun other hother => hnames other (List.mem_cons_of_mem _ hother)
          simp [hname, hcomma, hblank, hrest]

theorem memberChars_cons_ne_nil {name : Name} {rest : List Name} (hname : IsName name) :
    memberChars (name :: rest) ≠ [] := by
  cases rest with
  | nil => simpa using hname.ne_nil
  | cons next rest => simp

/-- The members can be read off their text. -/
theorem memberChars_inj {names names' : List Name} (hnames : ∀ name ∈ names, IsName name)
    (hnames' : ∀ name ∈ names', IsName name) (h : memberChars names = memberChars names') :
    names = names' := by
  induction names generalizing names' with
  | nil =>
      cases names' with
      | nil => rfl
      | cons name' rest' =>
          exact absurd h.symm (memberChars_cons_ne_nil (hnames' name' List.mem_cons_self))
  | cons name rest ih =>
      have hcomma : ',' ∉ name.toList := (hnames name List.mem_cons_self).notMem rfl
      cases names' with
      | nil => exact absurd h (memberChars_cons_ne_nil (hnames name List.mem_cons_self))
      | cons name' rest' =>
          have hcomma' : ',' ∉ name'.toList := (hnames' name' List.mem_cons_self).notMem rfl
          -- a comma follows the first member exactly if there is a second one
          cases rest with
          | nil =>
              cases rest' with
              | nil =>
                  rw [memberChars_singleton, memberChars_singleton, String.toList_inj] at h
                  rw [h]
              | cons next' rest' =>
                  rw [memberChars_singleton, memberChars_cons_cons] at h
                  exact absurd (h ▸ by simp) hcomma
          | cons next rest =>
              cases rest' with
              | nil =>
                  rw [memberChars_singleton, memberChars_cons_cons] at h
                  exact absurd (h ▸ by simp) hcomma'
              | cons next' rest' =>
                  rw [memberChars_cons_cons, memberChars_cons_cons] at h
                  obtain ⟨hname, hrest⟩ := append_cons_inj_of_first hcomma hcomma' h
                  have htail := ih
                    (fun other hother => hnames other (List.mem_cons_of_mem _ hother))
                    (fun other hother => hnames' other (List.mem_cons_of_mem _ hother))
                    (List.cons.inj hrest).2
                  rw [String.toList_inj.1 hname, htail]

end TypeSet

/-! ## Steps -/

namespace Path

/-- The names of a step are names that GraphQL allows. -/
structure Element.Named (element : Element) : Prop where
  responseName : IsName element.responseName
  fieldType : IsName element.fieldType
  typeSet : ∀ name ∈ element.typeSet.names, IsName name

namespace Element

variable {element element' : Element}

instance : DecidablePred Named := fun element =>
  decidable_of_iff (IsName element.responseName ∧ IsName element.fieldType ∧
      ∀ name ∈ element.typeSet.names, IsName name)
    ⟨fun h => ⟨h.1, h.2.1, h.2.2⟩, fun h => ⟨h.responseName, h.fieldType, h.typeSet⟩⟩

theorem append_toList_text (front : List Char) (element : Element) :
    front ++ element.text.toList =
      front ++ '.' :: element.responseName.toList ++
        '\x7b' :: (TypeSet.memberChars element.typeSet.names ++ ['\x7d']) ++
        '<' :: (element.fieldType.toList ++ ['>']) := by
  simp [text, String.toList_append, TypeSet.toList_text]

/-- The last step of a text can be read off, whatever stands in front of it. -/
theorem append_text_inj (h : element.Named) (h' : element'.Named) {front front' : List Char}
    (heq : front ++ element.text.toList = front' ++ element'.text.toList) :
    front = front' ∧ element = element' := by
  -- the field type stands after the last angle bracket that opens
  have hangle : ∀ {name : Name}, IsName name → '<' ∉ name.toList ++ ['>'] := by
    intro name hname
    simpa using hname.notMem rfl
  rw [append_toList_text, append_toList_text] at heq
  obtain ⟨hhead, htype⟩ := append_cons_inj_of_last (hangle h.fieldType) (hangle h'.fieldType) heq
  -- the type set stands after the last brace that opens before it
  have hbrace : ∀ {names : List Name}, (∀ name ∈ names, IsName name) →
      '\x7b' ∉ TypeSet.memberChars names ++ ['\x7d'] := by
    intro names hnames
    simpa using TypeSet.notMem_memberChars hnames rfl (by decide) (by decide)
  obtain ⟨hstart, hset⟩ := append_cons_inj_of_last (hbrace h.typeSet) (hbrace h'.typeSet) hhead
  -- and the response name after the last dot before that
  obtain ⟨hfront, hresponse⟩ := append_cons_inj_of_last (h.responseName.notMem rfl)
    (h'.responseName.notMem rfl) hstart
  have hnames := TypeSet.memberChars_inj h.typeSet h'.typeSet (List.append_cancel_right hset)
  obtain ⟨⟨names⟩, fieldType, responseName⟩ := element
  obtain ⟨⟨names'⟩, fieldType', responseName'⟩ := element'
  refine ⟨hfront, ?_⟩
  rw [Element.mk.injEq, TypeSet.mk.injEq]
  exact ⟨hnames, String.toList_inj.1 (List.append_cancel_right htype),
    String.toList_inj.1 hresponse⟩

end Element

/-! ## Whole paths -/

/-- All names in a path are names that GraphQL allows. -/
def Named (path : Path) : Prop := ∀ element ∈ path.elements, element.Named

instance : DecidablePred Named := fun path =>
  inferInstanceAs (Decidable (∀ element ∈ path.elements, element.Named))

/-- What stands in front of the steps, as characters. -/
def heading (fileName : String) (root : Root) : List Char :=
  fileName.toList ++ ':' :: root.text.toList

/-- The steps, as characters. -/
def stepChars (elements : List Element) : List Char :=
  elements.flatMap fun element => element.text.toList

@[simp] theorem stepChars_nil : stepChars [] = [] := rfl

theorem stepChars_concat (elements : List Element) (last : Element) :
    stepChars (elements ++ [last]) = stepChars elements ++ last.text.toList := by
  simp [stepChars]

theorem toList_text (path : Path) :
    path.text.toList = heading path.fileName path.root ++ stepChars path.elements := by
  simp [text, heading, stepChars, String.toList_append, String.toList_join, List.flatMap_map]

theorem Root.text_injective : Function.Injective Root.text := by
  intro root root' h
  cases root <;> cases root' <;> simp [text] at h ⊢

theorem heading_inj {fileName fileName' : String} {root root' : Root}
    (h : heading fileName root = heading fileName' root') :
    fileName = fileName' ∧ root = root' := by
  have hcolon : ∀ root : Root, ':' ∉ root.text.toList := by
    intro root
    cases root <;> decide
  obtain ⟨hfile, hroot⟩ := append_cons_inj_of_last (hcolon root) (hcolon root') h
  exact ⟨String.toList_inj.1 hfile, Root.text_injective (String.toList_inj.1 hroot)⟩

/-- A root ends in a letter, a step does not. -/
theorem heading_ne_append_text (fileName : String) (root : Root) (front : List Char)
    (element : Element) : heading fileName root ≠ front ++ element.text.toList := by
  intro h
  have hlast := congrArg List.getLast? h
  have hstep : (front ++ element.text.toList).getLast? = some '>' := by
    simp [Element.append_toList_text, List.getLast?_append, List.getLast?_cons]
  rw [hstep, heading] at hlast
  cases root <;> simp [Root.text, List.getLast?_append] at hlast

theorem heading_append_stepChars_inj {fileName fileName' : String} {root root' : Root}
    {elements elements' : List Element} (h : ∀ element ∈ elements, element.Named)
    (h' : ∀ element ∈ elements', element.Named)
    (heq : heading fileName root ++ stepChars elements =
      heading fileName' root' ++ stepChars elements') :
    (fileName = fileName' ∧ root = root') ∧ elements = elements' := by
  -- from the end: the text shows whether there is a last step, and which
  induction elements using List.reverseRecOn generalizing elements' with
  | nil =>
      rw [stepChars_nil, List.append_nil] at heq
      cases elements' using List.reverseRecOn with
      | nil =>
          rw [stepChars_nil, List.append_nil] at heq
          exact ⟨heading_inj heq, rfl⟩
      | append_singleton rest' last' =>
          rw [stepChars_concat, ← List.append_assoc] at heq
          exact absurd heq (heading_ne_append_text _ _ _ _)
  | append_singleton rest last ih =>
      rw [stepChars_concat, ← List.append_assoc] at heq
      cases elements' using List.reverseRecOn with
      | nil =>
          rw [stepChars_nil, List.append_nil] at heq
          exact absurd heq.symm (heading_ne_append_text _ _ _ _)
      | append_singleton rest' last' =>
          rw [stepChars_concat, ← List.append_assoc] at heq
          obtain ⟨hfront, hlast⟩ :=
            Element.append_text_inj (h last (by simp)) (h' last' (by simp)) heq
          obtain ⟨hheading, hrest⟩ := ih
            (fun element helement => h element (List.mem_append_left _ helement))
            (fun element helement => h' element (List.mem_append_left _ helement)) hfront
          exact ⟨hheading, by rw [hrest, hlast]⟩

/-- **The text of a path determines the path**, whatever its file name is and however many steps it
has. -/
theorem eq_of_text_eq {path path' : Path} (h : path.Named) (h' : path'.Named)
    (htext : path.text = path'.text) : path = path' := by
  have heq := congrArg String.toList htext
  rw [toList_text, toList_text] at heq
  obtain ⟨⟨hfile, hroot⟩, helements⟩ := heading_append_stepChars_inj h h' heq
  obtain ⟨fileName, root, elements⟩ := path
  obtain ⟨fileName', root', elements'⟩ := path'
  rw [Path.mk.injEq]
  exact ⟨hfile, hroot, helements⟩

namespace Sample

/-- A file name that could be the text of a path itself. -/
def fileName : String := "a:Fragment.pet\x7bCat\x7d<Pet>"

/-- A path whose type set was listed out of order. -/
def listed : Path :=
  ⟨fileName, .operationInterface,
    [⟨.single "Query", "Query", "data"⟩, ⟨.ofList ["Pet", "Cat", "Pet"], "Pet", "_pet1"⟩]⟩

/-- A path made step by step, its type set name by name. -/
def extended : Path :=
  ((atRoot fileName .operationImplementation).append ⟨.single "Query", "Query", "data"⟩).append
    ⟨(TypeSet.single "Pet").insert "Cat", "Pet", "_pet1"⟩ |>.toInterface

theorem listed_eq_extended :
    (listed.Named ∧ extended.Named ∧ listed.text = extended.text) ∧ listed = extended :=
  ⟨⟨by decide +kernel, by decide +kernel, by decide +kernel⟩,
    eq_of_text_eq (by decide +kernel) (by decide +kernel) (by decide +kernel)⟩

end Sample

end Path

end ResponseModel

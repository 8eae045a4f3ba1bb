import FlowAtlas.Extraction.Braced
import FlowAtlas.Extraction.Indented
import FlowAtlas.Proofs.Pattern.Reading

namespace FlowAtlas.Extraction

open Pattern

def IsNameCharacter (c : Char) : Prop := Text.isWord c = true ∨ c = '~'

def IsName (name : String) : Prop := ∀ c ∈ name.toList, IsNameCharacter c

def Declaration.Named : Declaration → Prop
  | .classBody name _ => IsName name
  | .routine name _ _ _ receiver => IsName name ∧ ∀ owner ∈ receiver, IsName owner

theorem isWord_of_isAlpha {c : Char} (alpha : c.isAlpha = true) : Text.isWord c = true := by
  have either : c.isUpper = true ∨ c.isLower = true := Bool.or_eq_true_iff.mp alpha
  have ascii : c.toNat < 128 := by
    rcases either with upper | lower
    · have above : 65 ≤ c.toNat ∧ c.toNat ≤ 90 := of_decide_eq_true upper
      omega
    · have above : c.toNat ≤ 122 := of_decide_eq_true (Bool.and_eq_true_iff.mp lower).2
      omega
  simp [Text.isWord, ascii, Char.isAlphanum, alpha]

theorem nameCharacter_of_nameStart {c : Char} (start : Generic.isNameStart c = true) : IsNameCharacter c := by
  simp only [Generic.isNameStart, Bool.or_eq_true, beq_iff_eq] at start
  rcases start with (alpha | rfl) | rfl
  · exact Or.inl (isWord_of_isAlpha alpha)
  · exact Or.inl (by decide)
  · exact Or.inr rfl

theorem reads_word : word.Reads IsNameCharacter :=
  (each_run1 _).mpr fun _ accepted => Or.inl accepted

theorem reads_typed_name :
    (seq (one Generic.isNameStart) (run Text.isWord)).Reads IsNameCharacter :=
  ⟨fun _ accepted => nameCharacter_of_nameStart accepted, fun _ accepted => Or.inl accepted⟩

theorem subject_marks (fits : (Char → Bool) → Prop) (accepted : fits Text.isWord) :
    subject.Each fits fun label body => label = .subject → body.Reads IsNameCharacter :=
  ⟨fun _ => reads_word, (each_run1 _).mpr accepted⟩

theorem brace_classes_name : ∀ form ∈ Brace.classForms, form.SubjectReads IsNameCharacter := by
  simp [Brace.classForms, SubjectReads, Each, keyword, blanks1, subject_marks]

theorem brace_routines_name :
    ∀ form ∈ Brace.routineForms, form.pattern.SubjectReads IsNameCharacter := by
  simp [Brace.routineForms, Brace.namedFunction, Brace.shorthandMethod, Brace.functionProperty,
    Brace.assignedArrow, Brace.exportedMember, Brace.typeAnnotation, SubjectReads, Each, keyword, keywords,
    blanks, blanks1, Pattern.char, word, parentheses, angleBrackets, subject_marks]

theorem generic_classes_name : ∀ form ∈ Generic.classForms, form.SubjectReads IsNameCharacter := by
  simp [Generic.classForms, Generic.visibility, SubjectReads, Each, keyword, keywords, blanks, blanks1,
    Pattern.char, parentheses, angleBrackets, subject_marks]

theorem generic_routines_name :
    ∀ form ∈ Generic.routineForms, form.pattern.SubjectReads IsNameCharacter := by
  simp [Generic.routineForms, Generic.receiverFunction, Generic.modifiedFunction, Generic.declaredFunction,
    Generic.typedFunction, Generic.bareMethod, Generic.foreignModifier, Generic.visibility,
    Generic.noStatement, SubjectReads, Each, keyword, keywords, blanks, blanks1, Pattern.char, oneOf,
    atLeastOnce, parentheses, angleBrackets, subject_marks, reads_typed_name]

theorem receiver_names : Generic.receiverType.SubjectReads IsNameCharacter := by
  simp [Generic.receiverType, SubjectReads, Each, blanks, blanks1, Pattern.char, word, subject_marks]

theorem indent_classes_name : ∀ form ∈ Indent.classForms, form.SubjectReads IsNameCharacter := by
  simp [Indent.classForms, SubjectReads, Each, keyword, blanks1, subject_marks]

theorem indent_routines_name :
    ∀ form ∈ Indent.routineForms, form.pattern.SubjectReads IsNameCharacter := by
  simp [Indent.routineForms, SubjectReads, Each, keyword, blanks, blanks1, Pattern.char, subject_marks]

theorem declared_search {pattern : Pattern} {code : List Char} {found : Match}
    (declared : declared? pattern code = some found) : pattern.search? code = some found := by
  obtain ⟨matched, searched, kept⟩ := Option.bind_eq_some_iff.mp declared
  split at kept
  · cases kept
  · rwa [Option.some.inj kept] at searched

theorem declared_none {pattern : Pattern} {code : List Char} (absent : pattern.search? code = none) :
    declared? pattern code = none := by
  rw [declared?, absent]
  rfl

theorem declaredClass_search {patterns : List Pattern} {code : List Char} {found : Match}
    (declared : declaredClass? patterns code = some found) :
    ∃ pattern ∈ patterns, pattern.search? code = some found := by
  obtain ⟨pattern, member, matched⟩ := List.exists_of_findSome?_eq_some declared
  exact ⟨pattern, member, declared_search matched⟩

theorem declaredRoutine_search {forms : List RoutineForm} {code : List Char} {form : RoutineForm}
    {found : Match} (declared : declaredRoutine? forms code = some (form, found)) :
    ∃ tried ∈ forms, tried.pattern.search? code = some found := by
  obtain ⟨tried, member, matched⟩ := List.exists_of_findSome?_eq_some declared
  obtain ⟨inner, searched, same⟩ := Option.map_eq_some_iff.mp matched
  rw [(Prod.mk.inj same).2] at searched
  exact ⟨tried, member, declared_search searched⟩

theorem name_of_search {pattern : Pattern} {code : List Char} {found : Match}
    (reads : pattern.SubjectReads IsNameCharacter) (searched : pattern.search? code = some found) :
    IsName (String.ofList found.subject) := by
  intro c member
  rw [String.toList_ofList] at member
  exact search_subject reads searched c member

theorem declaredClass_named {patterns : List Pattern} {code : List Char} {found : Match}
    (reads : ∀ pattern ∈ patterns, pattern.SubjectReads IsNameCharacter)
    (declared : declaredClass? patterns code = some found) : IsName (String.ofList found.subject) := by
  obtain ⟨pattern, member, searched⟩ := declaredClass_search declared
  exact name_of_search (reads pattern member) searched

theorem declaredRoutine_named {forms : List RoutineForm} {code : List Char} {form : RoutineForm}
    {found : Match} (reads : ∀ form ∈ forms, form.pattern.SubjectReads IsNameCharacter)
    (declared : declaredRoutine? forms code = some (form, found)) :
    IsName (String.ofList found.subject) := by
  obtain ⟨tried, member, searched⟩ := declaredRoutine_search declared
  exact name_of_search (reads tried member) searched

theorem routineOf_named (braces : Braces) (code : List Char) (form : RoutineForm) (found : Match)
    (named : IsName (String.ofList found.subject)) : (braces.routineOf code form found).Named := by
  cases braces with
  | literal => exact ⟨named, by simp⟩
  | typed =>
      refine ⟨named, ?_⟩
      intro owner received
      obtain ⟨span, _, received⟩ := Option.bind_eq_some_iff.mp received
      obtain ⟨inner, searched, received⟩ := Option.bind_eq_some_iff.mp received
      rw [← Option.some.inj received]
      exact name_of_search receiver_names searched

theorem braced_named {braces : Braces} {code behind : List Char} {declaration : Declaration}
    (declared : braces.declaration? code = some (declaration, behind)) : declaration.Named := by
  have classes : ∀ form ∈ braces.classForms, form.SubjectReads IsNameCharacter := by
    cases braces
    · exact brace_classes_name
    · exact generic_classes_name
  have routines : ∀ form ∈ braces.routineForms, form.pattern.SubjectReads IsNameCharacter := by
    cases braces
    · exact brace_routines_name
    · exact generic_routines_name
  rw [Braces.declaration?] at declared
  split at declared
  · rename_i found matched
    rw [← (Prod.mk.inj (Option.some.inj declared)).1]
    exact declaredClass_named classes matched
  · obtain ⟨⟨form, found⟩, matched, same⟩ := Option.map_eq_some_iff.mp declared
    rw [← (Prod.mk.inj same).1]
    exact routineOf_named braces code form found (declaredRoutine_named routines matched)

theorem indented_named {code behind : List Char} {indent : Nat} {declaration : Declaration}
    (declared : Indent.declaration? code indent = some (declaration, behind)) : declaration.Named := by
  rw [Indent.declaration?] at declared
  split at declared
  · rename_i found matched
    rw [← (Prod.mk.inj (Option.some.inj declared)).1]
    exact declaredClass_named indent_classes_name matched
  · obtain ⟨⟨form, found⟩, matched, same⟩ := Option.map_eq_some_iff.mp declared
    rw [← (Prod.mk.inj same).1]
    exact ⟨declaredRoutine_named indent_routines_name matched, by simp⟩

theorem colon_notMem_of_isName {name : String} (named : IsName name) : ':' ∉ name.toList := by
  intro member
  rcases named ':' member with word | tilde
  · exact absurd word (by decide)
  · exact absurd tilde (by decide)

end FlowAtlas.Extraction

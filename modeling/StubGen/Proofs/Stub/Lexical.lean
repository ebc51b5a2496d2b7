import StubGen.DeclFile.Module
import StubGen.Proofs.Layout.NestedCode
import StubGen.Proofs.Name.Casing

/-!
# Declaration files over the tokens of TypeScript

A file `IsLexical` if its names are identifiers, and no line break is in its literals, its dotted names and the texts of
names that are no identifiers.  What the output makes of the names and texts of such a file are lines of three kinds.

* `nests_binding` is about a name that is bound, `opens_stub` about a function with its statements in its line, and
  `opens_suite` about the header of a class or function with a suite.
* `IsEmitted` says what names in the output do not look like.
-/

namespace StubGen.DeclFile

/-! ### Tokens -/

/-- Whether a character may be part of an identifier: it is a letter, a digit, a low line or a dollar sign, or it is
beyond ASCII. -/
def isNameChar (c : Char) : Bool := c.isAlphanum || c = '_' || c = '$' || 128 ≤ c.toNat

/-- The text has the characters of an identifier. -/
def IsNameText (name : String) : Prop := name ≠ "" ∧ ∀ c ∈ name.toList, isNameChar c = true

instance (name : String) : Decidable (IsNameText name) :=
  decidable_of_iff (name ≠ "" ∧ name.toList.all isNameChar = true) (and_congr_right fun _ => List.all_eq_true)

def Name.IsLexical : Name → Prop
  | .ident name => IsNameText name
  | .other kind text => Unbroken kind ∧ Unbroken text

def Literal.IsLexical : Literal → Prop
  | .text value => Unbroken value
  | .number digits => Unbroken digits
  | _ => True

mutual

def TypeExpr.IsLexical : TypeExpr → Prop
  | .keyword _ => True
  | .parenthesized inner => inner.IsLexical
  | .function params result => Param.AllLexical params ∧ TypeExpr.OptionLexical result
  | .union items => TypeExpr.AllLexical items
  | .intersection items => TypeExpr.AllLexical items
  | .array element => element.IsLexical
  | .tuple items => TypeExpr.AllLexical items
  | .literal value => value.IsLexical
  | .query name => Unbroken name
  | .members members => Member.AllLexical members
  | .reference name arguments => Unbroken name ∧ TypeExpr.AllLexical arguments
  | .operator _ operand => operand.IsLexical
  | .indexedAccess => True
  | .unsupported _ => True
termination_by structural type => type

def TypeExpr.AllLexical : List TypeExpr → Prop
  | [] => True
  | type :: rest => type.IsLexical ∧ TypeExpr.AllLexical rest
termination_by structural types => types

def TypeExpr.OptionLexical : Option TypeExpr → Prop
  | some type => type.IsLexical
  | none => True
termination_by structural type => type

def Param.IsLexical : Param → Prop
  | .mk name type _ _ => name.IsLexical ∧ TypeExpr.OptionLexical type
termination_by structural param => param

def Param.AllLexical : List Param → Prop
  | [] => True
  | param :: rest => param.IsLexical ∧ Param.AllLexical rest
termination_by structural params => params

def Member.IsLexical : Member → Prop
  | .property name type _ _ _ => name.IsLexical ∧ TypeExpr.OptionLexical type
  | .method name params result => name.IsLexical ∧ Param.AllLexical params ∧ TypeExpr.OptionLexical result
  | .constructor params => Param.AllLexical params
  | .unsupported _ => True
termination_by structural member => member

def Member.AllLexical : List Member → Prop
  | [] => True
  | member :: rest => member.IsLexical ∧ Member.AllLexical rest
termination_by structural members => members

end

def Base.IsLexical (base : Base) : Prop := Unbroken base.name ∧ TypeExpr.AllLexical base.arguments

def ClassDecl.IsLexical (decl : ClassDecl) : Prop :=
  decl.name.IsLexical ∧ (∀ base ∈ decl.heritage.flatten, base.IsLexical) ∧ Member.AllLexical decl.members

def EnumMember.IsLexical (member : EnumMember) : Prop :=
  member.name.IsLexical ∧ ∀ value ∈ member.value, value.IsLexical

def Variable.IsLexical (declared : Variable) : Prop := declared.name.IsLexical ∧ TypeExpr.OptionLexical declared.type

def Statement.IsLexical : Statement → Prop
  | .classDecl decl => decl.IsLexical
  | .interface decl => decl.IsLexical
  | .function name params result => name.IsLexical ∧ Param.AllLexical params ∧ TypeExpr.OptionLexical result
  | .typeAlias name type => name.IsLexical ∧ type.IsLexical
  | .enum name members => name.IsLexical ∧ ∀ member ∈ members, member.IsLexical
  | .variableDecls declared => ∀ item ∈ declared, item.IsLexical
  | .module => True
  | .unsupported _ => True

/-! ### Names in the output -/

/-- The text has no mark of the layout in it and is not reserved. -/
structure IsEmitted (name : String) : Prop where
  notMark : ∀ c ∈ name.toList, c ∉ layoutMarks
  notReserved : name ∉ reservedWords

theorem IsNameText.notMark {name : String} (h : IsNameText name) : ∀ c ∈ name.toList, c ∉ layoutMarks := by
  have hmarks : ∀ mark ∈ layoutMarks, isNameChar mark = false := List.all_iff_forall_prop.mp (by decide)
  intro c hc hmark
  have hname := h.2 c hc
  rw [hmarks c hmark] at hname
  cases hname

theorem IsNameText.unbroken {name : String} (h : IsNameText name) : Unbroken name :=
  fun hmem => h.notMark _ hmem (by decide)

theorem isEmitted_escapeName {name : String} (h : IsNameText name) : IsEmitted (escapeName name) :=
  ⟨fun c hc hmark => h.notMark c (mem_of_mem_escapeName hc hmark) hmark, escapeName_notMem_reservedWords name⟩

theorem isEmitted_snake {name : String} (h : IsNameText name) : IsEmitted (Recased.snake name).name :=
  ⟨fun c hc hmark => h.notMark c (Recased.mem_of_mem_snake hc hmark) hmark, escapeName_notMem_reservedWords _⟩

theorem isEmitted_pascal {name : String} (h : IsNameText name) : IsEmitted (Recased.pascal name).name :=
  ⟨fun c hc hmark => h.notMark c (Recased.mem_of_mem_pascal hc hmark) hmark, escapeName_notMem_reservedWords _⟩

theorem IsEmitted.unbroken {name : String} (h : IsEmitted name) : Unbroken name :=
  fun hmem => h.notMark _ hmem (by decide)

/-- The last part of a dotted name is cased anew, which breaks no line. -/
theorem unbroken_referenceName {name : String} (h : Unbroken name) : Unbroken (referenceName name) := by
  rw [Unbroken, referenceName, String.toList_ofList, List.mem_append]
  rintro (hmem | hmem)
  · exact h (List.mem_of_mem_take hmem)
  · have hlast := List.mem_reverse.mp (mem_of_mem_pascalChars hmem (by decide))
    exact h (List.mem_reverse.mp ((List.takeWhile_prefix _).subset hlast))

/-! ### Lines -/

/-- A text up to the first blank. -/
def firstWord (text : String) : String := String.ofList (text.toList.takeWhile (· ≠ ' '))

/-- A definition begins with a reserved word. -/
theorem firstWord_mem_of_isDefinition {text : String} (h : IsLineText text) (hdefinition : isDefinition text = true) :
    firstWord text ∈ reservedWords := by
  have hwords : ∀ word ∈ definitionWords, ' ' ∈ word.toList ∧ firstWord word ∈ reservedWords := by decide
  obtain ⟨word, hword, hprefix⟩ := List.any_eq_true.mp hdefinition
  obtain ⟨hblank, hreserved⟩ := hwords word hword
  rw [h.bareText_eq, List.isPrefixOf_iff_prefix] at hprefix
  obtain ⟨rest, hrest⟩ := hprefix
  have hlength : (word.toList.takeWhile (· ≠ ' ')).length ≠ word.toList.length := by
    intro hlength
    rw [← (List.takeWhile_prefix _).eq_of_length hlength] at hblank
    simpa using List.mem_takeWhile_imp hblank
  rw [firstWord, ← hrest, List.takeWhile_append, if_neg hlength]
  exact hreserved

section Lines

variable {name sign text : String}

/-- What stands between a name and its type or value.  A name before an equals sign is not empty. -/
def Binds (name sign : String) : Prop := sign = ": " ∨ sign = " = " ∧ name ≠ ""

private theorem head?_binding (h : IsEmitted name) (hsign : Binds name sign) :
    ∀ mark ∈ (name ++ sign).toList.head?, mark ∉ layoutMarks := by
  intro mark hmark
  rw [String.toList_append] at hmark
  cases hname : name.toList with
  | nil =>
    rw [hname, List.nil_append] at hmark
    rcases hsign with rfl | ⟨rfl, hne⟩
    · cases hmark
      decide
    · exact absurd (String.toList_inj.mp hname) hne
  | cons c rest =>
    rw [hname, List.cons_append, List.head?_cons] at hmark
    cases hmark
    exact h.notMark mark (by rw [hname]; exact List.mem_cons_self ..)

private theorem isLineText_binding (h : IsEmitted name) (hsign : Binds name sign) : IsLineText (name ++ sign) := by
  have hshown : isBlankLine sign = false := by rcases hsign with rfl | ⟨rfl, -⟩ <;> decide
  have hunbroken : Unbroken sign := by rcases hsign with rfl | ⟨rfl, -⟩ <;> decide
  refine ⟨?_, fun hblank => head?_binding h hsign _ hblank (by decide), h.unbroken.append hunbroken⟩
  rw [isBlankLine] at hshown ⊢
  rw [String.toList_append, List.all_append, hshown, Bool.and_false]

private theorem firstWord_binding (h : IsEmitted name) (hsign : Binds name sign) (text : String) :
    firstWord (name ++ sign ++ text) ∉ reservedWords := by
  have hname : ∀ c ∈ name.toList, decide (c ≠ ' ') = true := fun c hc => by
    simp only [decide_eq_true_eq]
    rintro rfl
    exact h.notMark _ hc (by decide)
  have hcolon : ∀ word ∈ reservedWords, ':' ∉ word.toList := by decide +kernel
  rw [firstWord, String.toList_append, String.toList_append, List.append_assoc, List.takeWhile_append_of_pos hname]
  rcases hsign with rfl | ⟨rfl, -⟩
  · intro hreserved
    refine hcolon _ hreserved ?_
    rw [String.toList_ofList]
    exact List.mem_append_right _ (List.mem_cons_self ..)
  · have hnone : (" = ".toList ++ text.toList).takeWhile (fun c => decide (c ≠ ' ')) = [] :=
      List.takeWhile_cons_of_neg (by decide)
    rw [hnone, List.append_nil, String.ofList_toList]
    exact h.notReserved

/-- A line that binds a name is a statement, and neither a decorator nor a definition. -/
theorem nests_binding (h : IsEmitted name) (hsign : Binds name sign) (htext : Unbroken text) :
    Code.Nests [.line (name ++ sign ++ text)] ∧ Code.States [.line (name ++ sign ++ text)] := by
  have hstart := isLineText_binding h hsign
  have hline := hstart.append htext
  have hhead : ∀ mark ∈ layoutMarks, (name ++ sign ++ text).toList.head? ≠ some mark := by
    intro mark hmark hhead
    rw [hstart.head?_append] at hhead
    exact head?_binding h hsign mark hhead hmark
  refine ⟨.plain hline ?_ ?_, .line hline (hhead '#' (by decide))⟩
  · rw [isDecorator, hline.bareText_eq]
    exact decide_eq_false (hhead '@' (by decide))
  · rw [Bool.eq_false_iff]
    exact fun hdefinition => firstWord_binding h hsign text (firstWord_mem_of_isDefinition hline hdefinition)

/-- A text that begins with a definition's word is a definition, and one of a function no class. -/
private theorem isDefinition_append {word : String} (h : word ∈ definitionWords) {rest : String}
    (hrest : Unbroken rest) : IsLineText (word ++ rest) ∧ isDefinition (word ++ rest) = true ∧
      isDecorator (word ++ rest) = false ∧ (word ++ rest).toList.head? ≠ some '#' := by
  have hwords : ∀ word ∈ definitionWords, (isBlankLine word = false ∧ word.toList.head? ≠ some ' ' ∧ Unbroken word) ∧
      word.toList.head? ≠ some '@' ∧ word.toList.head? ≠ some '#' := by decide
  obtain ⟨⟨hshown, hmargin, hunbroken⟩, hmark, hcomment⟩ := hwords word h
  have hword : IsLineText word := ⟨hshown, hmargin, hunbroken⟩
  have hline := hword.append hrest
  refine ⟨hline, ?_, ?_, ?_⟩
  · rw [isDefinition, hline.bareText_eq, String.toList_append]
    exact List.any_eq_true.mpr ⟨word, h, List.isPrefixOf_iff_prefix.mpr (List.prefix_append ..)⟩
  · rw [isDecorator, hline.bareText_eq, hword.head?_append]
    exact decide_eq_false hmark
  · rwa [hword.head?_append]

/-- The line of a function with its statements in it. -/
theorem opens_stub {word : String} (hword : word ∈ ["def ", "async def "]) (htext : Unbroken text) :
    Code.Opens [.line (word ++ text ++ ": ...")] ∧ Code.States [.line (word ++ text ++ ": ...")] := by
  have hmem : word ∈ definitionWords := List.mem_cons_of_mem _ hword
  have hending : Unbroken ": ..." := by decide
  have hlast : (word ++ text ++ ": ...").toList.getLast? = some '.' := by
    rw [String.toList_append, List.getLast?_append]
    rfl
  have hclass : "class ".toList.isPrefixOf (word ++ text ++ ": ...").toList = false := by
    rw [String.append_assoc, String.toList_append]
    rcases List.mem_cons.mp hword with rfl | hword
    · rfl
    · rw [List.mem_singleton.mp hword]
      rfl
  rw [String.append_assoc] at hlast hclass ⊢
  obtain ⟨hline, hdefinition, hdecorator, hcomment⟩ := isDefinition_append hmem (htext.append hending)
  refine ⟨.stub hline (trimEnd_eq_self ?_) hdefinition ?_ hdecorator, .line hline hcomment⟩
  · rw [hlast]
    decide
  · rw [isStubHeader, hline.bareText_eq, hclass, endsInColon, hlast]
    simp

/-- The header of a class or of a function, with its suite. -/
theorem opens_suite {word : String} (hword : word ∈ ["class ", "def "]) (htext : Unbroken text) {codes : List Code}
    (hcodes : Code.Nests codes) (hstates : Code.States codes) : Code.Opens [.suite (word ++ text ++ ":") codes] := by
  have hmem : word ∈ definitionWords := by
    rcases List.mem_cons.mp hword with rfl | hword
    · decide
    · rw [List.mem_singleton.mp hword]
      decide
  have hcolon : Unbroken ":" := by decide
  have hlast : (word ++ text ++ ":").toList.getLast? = some ':' := by
    rw [String.toList_append, List.getLast?_append]
    rfl
  rw [String.append_assoc] at hlast ⊢
  obtain ⟨hline, hdefinition, hdecorator, -⟩ := isDefinition_append hmem (htext.append hcolon)
  refine .suite hline (trimEnd_eq_self ?_) ?_ hdecorator hcodes hstates
  · rw [hlast]
    decide
  · rw [isStubHeader, hdefinition, hline.bareText_eq, endsInColon, hlast]
    simp

/-- A decorator above a definition. -/
theorem opens_decorated (htext : Unbroken text) {codes : List Code} (hcodes : Code.Opens codes) :
    Code.Opens (.line ("@" ++ text) :: codes) := by
  have hmark : IsLineText "@" := ⟨by decide, by decide, by decide⟩
  have hline := hmark.append htext
  refine .decorated hline ?_ hcodes
  rw [isDecorator, hline.bareText_eq, hmark.head?_append]
  decide

/-- A comment. -/
theorem nests_comment (htext : Unbroken text) : Code.Nests [.line ("# " ++ text)] := by
  have hmark : IsLineText "# " := ⟨by decide, by decide, by decide⟩
  have hline := hmark.append htext
  refine .plain hline ?_ ?_
  · rw [isDecorator, hline.bareText_eq, hmark.head?_append]
    decide
  · rw [isDefinition, hline.bareText_eq, String.toList_append]
    rfl

end Lines

end StubGen.DeclFile

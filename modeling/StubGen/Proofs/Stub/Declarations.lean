import StubGen.Proofs.Stub.Closure
import StubGen.Proofs.Stub.Scope

/-!
# Declarations of a file

The declarations of a scope are those of the source, in order and with their emitted names.

* `Member.declared?` and `Statement.declared?` give the emitted name of a declaration that can be overloaded.
* `declares_fileParts`: the parts of a file declare what its statements do, and `Block.IsTypeOf.names_eq`: a type that
  has no name declares what its members do.
-/

namespace StubGen.DeclFile

/-- The emitted name of a member that can be overloaded. -/
def Member.declared? : Member → Option String
  | .method (.ident name) .. => some (Recased.snake name).name
  | .constructor _ => some "__init__"
  | _ => none

/-- The emitted name of a statement that can be overloaded. -/
def Statement.declared? : Statement → Option String
  | .function (.ident name) .. => some (Recased.snake name).name
  | _ => none

/-- The emitted names that a class declares in its scope. -/
def ClassDecl.declared (decl : ClassDecl) : List String := decl.members.filterMap Member.declared?

/-- The class or interface of a statement, if it has a name. -/
def Statement.class? : Statement → Option ClassDecl
  | .classDecl decl => if decl.name.ident?.isSome then some decl else none
  | .interface decl => if decl.name.ident?.isSome then some decl else none
  | _ => none

/-- The names of the declarations of a scope. -/
def Entry.names (entries : List Entry) : List String := entries.filterMap Entry.name

/-- The class of a part. -/
def Part.class? : Part → Option ClassCode
  | .entry _ => none
  | .scope decl => some decl

/-- The block is the class that a type with these members becomes. -/
def Block.IsTypeOf (style : Style) (members : List Member) (block : Block) : Prop :=
  block.decl = (classCode style ⟨style.typeName block.number, none⟩ (pure []) true (memberEntries style false members)
    (!members.any Member.isEmitted) block.number).2

section Declarations

variable {style : Style} {Defines : Block → Prop}

private theorem ensures_aliasLines (style : Style) (recased : Recased) :
    (aliasLines style recased).Ensures Defines fun aliases =>
      aliases = [] ∨ ∃ declared, aliases = [.line ("@" ++ aliasText declared)] := by
  unfold aliasLines
  split
  · rename_i declared _
    exact (Stubs.Ensures.use _).map fun _ _ => Or.inr ⟨declared, rfl⟩
  · exact .pure (Or.inl rfl)

private theorem ensures_resultText (h : Hereditary style fun piece => piece.Ensures Defines fun _ => True)
    (type : Option TypeExpr) : (resultText style type).Ensures Defines fun result =>
      result.head ∈ ["def", "async def"] := by
  have hdef : "def" ∈ ["def", "async def"] := by decide
  have hasync : "async def" ∈ ["def", "async def"] := by decide
  unfold resultText
  split
  · split
    · exact (h.typing _).map fun _ _ => hasync
    · exact (h.referenceText _ (h.pure _)).map fun _ _ => hdef
  · rename_i name inner others
    split
    · exact (h.typeText inner).map fun _ _ => hasync
    · exact (h.referenceText name (h.typeTexts (inner :: others))).map fun _ _ => hdef
  · rename_i type _ _
    exact (h.typeText type).map fun _ _ => hdef
  · exact (h.typing _).map fun _ _ => hdef

/-- The stub line of a function is that of its name. -/
private theorem isStub_of_stubLine {name : String} {ahead aliases : List Code} {params : List String} {result : Result}
    (haliases : aliases = [] ∨ ∃ declared, aliases = [.line ("@" ++ aliasText declared)])
    (hresult : result.head ∈ ["def", "async def"]) :
    (⟨some name, ahead, aliases ++ [stubLine name params result]⟩ : Entry).IsStub := by
  rintro _ ⟨⟩
  refine ⟨aliases, result.head, ", ".intercalate params ++ ") -> " ++ result.type ++ ": ...", haliases, hresult, ?_⟩
  simp [stubLine, stubText, String.append_assoc]

/-- A member becomes a declaration of its emitted name. -/
private theorem ensures_memberEntry (h : Hereditary style fun piece => piece.Ensures Defines fun _ => True)
    (separate : Bool) (member : Member) : (memberEntry style separate member).Ensures Defines fun entry =>
      entry.name = member.declared? ∧ entry.IsStub := by
  have hplain : ∀ code, (Entry.plain code).IsStub := fun code name hname => by cases hname
  cases member with
  | property name type optional readonly static =>
    cases name with
    | other kind text => exact (h.reportName kind text).map fun _ _ => ⟨rfl, hplain _⟩
    | ident name =>
      exact (h.optionalTypeText type).bind fun _ _ => (h.optionalText optional _).bind fun type _ =>
        (h.propertyCode (.snake name) readonly static type).map fun _ _ => ⟨rfl, fun name hname => by cases hname⟩
  | method name params result =>
    cases name with
    | other kind text => exact (h.reportName kind text).map fun _ _ => ⟨rfl, hplain _⟩
    | ident name =>
      exact (ensures_aliasLines style _).bind fun _ haliases => (h.paramTexts 0 params).bind fun _ _ =>
        (ensures_resultText h result).map fun _ hresult => ⟨rfl, isStub_of_stubLine haliases hresult⟩
  | constructor params =>
    refine (h.paramTexts 0 params).map fun texts _ => ⟨rfl, ?_⟩
    rintro _ ⟨⟩
    exact ⟨[], "def", ", ".intercalate ("self" :: texts) ++ "): ...", Or.inl rfl, by decide,
      by simp [String.append_assoc]⟩
  | unsupported kind => exact (h.report _ _).bind fun _ _ => .pure ⟨rfl, hplain _⟩

private theorem ensures_memberEntries (h : Hereditary style fun piece => piece.Ensures Defines fun _ => True)
    (separate : Bool) (members : List Member) : (memberEntries style separate members).Ensures Defines fun entries =>
      Entry.names entries = members.filterMap Member.declared? ∧ ∀ entry ∈ entries, entry.IsStub := by
  induction members generalizing separate with
  | nil => exact .pure ⟨rfl, by simp⟩
  | cons member rest ih =>
    refine (ensures_memberEntry h separate member).bind fun entry hentry => (ih _).map fun entries hentries => ?_
    obtain ⟨hname, hstub⟩ := hentry
    obtain ⟨hnames, hstubs⟩ := hentries
    refine ⟨?_, List.forall_mem_cons.mpr ⟨hstub, hstubs⟩⟩
    rw [Entry.names, List.filterMap_cons, List.filterMap_cons, hname, ← hnames]
    rfl

/-- A class has the members that it is given, and may have a line in their place. -/
private theorem ensures_classCode {Members : List Entry → Prop} (style : Style) (recased : Recased)
    (bases : Stubs (List String)) (hbases : bases.Ensures Defines fun _ => True) {members : Stubs (List Entry)}
    (hmembers : members.Ensures Defines Members) (isInterface isEmpty : Bool) :
    (classCode style recased bases isInterface members isEmpty).Ensures Defines fun decl =>
      ∃ entries, Members entries ∧ decl.members = entries ++ if isEmpty then [.plain [.line "..."]] else [] :=
  (Stubs.Ensures.use _).bind fun _ _ => (ensures_aliasLines style recased).bind fun _ _ =>
    hbases.bind fun texts _ => ((closed_ensures style Defines).classHeader recased.name texts isInterface).bind
      fun _ _ => hmembers.bind fun entries hentries => (Stubs.Ensures.useDispatch _ _).bind fun _ _ =>
        .pure ⟨entries, hentries, rfl⟩

/-- The scope of a class has the names that its members declare. -/
private theorem ensures_classCode_members (h : Hereditary style fun piece => piece.Ensures Defines fun _ => True)
    (recased : Recased) {bases : Stubs (List String)} (hbases : bases.Ensures Defines fun _ => True)
    (isInterface isEmpty : Bool) (members : List Member) :
    (classCode style recased bases isInterface (memberEntries style false members) isEmpty).Ensures Defines fun decl =>
      Entry.names decl.members = members.filterMap Member.declared? ∧ ∀ entry ∈ decl.members, entry.IsStub := by
  have hmembers := ensures_memberEntries h false members
  refine (ensures_classCode style recased bases hbases hmembers isInterface isEmpty).mono ?_
  rintro decl ⟨entries, ⟨hnames, hstubs⟩, hdecl⟩
  rw [hdecl]
  cases isEmpty with
  | false => simpa using ⟨hnames, hstubs⟩
  | true =>
    refine ⟨?_, fun entry hentry => ?_⟩
    · rw [← hnames]
      simp [Entry.names, Entry.plain]
    · rcases List.mem_append.mp hentry with hentry | hentry
      · exact hstubs entry hentry
      · rw [List.mem_singleton.mp hentry]
        intro name hname
        cases hname

/-- The parts declare these names in the body's scope, and classes with these names in theirs. -/
structure Declares (parts : List Part) (names : List String) (classes : List (List String)) : Prop where
  names : parts.filterMap (·.toEntry.name) = names
  classes : (parts.filterMap Part.class?).map (fun decl => Entry.names decl.members) = classes
  stubs : ∀ part ∈ parts, part.IsStub

namespace Declares

theorem nil : Declares [] [] [] := ⟨rfl, rfl, by simp⟩

theorem append {first second : List Part} {names others : List String} {classes more : List (List String)}
    (h : Declares first names classes) (h' : Declares second others more) :
    Declares (first ++ second) (names ++ others) (classes ++ more) where
  names := by rw [List.filterMap_append, h.names, h'.names]
  classes := by rw [List.filterMap_append, List.map_append, h.classes, h'.classes]
  stubs := List.forall_mem_append.mpr ⟨h.stubs, h'.stubs⟩

theorem plain (code : List Code) : Declares [.entry (.plain code)] [] [] where
  names := rfl
  classes := rfl
  stubs part hpart := by
    rw [List.mem_singleton.mp hpart]
    intro name hname
    cases hname

end Declares

/-- The parts of a class or interface with a name are the class. -/
private theorem ensures_writeClass (h : Hereditary style fun piece => piece.Ensures Defines fun _ => True)
    (isInterface : Bool) (decl : ClassDecl) : (writeClass style isInterface decl).Ensures Defines fun parts =>
      Declares parts [] (if decl.name.ident?.isSome then [decl.declared] else []) := by
  obtain ⟨name, heritage, members⟩ := decl
  cases name with
  | other kind text => exact (h.report _ _).bind fun _ _ => .pure .nil
  | ident name =>
    refine (ensures_classCode_members h (.pascal name) (h.bases heritage) isInterface _ members).map
      fun code hcode => ?_
    exact ⟨rfl, by simp [Part.class?, hcode.1, ClassDecl.declared, Name.ident?],
      fun part hpart => by rw [List.mem_singleton.mp hpart]; exact hcode.2⟩

private theorem ensures_writeFunction (h : Hereditary style fun piece => piece.Ensures Defines fun _ => True)
    (name : Name) (params : List Param) (result : Option TypeExpr) :
    (writeFunction style name params result).Ensures Defines fun parts =>
      Declares parts (Statement.declared? (.function name params result)).toList [] := by
  cases name with
  | other kind text => exact (h.report _ _).bind fun _ _ => .pure .nil
  | ident name =>
    refine (ensures_aliasLines style _).bind fun _ haliases => (h.paramTexts 0 params).bind fun _ _ =>
      (ensures_resultText h result).map fun _ hresult => ⟨rfl, rfl, fun part hpart => ?_⟩
    rw [List.mem_singleton.mp hpart]
    exact isStub_of_stubLine haliases hresult

private theorem ensures_writeVariable (h : Hereditary style fun piece => piece.Ensures Defines fun _ => True)
    (declared : Variable) : (writeVariable style declared).Ensures Defines fun parts => Declares parts [] [] := by
  unfold writeVariable
  split
  · exact (h.report _ _).bind fun _ _ => .pure .nil
  · exact (h.optionalTypeText declared.type).bind fun _ _ => (h.annotated _ _).map fun _ _ => .plain _

/-- The parts of a statement declare what the statement does. -/
theorem ensures_statementParts (h : Hereditary style fun piece => piece.Ensures Defines fun _ => True)
    (statement : Statement) : (statementParts style statement).Ensures Defines fun parts =>
      Declares parts statement.declared?.toList (statement.class?.toList.map ClassDecl.declared) := by
  cases statement with
  | classDecl decl =>
    refine (ensures_writeClass h false decl).mono fun parts hparts => ?_
    simpa [Statement.declared?, Statement.class?, apply_ite] using hparts
  | interface decl =>
    refine (ensures_writeClass h true decl).mono fun parts hparts => ?_
    simpa [Statement.declared?, Statement.class?, apply_ite] using hparts
  | function name params result => exact ensures_writeFunction h name params result
  | typeAlias name type =>
    cases name with
    | other => exact (h.report _ _).bind fun _ _ => .pure .nil
    | ident name => exact (h.typeText type).map fun _ _ => .plain _
  | enum name members =>
    cases name with
    | other => exact (h.report _ _).bind fun _ _ => .pure .nil
    | ident name =>
      exact (h.useEnum (by decide)).bind fun _ _ =>
        (h.mapM members fun member _ => h.enumeratorCode member).map fun _ _ => .plain _
  | variableDecls declared =>
    refine (Stubs.Ensures.mapM fun item _ => ensures_writeVariable h item).map fun results hresults => ?_
    induction hresults with
    | nil => exact .nil
    | cons hfirst _ ih => exact hfirst.append ih
  | module => exact .pure .nil
  | unsupported kind => exact (h.report _ _).bind fun _ _ => .pure .nil

/-- The parts of a file declare what its statements do, in order. -/
theorem ensures_fileParts (h : Hereditary style fun piece => piece.Ensures Defines fun _ => True)
    (statements : List Statement) : (fileParts style statements).Ensures Defines fun parts =>
      Declares parts (statements.filterMap Statement.declared?)
        ((statements.filterMap Statement.class?).map ClassDecl.declared) := by
  refine (Stubs.Ensures.mapM fun statement _ => ensures_statementParts h statement).bind fun results hresults =>
    (Stubs.Ensures.useDispatch _ _).bind fun _ _ => .pure ?_
  induction hresults with
  | nil => exact .nil
  | @cons statement parts rest others hfirst _ ih =>
    have hboth := hfirst.append ih
    rw [List.flatten_cons, List.filterMap_cons, List.filterMap_cons]
    cases hname : statement.declared? <;> cases hclass : statement.class? <;> simpa [hname, hclass] using hboth

end Declarations

section Blocks

variable {style : Style}

/-- The types that a piece defines are those of members. -/
theorem hereditary_isTypeOf (style : Style) : Hereditary style fun piece =>
    piece.Ensures (fun block => ∃ members, block.IsTypeOf style members) fun _ => True := by
  refine ⟨closed_ensures style _, fun members hmembers count => ⟨?_, trivial⟩⟩
  have hcode := ensures_classCode style ⟨style.typeName (count + 1), none⟩ (pure []) (.pure trivial) hmembers true
    (!members.any Member.isEmitted)
  intro block hblock
  rcases List.mem_append.mp hblock with hblock | hblock
  · exact (hcode (count + 1)).1 block hblock
  · rw [List.mem_singleton.mp hblock]
    exact ⟨members, rfl⟩

theorem declares_fileParts (style : Style) (statements : List Statement) (count : Nat) :
    Declares (fileParts style statements count).2 (statements.filterMap Statement.declared?)
      ((statements.filterMap Statement.class?).map ClassDecl.declared) :=
  (ensures_fileParts (hereditary_isTypeOf style) statements count).2

/-- The scope of a type has the names that its members declare. -/
theorem Block.IsTypeOf.names_eq {members : List Member} {block : Block} (h : block.IsTypeOf style members) :
    Entry.names block.decl.members = members.filterMap Member.declared? ∧
      ∀ entry ∈ block.decl.members, entry.IsStub := by
  rw [h]
  exact (ensures_classCode_members (hereditary_isTypeOf style) _ (.pure trivial) true _ members block.number).2

end Blocks

end StubGen.DeclFile

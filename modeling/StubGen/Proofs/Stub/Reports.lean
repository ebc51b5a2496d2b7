import StubGen.Proofs.Stub.Written

/-!
# What is reported

What the generator reports depends on the syntax alone: neither the options nor what came before matter.

* `TypeExpr.reports`, `Member.reports` and `Statement.reports` give the reports on a piece of syntax, in order.
* `Stubs.Reports` says that a piece reports just these, wherever it stands.
* `diagnostics_generate`: the reports on a file are those on its statements.
-/

namespace StubGen.DeclFile

/-! ### Reports by syntax -/

/-- The report on a member whose name is no identifier. -/
def nameReport (kind text : String) : Diagnostic := ⟨kind, "unsupported member name `" ++ text ++ "`"⟩

def Literal.reports : Literal → List Diagnostic
  | .unsupported kind => [⟨kind, "unsupported literal type"⟩]
  | _ => []

mutual

/-- The reports on a type whose text is written. -/
def TypeExpr.reports : TypeExpr → List Diagnostic
  | .keyword _ => []
  | .parenthesized inner => inner.reports
  | .function params result =>
    TypeExpr.optionReports result ++ if params.any Param.isRest then [] else Param.typeReports params
  | .union items => TypeExpr.allReports items
  | .intersection [] => []
  | .intersection (first :: _) => first.reports
  | .array element => element.reports
  | .tuple items => TypeExpr.allReports items
  | .literal value => value.reports
  | .query _ => []
  | .members members => Member.allReports members
  | .reference _ arguments => TypeExpr.allReports arguments
  | .operator operator operand => if operator = "keyof" then [] else operand.reports
  | .indexedAccess => [⟨"IndexedAccessType", "indexed access type mapped to Any"⟩]
  | .unsupported kind => [⟨kind, "unsupported type mapped to Any"⟩]
termination_by structural type => type

def TypeExpr.allReports : List TypeExpr → List Diagnostic
  | [] => []
  | type :: rest => type.reports ++ TypeExpr.allReports rest
termination_by structural types => types

def TypeExpr.optionReports : Option TypeExpr → List Diagnostic
  | some type => type.reports
  | none => []
termination_by structural type => type

/-- The reports on the parameters of a function type. -/
def Param.typeReports : List Param → List Diagnostic
  | [] => []
  | .mk _ type _ _ :: rest => TypeExpr.optionReports type ++ Param.typeReports rest
termination_by structural params => params

/-- The reports on a parameter of a function; `this` is not written. -/
def Param.reports : Param → List Diagnostic
  | .mk name type _ _ => if name = .ident "this" then [] else TypeExpr.optionReports type
termination_by structural param => param

def Param.allReports : List Param → List Diagnostic
  | [] => []
  | param :: others => param.reports ++ Param.allReports others
termination_by structural params => params

/-- The reports on the result of a function; of a promise only the first argument is written. -/
def TypeExpr.resultReports : Option TypeExpr → List Diagnostic
  | some (.reference name (inner :: others)) =>
    if name = "Promise" then inner.reports else TypeExpr.allReports (inner :: others)
  | some type => type.reports
  | none => []
termination_by structural type => type

/-- The reports on a member. -/
def Member.reports : Member → List Diagnostic
  | .property (.other kind text) .. => [nameReport kind text]
  | .property (.ident _) type .. => TypeExpr.optionReports type
  | .method (.other kind text) .. => [nameReport kind text]
  | .method (.ident _) params result => Param.allReports params ++ TypeExpr.resultReports result
  | .constructor params => Param.allReports params
  | .unsupported kind => [⟨kind, "unsupported class member"⟩]
termination_by structural member => member

def Member.allReports : List Member → List Diagnostic
  | [] => []
  | member :: rest => member.reports ++ Member.allReports rest
termination_by structural members => members

end

/-- The reports on a class or interface: those on its bases and on its members, if it has a name. -/
def ClassDecl.reports (decl : ClassDecl) : List Diagnostic :=
  match decl.name with
  | .other kind text => [⟨kind, "class without an identifier name `" ++ text ++ "`"⟩]
  | .ident _ =>
    (decl.heritage.flatten.flatMap fun base => TypeExpr.allReports base.arguments) ++ Member.allReports decl.members

def EnumMember.reports (member : EnumMember) : List Diagnostic :=
  match member.name with
  | .other kind text => [nameReport kind text]
  | .ident _ => []

def Variable.reports (declared : Variable) : List Diagnostic :=
  match declared.name with
  | .other .. => [⟨"VariableStatement", "destructured variable declaration"⟩]
  | .ident _ => TypeExpr.optionReports declared.type

/-- The reports on a statement. -/
def Statement.reports : Statement → List Diagnostic
  | .classDecl decl => decl.reports
  | .interface decl => decl.reports
  | .function (.other ..) .. => [⟨"FunctionDeclaration", "function without an identifier name"⟩]
  | .function (.ident _) params result => Param.allReports params ++ TypeExpr.resultReports result
  | .typeAlias (.other ..) _ => [⟨"TypeAliasDeclaration", "type alias without an identifier name"⟩]
  | .typeAlias (.ident _) type => type.reports
  | .enum (.other ..) _ => [⟨"EnumDeclaration", "enum without an identifier name"⟩]
  | .enum (.ident _) members => members.flatMap EnumMember.reports
  | .variableDecls declared => declared.flatMap Variable.reports
  | .module => []
  | .unsupported kind => [⟨kind, "unsupported statement"⟩]

/-! ### Reports of pieces -/

/-- Wherever the piece stands, it reports just this. -/
def Stubs.Reports {α : Type} (reports : List Diagnostic) (piece : Stubs α) : Prop :=
  ∀ count, (piece count).1.diagnostics = reports

namespace Stubs.Reports

variable {α β : Type} {reports more : List Diagnostic} {first : Stubs α} {next : α → Stubs β}

protected theorem pure (value : α) : (pure value : Stubs α).Reports [] := fun _ => rfl

theorem bind (hfirst : first.Reports reports) (hnext : ∀ value, (next value).Reports more) :
    (first >>= next).Reports (reports ++ more) := by
  intro count
  rw [bind_apply, Log.diagnostics_append, hfirst, hnext]

/-- What reports nothing goes unnoticed ahead of another piece. -/
theorem bind_left (hfirst : first.Reports []) (hnext : ∀ value, (next value).Reports more) :
    (first >>= next).Reports more := hfirst.bind hnext

/-- What reports nothing goes unnoticed behind another piece. -/
theorem bind_right (hfirst : first.Reports reports) (hnext : ∀ value, (next value).Reports []) :
    (first >>= next).Reports reports := by
  have hboth := hfirst.bind hnext
  rwa [List.append_nil] at hboth

theorem map (hfirst : first.Reports reports) (f : α → β) : (do return f (← first) : Stubs β).Reports reports :=
  hfirst.bind_right fun value => .pure (f value)

theorem use (symbol : Import) : (Stubs.use symbol).Reports [] := fun _ => rfl

theorem report (kind message : String) : (Stubs.report kind message).Reports [⟨kind, message⟩] := fun _ => rfl

theorem mapM {f : α → Stubs β} {each : α → List Diagnostic} {items : List α}
    (h : ∀ item ∈ items, (f item).Reports (each item)) : (items.mapM f).Reports (items.flatMap each) := by
  induction items with
  | nil => exact .pure []
  | cons item rest ih =>
    obtain ⟨hitem, hrest⟩ := List.forall_mem_cons.mp h
    rw [List.mapM_cons, List.flatMap_cons]
    exact hitem.bind fun result => (ih hrest).map (result :: ·)

end Stubs.Reports

/-! ### Texts -/

section

variable {style : Style}

private theorem reports_hostText (host : HostType) : (hostText host).Reports [] := by
  unfold hostText
  cases host.source with
  | none => exact .pure _
  | some symbol => exact (Stubs.Reports.use symbol).map _

private theorem reports_typing (symbol : String) : (typing symbol).Reports [] := reports_hostText _

private theorem reports_aliasLines (recased : Recased) : (aliasLines style recased).Reports [] := by
  unfold aliasLines
  split
  · exact (Stubs.Reports.use _).map _
  · exact .pure _

private theorem reports_annotated (recased : Recased) (type : String) : (annotated style recased type).Reports [] := by
  unfold annotated
  split
  · exact (Stubs.Reports.use _).bind_left fun _ => (reports_typing _).map _
  · exact .pure _

private theorem reports_literalText (literal : Literal) : (literalText literal).Reports literal.reports := by
  cases literal with
  | null => exact .pure _
  | unsupported kind => exact (Stubs.Reports.report _ _).bind_right fun _ => reports_typing _
  | text | number | bool => exact (reports_typing _).map _

private theorem reports_reportName (kind text : String) : (reportName kind text).Reports [nameReport kind text] :=
  (Stubs.Reports.report _ _).map _

private theorem reports_optionalText (optional : Bool) (type : String) : (optionalText optional type).Reports [] := by
  unfold optionalText
  split
  · exact (reports_typing _).map _
  · exact .pure _

private theorem reports_propertyCode (recased : Recased) (readonly static : Bool) (type : String) :
    (propertyCode style recased readonly static type).Reports [] := by
  have hgetter : (getterCode style recased type).Reports [] := (reports_aliasLines recased).map _
  unfold propertyCode
  split
  · exact (reports_annotated recased type).map _
  · split
    · exact hgetter
    · exact hgetter.bind_left fun _ => ((reports_aliasLines recased).map _).map _

private theorem reports_classHeader (name : String) (bases : List String) (isInterface : Bool) :
    (classHeader name bases isInterface).Reports [] := by
  unfold classHeader
  split
  · exact .pure _
  · split
    · exact (reports_typing _).map _
    · exact .pure _

private theorem reports_useDispatch (dispatch : String) (entries : List Entry) :
    (useDispatch dispatch entries).Reports [] := by
  unfold useDispatch
  split
  · exact .use _
  · exact .pure _

private theorem reports_typedParam (name : String) (optional : Bool) (type : String) :
    (typedParam name optional type).Reports [] := by
  unfold typedParam
  split
  · exact (reports_optionalText true type).map _
  · exact .pure _

private theorem reports_untypedParam (name : String) (optional : Bool) : (untypedParam name optional).Reports [] := by
  unfold untypedParam
  split
  · exact (reports_typing _).bind_left fun type => reports_typedParam name true type
  · exact .pure _

private theorem reports_referenceText (name : String) {arguments : Stubs (List String)} {reports : List Diagnostic}
    (harguments : arguments.Reports reports) : (referenceText name arguments).Reports reports := by
  have hhead : (referenceHead name).Reports [] := by
    unfold referenceHead
    split
    · exact reports_hostText _
    · exact .pure _
  exact hhead.bind_left fun _ => harguments.map _

private theorem reports_classCode (recased : Recased) {bases : Stubs (List String)} {reports more : List Diagnostic}
    (hbases : bases.Reports reports) {members : Stubs (List Entry)} (hmembers : members.Reports more)
    (isInterface isEmpty : Bool) :
    (classCode style recased bases isInterface members isEmpty).Reports (reports ++ more) :=
  (Stubs.Reports.use _).bind_left fun _ => (reports_aliasLines recased).bind_left fun _ => hbases.bind fun _ =>
    (reports_classHeader _ _ _).bind_left fun _ => hmembers.bind_right fun _ => (reports_useDispatch _ _).map _

private theorem exists_paramName? (position : Nat) {name : Name} (h : name ≠ .ident "this") :
    ∃ text, paramName? position name = some text := by
  cases name with
  | ident name =>
    have hname : name ≠ "this" := fun heq => h (congrArg Name.ident heq)
    exact ⟨_, if_neg hname⟩
  | other kind text => exact ⟨_, rfl⟩

/-! ### Types and members -/

mutual

theorem reports_typeText (style : Style) (type : TypeExpr) : (typeText style type).Reports type.reports := by
  match type with
  | .keyword keyword => exact reports_hostText _
  | .parenthesized inner => exact reports_typeText style inner
  | .function params result =>
    refine (reports_optionalTypeText style result).bind fun _ => (reports_typing _).bind_left fun _ => ?_
    split
    · exact .pure _
    · exact (reports_paramTypes style params).map _
  | .union items => exact (reports_typeTexts style items).map _
  | .intersection [] => exact reports_typing _
  | .intersection (first :: _) => exact reports_typeText style first
  | .array element => exact (reports_typeText style element).bind_right fun _ => (reports_typing _).map _
  | .tuple items =>
    refine (reports_typing _).bind_left fun _ => ?_
    cases items with
    | nil => exact .pure _
    | cons first others => exact (reports_typeTexts style (first :: others)).map _
  | .literal value => exact reports_literalText value
  | .query name => exact (reports_typing _).map _
  | .members members =>
    intro count
    have hmembers := reports_memberEntries style false members
    have hcode : (classCode style _ _ true _ _).Reports (Member.allReports members) :=
      reports_classCode ⟨style.typeName (count + 1), none⟩ (.pure []) hmembers true (!members.any Member.isEmitted)
    exact (List.append_nil _).trans (hcode (count + 1))
  | .reference name arguments => exact reports_referenceText name (reports_typeTexts style arguments)
  | .operator operator operand =>
    rw [typeText, TypeExpr.reports]
    split
    · exact .pure _
    · exact reports_typeText style operand
  | .indexedAccess => exact (Stubs.Reports.report _ _).bind_right fun _ => reports_typing _
  | .unsupported kind => exact (Stubs.Reports.report _ _).bind_right fun _ => reports_typing _

theorem reports_typeTexts (style : Style) (types : List TypeExpr) :
    (typeTexts style types).Reports (TypeExpr.allReports types) := by
  match types with
  | [] => exact .pure _
  | type :: rest => exact (reports_typeText style type).bind fun _ => (reports_typeTexts style rest).map _

theorem reports_optionalTypeText (style : Style) (type : Option TypeExpr) :
    (optionalTypeText style type).Reports (TypeExpr.optionReports type) := by
  match type with
  | some type => exact reports_typeText style type
  | none => exact reports_typing _

theorem reports_paramTypes (style : Style) (params : List Param) :
    (paramTypes style params).Reports (Param.typeReports params) := by
  match params with
  | [] => exact .pure _
  | .mk _ type optional _ :: rest =>
    exact (reports_optionalTypeText style type).bind fun _ => (reports_optionalText optional _).bind_left fun _ =>
      (reports_paramTypes style rest).map _

theorem reports_paramText (style : Style) (position : Nat) (param : Param) :
    (paramText style position param).Reports param.reports := by
  match param with
  | .mk name type optional rest =>
    rw [paramText, Param.reports]
    by_cases hthis : name = .ident "this"
    · rw [if_pos hthis, hthis]
      exact .pure _
    · obtain ⟨text, htext⟩ := exists_paramName? position hthis
      rw [if_neg hthis, htext]
      dsimp only
      split
      · split
        · rename_i element
          exact (reports_typeText style element).map _
        · exact (reports_optionalTypeText style type).map _
      · split
        · rename_i type
          exact (reports_typeText style type).bind_right fun text => (reports_typedParam _ optional text).map _
        · exact (reports_untypedParam _ optional).map _

theorem reports_paramTexts (style : Style) (position : Nat) (params : List Param) :
    (paramTexts style position params).Reports (Param.allReports params) := by
  match params with
  | [] => exact .pure _
  | param :: others =>
    exact (reports_paramText style position param).bind fun _ => (reports_paramTexts style (position + 1) others).map _

theorem reports_resultText (style : Style) (type : Option TypeExpr) :
    (resultText style type).Reports (TypeExpr.resultReports type) := by
  unfold resultText
  split
  · split
    · exact (reports_typing _).map _
    · exact (reports_referenceText _ (.pure _)).map _
  · rename_i name inner others
    rw [TypeExpr.resultReports]
    split
    · exact (reports_typeText style inner).map _
    · exact (reports_referenceText name (reports_typeTexts style (inner :: others))).map _
  · rename_i type hnone hsome
    have hreports : TypeExpr.resultReports (some type) = type.reports := by
      unfold TypeExpr.resultReports
      split
      · next heq => exact (hsome _ _ _ (Option.some.inj heq)).elim
      · next heq => rw [Option.some.inj heq]
      · next heq => cases heq
    rw [hreports]
    exact (reports_typeText style type).map _
  · exact (reports_typing _).map _

theorem reports_memberEntry (style : Style) (separate : Bool) (member : Member) :
    (memberEntry style separate member).Reports member.reports := by
  match member with
  | .property (.other kind text) .. => exact (reports_reportName kind text).map _
  | .property (.ident name) type optional readonly static =>
    exact (reports_optionalTypeText style type).bind_right fun _ =>
      (reports_optionalText optional _).bind_left fun type =>
        (reports_propertyCode (.snake name) readonly static type).map _
  | .method (.other kind text) .. => exact (reports_reportName kind text).map _
  | .method (.ident name) params result =>
    exact (reports_aliasLines _).bind_left fun _ => (reports_paramTexts style 0 params).bind fun _ =>
      (reports_resultText style result).map _
  | .constructor params => exact (reports_paramTexts style 0 params).map _
  | .unsupported kind => exact (Stubs.Reports.report _ _).map _

theorem reports_memberEntries (style : Style) (separate : Bool) (members : List Member) :
    (memberEntries style separate members).Reports (Member.allReports members) := by
  match members with
  | [] => exact .pure _
  | member :: rest =>
    exact (reports_memberEntry style separate member).bind fun _ => (reports_memberEntries style _ rest).map _

end

/-! ### Statements -/

private theorem reports_writeClass (style : Style) (isInterface : Bool) (decl : ClassDecl) :
    (writeClass style isInterface decl).Reports decl.reports := by
  obtain ⟨name, heritage, members⟩ := decl
  cases name with
  | other kind text => exact (Stubs.Reports.report _ _).map _
  | ident name =>
    have hbases := Stubs.Reports.mapM fun (base : Base) (_ : base ∈ heritage.flatten) =>
      (reports_typeTexts style base.arguments).map fun texts => referenceName base.name ++ argumentsText texts
    exact (reports_classCode (.pascal name) hbases (reports_memberEntries style false members) isInterface _).map _

private theorem reports_writeFunction (style : Style) (name : Name) (params : List Param) (result : Option TypeExpr) :
    (writeFunction style name params result).Reports (Statement.reports (.function name params result)) := by
  cases name with
  | other kind text => exact (Stubs.Reports.report _ _).map _
  | ident name =>
    exact (reports_aliasLines _).bind_left fun _ => (reports_paramTexts style 0 params).bind fun _ =>
      (reports_resultText style result).map _

private theorem reports_enumeratorCode (member : EnumMember) : (enumeratorCode member).Reports member.reports := by
  have hvalue : (enumeratorValue member.value).Reports [] := by
    unfold enumeratorValue
    split
    · exact .pure _
    · exact .pure _
    · exact (Stubs.Reports.use _).map _
  obtain ⟨name, value⟩ := member
  cases name with
  | other kind text => exact reports_reportName kind text
  | ident name => exact hvalue.map _

private theorem reports_writeVariable (style : Style) (declared : Variable) :
    (writeVariable style declared).Reports declared.reports := by
  obtain ⟨name, type⟩ := declared
  cases name with
  | other kind text => exact (Stubs.Reports.report _ _).map _
  | ident name => exact (reports_optionalTypeText style type).bind_right fun _ => (reports_annotated _ _).map _

/-- A statement reports what there is to report on its syntax. -/
theorem reports_statementParts (style : Style) (statement : Statement) :
    (statementParts style statement).Reports statement.reports := by
  cases statement with
  | classDecl decl => exact reports_writeClass style false decl
  | interface decl => exact reports_writeClass style true decl
  | function name params result => exact reports_writeFunction style name params result
  | typeAlias name type =>
    cases name with
    | other => exact (Stubs.Reports.report _ _).map _
    | ident name => exact (reports_typeText style type).map _
  | enum name members =>
    cases name with
    | other => exact (Stubs.Reports.report _ _).map _
    | ident name =>
      exact (Stubs.Reports.use _).bind_left fun _ =>
        (Stubs.Reports.mapM fun member _ => reports_enumeratorCode member).map _
  | variableDecls declared => exact (Stubs.Reports.mapM fun item _ => reports_writeVariable style item).map _
  | module => exact .pure _
  | unsupported kind => exact (Stubs.Reports.report _ _).map _

theorem reports_fileParts (style : Style) (statements : List Statement) :
    (fileParts style statements).Reports (statements.flatMap Statement.reports) :=
  (Stubs.Reports.mapM fun statement _ => reports_statementParts style statement).bind_right fun _ =>
    (reports_useDispatch _ _).map _

/-- A file reports what there is to report on its statements, in their order. -/
theorem diagnostics_generate (options : DeclOptions) (statements : List Statement) :
    (generate options statements).diagnostics = statements.flatMap Statement.reports := by
  rw [generate_eq]
  exact reports_fileParts (.ofOptions options) statements 0

end

end StubGen.DeclFile

import StubGen.Proofs.Stub.Reports

/-!
# Nodes without a form in the output

A node of an unknown kind is reported wherever something is written in its place.  Some parts of a file are not written
at all: the operand of `keyof`, all but the first member of an intersection, the parameters of a function type with a
rest parameter, the type of `this`, further arguments of a promise that is a result, and the contents of declarations
and members whose name is no identifier.

* `written` leaves out these parts; the module of a file does not depend on them.
* `named` leaves out the declarations whose name is no identifier; the text of the module does not depend on them.
* `kinds` lists the kinds of all unsupported nodes, in the order in which the pieces of the output are put together: the
  result of a function type before its parameters, bases before members.  The values of enumerators are not looked at.
* `kinds_written_reported`: the kinds in what is written are reported, in this order, and so are the declarations that
  `named` leaves out.
-/

namespace StubGen.DeclFile

/-! ### Unsupported nodes -/

def Literal.kinds : Literal → List String
  | .unsupported kind => [kind]
  | _ => []

mutual

/-- The kinds of the unsupported nodes of a type. -/
def TypeExpr.kinds : TypeExpr → List String
  | .keyword _ | .query _ | .indexedAccess => []
  | .parenthesized inner => inner.kinds
  | .function params result => TypeExpr.optionKinds result ++ Param.allKinds params
  | .union items | .intersection items | .tuple items => TypeExpr.allKinds items
  | .array element => element.kinds
  | .literal value => value.kinds
  | .members members => Member.allKinds members
  | .reference _ arguments => TypeExpr.allKinds arguments
  | .operator _ operand => operand.kinds
  | .unsupported kind => [kind]
termination_by structural type => type

def TypeExpr.allKinds : List TypeExpr → List String
  | [] => []
  | type :: rest => type.kinds ++ TypeExpr.allKinds rest
termination_by structural types => types

def TypeExpr.optionKinds : Option TypeExpr → List String
  | some type => type.kinds
  | none => []
termination_by structural type => type

def Param.kinds : Param → List String
  | .mk _ type _ _ => TypeExpr.optionKinds type
termination_by structural param => param

def Param.allKinds : List Param → List String
  | [] => []
  | param :: rest => param.kinds ++ Param.allKinds rest
termination_by structural params => params

/-- The kinds of the unsupported nodes of a member. -/
def Member.kinds : Member → List String
  | .property _ type .. => TypeExpr.optionKinds type
  | .method _ params result => Param.allKinds params ++ TypeExpr.optionKinds result
  | .constructor params => Param.allKinds params
  | .unsupported kind => [kind]
termination_by structural member => member

def Member.allKinds : List Member → List String
  | [] => []
  | member :: rest => member.kinds ++ Member.allKinds rest
termination_by structural members => members

end

def ClassDecl.kinds (decl : ClassDecl) : List String :=
  (decl.heritage.flatten.flatMap fun base => TypeExpr.allKinds base.arguments) ++ Member.allKinds decl.members

/-- The kinds of the unsupported nodes of a statement. -/
def Statement.kinds : Statement → List String
  | .classDecl decl | .interface decl => decl.kinds
  | .function _ params result => Param.allKinds params ++ TypeExpr.optionKinds result
  | .typeAlias _ type => type.kinds
  | .enum .. | .module => []
  | .variableDecls declared => declared.flatMap fun item => TypeExpr.optionKinds item.type
  | .unsupported kind => [kind]

/-! ### What is written -/

/-- A parameter without its type. -/
def Param.bare : Param → Param
  | .mk name _ optional rest => .mk name none optional rest

mutual

/-- A type without the parts that are not written. -/
def TypeExpr.written : TypeExpr → TypeExpr
  | .parenthesized inner => .parenthesized inner.written
  | .function params result =>
    .function (if params.any Param.isRest then params.map Param.bare else Param.typesWritten params)
      (TypeExpr.optionWritten result)
  | .union items => .union (TypeExpr.allWritten items)
  | .intersection [] => .intersection []
  | .intersection (first :: _) => .intersection [first.written]
  | .array element => .array element.written
  | .tuple items => .tuple (TypeExpr.allWritten items)
  | .members members => .members (Member.allWritten members)
  | .reference name arguments => .reference name (TypeExpr.allWritten arguments)
  | .operator operator operand => .operator operator (if operator = "keyof" then .tuple [] else operand.written)
  | type => type
termination_by structural type => type

def TypeExpr.allWritten : List TypeExpr → List TypeExpr
  | [] => []
  | type :: rest => type.written :: TypeExpr.allWritten rest
termination_by structural types => types

def TypeExpr.optionWritten : Option TypeExpr → Option TypeExpr
  | some type => some type.written
  | none => none
termination_by structural type => type

/-- The parameters of a function type; `this` is one of them. -/
def Param.typesWritten : List Param → List Param
  | [] => []
  | .mk name type optional rest :: others =>
    .mk name (TypeExpr.optionWritten type) optional rest :: Param.typesWritten others
termination_by structural params => params

/-- A parameter of a function; `this` is none of them. -/
def Param.written : Param → Param
  | .mk name type optional rest =>
    .mk name (if name = .ident "this" then none else TypeExpr.optionWritten type) optional rest
termination_by structural param => param

def Param.allWritten : List Param → List Param
  | [] => []
  | param :: others => param.written :: Param.allWritten others
termination_by structural params => params

/-- The result of a function; of a promise only the first argument is written. -/
def TypeExpr.resultWritten : Option TypeExpr → Option TypeExpr
  | some (.reference name (inner :: others)) =>
    some (.reference name
      (if name = "Promise" then [inner.written] else inner.written :: TypeExpr.allWritten others))
  | some type => some type.written
  | none => none
termination_by structural type => type

/-- A member without the parts that are not written. -/
def Member.written : Member → Member
  | .property (.other kind text) _ optional readonly static =>
    .property (.other kind text) none optional readonly static
  | .property (.ident name) type optional readonly static =>
    .property (.ident name) (TypeExpr.optionWritten type) optional readonly static
  | .method (.other kind text) .. => .method (.other kind text) [] none
  | .method (.ident name) params result =>
    .method (.ident name) (Param.allWritten params) (TypeExpr.resultWritten result)
  | .constructor params => .constructor (Param.allWritten params)
  | .unsupported kind => .unsupported kind
termination_by structural member => member

def Member.allWritten : List Member → List Member
  | [] => []
  | member :: rest => member.written :: Member.allWritten rest
termination_by structural members => members

end

def Base.written (base : Base) : Base := ⟨base.name, TypeExpr.allWritten base.arguments⟩

/-- A class or interface; without a name nothing of it is written. -/
def ClassDecl.written (decl : ClassDecl) : ClassDecl :=
  match decl.name with
  | .other .. => ⟨decl.name, [], []⟩
  | .ident _ => ⟨decl.name, decl.heritage.map (·.map Base.written), Member.allWritten decl.members⟩

def Variable.written (declared : Variable) : Variable :=
  match declared.name with
  | .other .. => ⟨declared.name, none⟩
  | .ident _ => ⟨declared.name, TypeExpr.optionWritten declared.type⟩

/-- A statement without the parts that are not written. -/
def Statement.written : Statement → Statement
  | .classDecl decl => .classDecl decl.written
  | .interface decl => .interface decl.written
  | .function (.other kind text) .. => .function (.other kind text) [] none
  | .function (.ident name) params result =>
    .function (.ident name) (Param.allWritten params) (TypeExpr.resultWritten result)
  | .typeAlias (.other kind text) _ => .typeAlias (.other kind text) (.tuple [])
  | .typeAlias (.ident name) type => .typeAlias (.ident name) type.written
  | .enum name members => .enum name members
  | .variableDecls declared => .variableDecls (declared.map Variable.written)
  | .module => .module
  | .unsupported kind => .unsupported kind

/-! ### The module does not depend on the rest -/

theorem Member.isEmitted_written (member : Member) : member.written.isEmitted = member.isEmitted := by
  cases member with
  | property name => cases name <;> rfl
  | method name => cases name <;> rfl
  | constructor => rfl
  | unsupported => rfl

private theorem any_isEmitted_written (members : List Member) :
    (Member.allWritten members).any Member.isEmitted = members.any Member.isEmitted := by
  induction members with
  | nil => rfl
  | cons member rest ih => rw [Member.allWritten, List.any_cons, List.any_cons, member.isEmitted_written, ih]

private theorem any_isRest_bare (params : List Param) :
    (params.map Param.bare).any Param.isRest = params.any Param.isRest := by
  have hsame : Param.isRest ∘ Param.bare = Param.isRest := by
    funext param
    cases param
    rfl
  rw [List.any_map, hsame]

private theorem any_isRest_typesWritten (params : List Param) :
    (Param.typesWritten params).any Param.isRest = params.any Param.isRest := by
  induction params with
  | nil => rfl
  | cons param rest ih =>
    obtain ⟨name, type, optional, isRest⟩ := param
    rw [Param.typesWritten, List.any_cons, List.any_cons, ih]
    rfl

section

variable {style : Style}

mutual

theorem typeText_written (type : TypeExpr) : typeText style type.written = typeText style type := by
  match type with
  | .parenthesized inner => exact typeText_written inner
  | .function params result =>
    rw [TypeExpr.written, typeText, typeText, optionalTypeText_written result]
    cases hrest : params.any Param.isRest with
    | true => rw [if_pos rfl, any_isRest_bare, hrest]; rfl
    | false =>
      rw [if_neg Bool.false_ne_true, any_isRest_typesWritten, hrest, paramTypes_written params]
  | .union items => rw [TypeExpr.written, typeText, typeText, typeTexts_written items]
  | .intersection [] => rfl
  | .intersection (first :: _) => exact typeText_written first
  | .array element => rw [TypeExpr.written, typeText, typeText, typeText_written element]
  | .tuple [] => rfl
  | .tuple (first :: others) =>
    rw [TypeExpr.written, typeText, typeText, typeTexts_written (first :: others)]
    rfl
  | .members members =>
    rw [TypeExpr.written, typeText, typeText, any_isEmitted_written, memberEntries_written false members]
  | .reference name arguments =>
    rw [TypeExpr.written, typeText, typeText, typeTexts_written arguments]
  | .operator operator operand =>
    rw [TypeExpr.written, typeText, typeText]
    split
    · rfl
    · exact typeText_written operand
  | .keyword _ | .literal _ | .query _ | .indexedAccess | .unsupported _ => rfl

theorem typeTexts_written (types : List TypeExpr) :
    typeTexts style (TypeExpr.allWritten types) = typeTexts style types := by
  match types with
  | [] => rfl
  | type :: rest =>
    rw [TypeExpr.allWritten, typeTexts, typeTexts, typeText_written type, typeTexts_written rest]

theorem optionalTypeText_written (type : Option TypeExpr) :
    optionalTypeText style (TypeExpr.optionWritten type) = optionalTypeText style type := by
  match type with
  | some type => exact typeText_written type
  | none => rfl

theorem paramTypes_written (params : List Param) :
    paramTypes style (Param.typesWritten params) = paramTypes style params := by
  match params with
  | [] => rfl
  | .mk name type optional isRest :: rest =>
    rw [Param.typesWritten, paramTypes, paramTypes, optionalTypeText_written type, paramTypes_written rest]

theorem paramText_written (position : Nat) (param : Param) :
    paramText style position param.written = paramText style position param := by
  match param with
  | .mk name none optional rest =>
    rw [Param.written]
    split <;> rfl
  | .mk name (some type) optional rest =>
    by_cases hthis : name = .ident "this"
    · rw [Param.written, if_pos hthis, hthis]
      rfl
    · have htype := typeText_written type
      rw [Param.written, if_neg hthis, paramText, paramText]
      cases paramName? position name with
      | none => rfl
      | some text =>
        cases rest with
        | false =>
          simp only [TypeExpr.optionWritten, htype]
          rfl
        | true =>
          -- only an array has its element written
          cases type with
          | array element => exact congrArg (fun piece : Stubs String => do
              return some ("*" ++ text ++ ": " ++ (← piece))) (typeText_written element)
          | intersection items =>
            cases items <;> exact congrArg (fun piece : Stubs String => do
              return some ("*" ++ text ++ ": " ++ (← piece))) htype
          | _ => exact congrArg (fun piece : Stubs String => do
              return some ("*" ++ text ++ ": " ++ (← piece))) htype

theorem paramTexts_written (position : Nat) (params : List Param) :
    paramTexts style position (Param.allWritten params) = paramTexts style position params := by
  match params with
  | [] => rfl
  | param :: others =>
    rw [Param.allWritten, paramTexts, paramTexts, paramText_written position param,
      paramTexts_written (position + 1) others]

theorem resultText_written (type : Option TypeExpr) :
    resultText style (TypeExpr.resultWritten type) = resultText style type := by
  match type with
  | none => rfl
  | some (.reference name []) => rfl
  | some (.reference name (inner :: others)) =>
    rw [TypeExpr.resultWritten, resultText]
    by_cases hpromise : name = "Promise"
    · rw [if_pos hpromise, if_pos hpromise, resultText, if_pos hpromise, typeText_written inner]
    · rw [if_neg hpromise, if_neg hpromise, resultText, if_neg hpromise, ← TypeExpr.allWritten,
        typeTexts_written (inner :: others)]
  | some (.intersection items) =>
    have htype := typeText_written (.intersection items)
    cases items <;> exact congrArg (fun piece : Stubs String => do return (⟨"def", ← piece⟩ : Result)) htype
  | some (.keyword _) | some (.parenthesized _) | some (.function ..) | some (.union _) | some (.array _)
  | some (.tuple _) | some (.literal _) | some (.query _) | some (.members _) | some (.operator ..)
  | some .indexedAccess | some (.unsupported _) =>
    exact congrArg (fun piece : Stubs String => do return (⟨"def", ← piece⟩ : Result)) (typeText_written _)

theorem memberEntry_written (separate : Bool) (member : Member) :
    memberEntry style separate member.written = memberEntry style separate member := by
  match member with
  | .property (.other kind text) .. => rfl
  | .property (.ident name) type optional readonly static =>
    rw [Member.written, memberEntry, memberEntry, optionalTypeText_written type]
  | .method (.other kind text) .. => rfl
  | .method (.ident name) params result =>
    rw [Member.written, memberEntry, memberEntry, paramTexts_written 0 params, resultText_written result]
  | .constructor params => rw [Member.written, memberEntry, memberEntry, paramTexts_written 0 params]
  | .unsupported kind => rfl

theorem memberEntries_written (separate : Bool) (members : List Member) :
    memberEntries style separate (Member.allWritten members) = memberEntries style separate members := by
  match members with
  | [] => rfl
  | member :: rest =>
    rw [Member.allWritten, memberEntries, memberEntries, memberEntry_written separate member,
      member.isEmitted_written, memberEntries_written (separate || member.isEmitted) rest]

end

private theorem writeClass_written (isInterface : Bool) (decl : ClassDecl) :
    writeClass style isInterface decl.written = writeClass style isInterface decl := by
  obtain ⟨name, heritage, members⟩ := decl
  cases name with
  | other kind text => rfl
  | ident name =>
    have hbases : (heritage.map (·.map Base.written)).flatten.mapM (fun base : Base => do
          return referenceName base.name ++ argumentsText (← typeTexts style base.arguments)) =
        heritage.flatten.mapM fun base => do
          return referenceName base.name ++ argumentsText (← typeTexts style base.arguments) := by
      rw [← List.map_flatten, List.mapM_map]
      refine congrArg (heritage.flatten.mapM ·) (funext fun base => ?_)
      simp only [Function.comp_apply, Base.written, typeTexts_written]
    simp only [ClassDecl.written, writeClass, hbases, memberEntries_written, any_isEmitted_written]

private theorem writeVariable_written (declared : Variable) :
    writeVariable style declared.written = writeVariable style declared := by
  obtain ⟨name, type⟩ := declared
  cases name with
  | other kind text => rfl
  | ident name => simp only [Variable.written, writeVariable, optionalTypeText_written]

/-- A statement is written without what `written` leaves out of it. -/
theorem statementParts_written (statement : Statement) :
    statementParts style statement.written = statementParts style statement := by
  cases statement with
  | classDecl decl => exact writeClass_written false decl
  | interface decl => exact writeClass_written true decl
  | function name params result =>
    cases name with
    | other => rfl
    | ident name =>
      simp only [Statement.written, statementParts, writeFunction, paramTexts_written, resultText_written]
  | typeAlias name type =>
    cases name with
    | other => rfl
    | ident name => simp only [Statement.written, statementParts, writeTypeAlias, typeText_written]
  | enum | module | unsupported => rfl
  | variableDecls declared =>
    have hvariable : writeVariable style ∘ Variable.written = writeVariable style := funext writeVariable_written
    rw [Statement.written, statementParts, statementParts, List.mapM_map, hvariable]

end

theorem generate_written (options : DeclOptions) (statements : List Statement) :
    generate options (statements.map Statement.written) = generate options statements := by
  have hstatement : statementParts (.ofOptions options) ∘ Statement.written = statementParts (.ofOptions options) :=
    funext statementParts_written
  have hfile : fileParts (.ofOptions options) (statements.map Statement.written) =
      fileParts (.ofOptions options) statements := by
    rw [fileParts, fileParts, List.mapM_map, hstatement]
  rw [generate_eq, generate_eq, hfile]

/-! ### The text does not depend on what has no name -/

/-- The name of a declaration. -/
def Statement.name? : Statement → Option Name
  | .classDecl decl | .interface decl => some decl.name
  | .function name .. | .typeAlias name _ | .enum name _ => some name
  | .variableDecls _ | .module | .unsupported _ => none

/-- The statement, without the variables whose name is no identifier; nothing, if it is a declaration with such a
name. -/
def Statement.named (statement : Statement) : List Statement :=
  match statement.name?, statement with
  | some (.other ..), _ => []
  | _, .variableDecls declared => [.variableDecls (declared.filter (·.name.ident?.isSome))]
  | _, _ => [statement]

/-- The pieces have the same value, symbols and types wherever they stand, and may differ in what they report. -/
def Stubs.SameText {α : Type} (first second : Stubs α) : Prop :=
  ∀ count, (first count).2 = (second count).2 ∧ (first count).1.uses = (second count).1.uses ∧
    (first count).1.blocks = (second count).1.blocks

namespace Stubs.SameText

variable {α β : Type} {first second : Stubs α}

theorem refl (piece : Stubs α) : SameText piece piece := fun _ => ⟨rfl, rfl, rfl⟩

theorem bind (h : SameText first second) {next other : α → Stubs β}
    (hnext : ∀ value, SameText (next value) (other value)) : SameText (first >>= next) (second >>= other) := by
  intro count
  obtain ⟨hvalue, huses, hblocks⟩ := h count
  obtain ⟨hresult, hmore, hothers⟩ := hnext (second count).2 (count + (second count).1.blocks.length)
  simp only [Stubs.bind_apply, Log.uses_append, Log.blocks_append, hvalue, huses, hblocks, hresult, hmore, hothers,
    and_self]

/-- The parts of a list are those of the items that are left, if the others have none. -/
theorem flatten_mapM (items : List α) {keep : α → List α} {parts : α → Stubs (List β)}
    (h : ∀ item, SameText (do return (← (keep item).mapM parts).flatten) (parts item)) :
    SameText (do return (← (items.flatMap keep).mapM parts).flatten) (do return (← items.mapM parts).flatten) := by
  induction items with
  | nil => exact refl _
  | cons item rest ih =>
    have hfirst := (h item).bind fun first => ih.bind fun others => refl (pure (first ++ others))
    simp only [List.flatMap_cons, List.mapM_append, List.mapM_cons, bind_assoc, pure_bind, List.flatten_append,
      List.flatten_cons] at hfirst ⊢
    exact hfirst

end Stubs.SameText

private theorem sameText_variables (style : Style) (declared : List Variable) :
    Stubs.SameText (do return (← (declared.filter (·.name.ident?.isSome)).mapM (writeVariable style)).flatten)
      (do return (← declared.mapM (writeVariable style)).flatten) := by
  have hkeep : declared.filter (·.name.ident?.isSome) =
      declared.flatMap fun item => if item.name.ident?.isSome then [item] else [] := by
    induction declared with
    | nil => rfl
    | cons item rest ih =>
      rw [List.filter_cons, List.flatMap_cons, ih]
      split <;> rfl
  rw [hkeep]
  refine Stubs.SameText.flatten_mapM _ fun item => ?_
  obtain ⟨name, type⟩ := item
  cases name with
  | other kind text => exact fun count => ⟨rfl, rfl, rfl⟩
  | ident name => simpa [Name.ident?] using Stubs.SameText.refl (writeVariable style ⟨.ident name, type⟩)

private theorem sameText_named (style : Style) (statement : Statement) :
    Stubs.SameText (do return (← statement.named.mapM (statementParts style)).flatten)
      (statementParts style statement) := by
  have hkept : ∀ statement : Statement,
      (do return (← [statement].mapM (statementParts style)).flatten) = statementParts style statement := by
    intro statement
    simp
  cases statement with
  | classDecl decl | interface decl =>
    obtain ⟨name, heritage, members⟩ := decl
    cases name with
    | other kind text => exact fun count => ⟨rfl, rfl, rfl⟩
    | ident name => exact (hkept _).symm ▸ Stubs.SameText.refl _
  | function name params result | typeAlias name type | enum name members =>
    cases name with
    | other kind text => exact fun count => ⟨rfl, rfl, rfl⟩
    | ident name => exact (hkept _).symm ▸ Stubs.SameText.refl _
  | variableDecls declared => exact (hkept _).symm ▸ sameText_variables style declared
  | module | unsupported kind => exact (hkept _).symm ▸ Stubs.SameText.refl _

/-- The text of a module does not depend on the declarations whose name is no identifier. -/
theorem text_generate_named (options : DeclOptions) (statements : List Statement) :
    (generate options (statements.flatMap Statement.named)).text = (generate options statements).text := by
  have hparts := Stubs.SameText.flatten_mapM statements fun statement =>
    sameText_named (.ofOptions options) statement
  have hfile : Stubs.SameText (fileParts (.ofOptions options) (statements.flatMap Statement.named))
      (fileParts (.ofOptions options) statements) := by
    have h := hparts.bind fun parts =>
      Stubs.SameText.refl (do useDispatch "singledispatch" (parts.map Part.toEntry); return parts)
    simpa only [fileParts, bind_assoc, pure_bind] using h
  obtain ⟨hvalue, huses, hblocks⟩ := hfile 0
  rw [generate_eq, generate_eq]
  simp only [document, hvalue, huses, hblocks]

/-! ### What is written is reported -/

/-- The kinds are those of reports among these, in this order. -/
def Reported (kinds : List String) (reports : List Diagnostic) : Prop := kinds.Sublist (reports.map Diagnostic.kind)

theorem Reported.nil (reports : List Diagnostic) : Reported [] reports := List.nil_sublist _

theorem Reported.append {kinds others : List String} {reports more : List Diagnostic} (h : Reported kinds reports)
    (hmore : Reported others more) : Reported (kinds ++ others) (reports ++ more) := by
  rw [Reported, List.map_append]
  exact List.Sublist.append h hmore

theorem Reported.flatMap {α : Type} {items : List α} {kinds : α → List String} {reports : α → List Diagnostic}
    (h : ∀ item, Reported (kinds item) (reports item)) : Reported (items.flatMap kinds) (items.flatMap reports) := by
  induction items with
  | nil => exact .nil []
  | cons item rest ih => exact (h item).append ih

private theorem allKinds_bare (params : List Param) : Param.allKinds (params.map Param.bare) = [] := by
  induction params with
  | nil => rfl
  | cons param rest ih =>
    obtain ⟨name, type, optional, isRest⟩ := param
    rw [List.map_cons, Param.allKinds, ih]
    rfl

private theorem reported_literal (literal : Literal) : Reported literal.kinds literal.reports := by
  cases literal <;> exact List.Sublist.refl _

mutual

theorem TypeExpr.reported (type : TypeExpr) : Reported type.written.kinds type.reports := by
  match type with
  | .parenthesized inner => exact inner.reported
  | .function params result =>
    rw [TypeExpr.written, TypeExpr.kinds, TypeExpr.reports]
    refine (TypeExpr.optionReported result).append ?_
    cases params.any Param.isRest with
    | true =>
      rw [if_pos rfl, allKinds_bare]
      exact .nil _
    | false => exact Param.typesReported params
  | .union items => exact TypeExpr.allReported items
  | .intersection [] => exact .nil _
  | .intersection (first :: _) =>
    rw [TypeExpr.written, TypeExpr.kinds, TypeExpr.allKinds, TypeExpr.allKinds, List.append_nil]
    exact first.reported
  | .array element => exact element.reported
  | .tuple items => exact TypeExpr.allReported items
  | .literal value => exact reported_literal value
  | .members members => exact Member.allReported members
  | .reference name arguments => exact TypeExpr.allReported arguments
  | .operator operator operand =>
    rw [TypeExpr.written, TypeExpr.kinds, TypeExpr.reports]
    split
    · exact .nil _
    · exact operand.reported
  | .keyword _ | .query _ | .indexedAccess => exact .nil _
  | .unsupported kind => exact List.Sublist.refl _

theorem TypeExpr.allReported (types : List TypeExpr) :
    Reported (TypeExpr.allKinds (TypeExpr.allWritten types)) (TypeExpr.allReports types) := by
  match types with
  | [] => exact .nil _
  | type :: rest => exact type.reported.append (TypeExpr.allReported rest)

theorem TypeExpr.optionReported (type : Option TypeExpr) :
    Reported (TypeExpr.optionKinds (TypeExpr.optionWritten type)) (TypeExpr.optionReports type) := by
  match type with
  | none => exact .nil _
  | some type => exact type.reported

theorem Param.typesReported (params : List Param) :
    Reported (Param.allKinds (Param.typesWritten params)) (Param.typeReports params) := by
  match params with
  | [] => exact .nil _
  | .mk _ type _ _ :: rest => exact (TypeExpr.optionReported type).append (Param.typesReported rest)

theorem Param.reported (param : Param) : Reported param.written.kinds param.reports := by
  match param with
  | .mk name type _ _ =>
    rw [Param.written, Param.kinds, Param.reports]
    split
    · exact .nil _
    · exact TypeExpr.optionReported type

theorem Param.allReported (params : List Param) :
    Reported (Param.allKinds (Param.allWritten params)) (Param.allReports params) := by
  match params with
  | [] => exact .nil _
  | param :: others => exact param.reported.append (Param.allReported others)

theorem TypeExpr.resultReported (type : Option TypeExpr) :
    Reported (TypeExpr.optionKinds (TypeExpr.resultWritten type)) (TypeExpr.resultReports type) := by
  match type with
  | none => exact .nil _
  | some (.reference name []) => exact .nil _
  | some (.reference name (inner :: others)) =>
    rw [TypeExpr.resultWritten, TypeExpr.resultReports, TypeExpr.optionKinds, TypeExpr.kinds]
    split
    · rw [TypeExpr.allKinds, TypeExpr.allKinds, List.append_nil]
      exact inner.reported
    · exact TypeExpr.allReported (inner :: others)
  | some (.intersection items) =>
    have htype := (TypeExpr.intersection items).reported
    cases items <;> exact htype
  | some (.keyword _) | some (.parenthesized _) | some (.function ..) | some (.union _) | some (.array _)
  | some (.tuple _) | some (.literal _) | some (.query _) | some (.members _) | some (.operator ..)
  | some .indexedAccess | some (.unsupported _) =>
    exact TypeExpr.reported _

theorem Member.reported (member : Member) : Reported member.written.kinds member.reports := by
  match member with
  | .property (.other ..) .. => exact .nil _
  | .property (.ident _) type .. => exact TypeExpr.optionReported type
  | .method (.other ..) .. => exact .nil _
  | .method (.ident _) params result => exact (Param.allReported params).append (TypeExpr.resultReported result)
  | .constructor params => exact Param.allReported params
  | .unsupported kind => exact List.Sublist.refl _

theorem Member.allReported (members : List Member) :
    Reported (Member.allKinds (Member.allWritten members)) (Member.allReports members) := by
  match members with
  | [] => exact .nil _
  | member :: rest => exact member.reported.append (Member.allReported rest)

end

private theorem ClassDecl.reported (decl : ClassDecl) : Reported decl.written.kinds decl.reports := by
  obtain ⟨name, heritage, members⟩ := decl
  cases name with
  | other kind text => exact .nil _
  | ident name =>
    rw [ClassDecl.kinds, ClassDecl.written, ClassDecl.reports, ← List.map_flatten, List.flatMap_map]
    exact (Reported.flatMap fun base : Base => TypeExpr.allReported base.arguments).append (Member.allReported members)

/-- The kinds of the unsupported nodes in what is written of a variable, or the report on the variable itself. -/
def Variable.lost (declared : Variable) : List String :=
  match declared.name with
  | .other .. => ["VariableStatement"]
  | .ident _ => TypeExpr.optionKinds declared.written.type

/-- The kinds of the unsupported nodes in what is written of a statement, and those of declarations whose name is no
identifier. -/
def Statement.lost : Statement → List String
  | .classDecl ⟨.other kind _, _, _⟩ | .interface ⟨.other kind _, _, _⟩ => [kind]
  | .function (.other ..) .. => ["FunctionDeclaration"]
  | .typeAlias (.other ..) _ => ["TypeAliasDeclaration"]
  | .enum (.other ..) _ => ["EnumDeclaration"]
  | .variableDecls declared => declared.flatMap Variable.lost
  | statement => statement.written.kinds

private theorem Variable.reported (declared : Variable) : Reported declared.lost declared.reports := by
  obtain ⟨name, type⟩ := declared
  cases name with
  | other kind text => exact List.Sublist.refl _
  | ident name => exact TypeExpr.optionReported type

theorem Statement.reported (statement : Statement) : Reported statement.lost statement.reports := by
  cases statement with
  | classDecl decl | interface decl =>
    obtain ⟨name, heritage, members⟩ := decl
    cases name with
    | other kind text => exact List.Sublist.refl _
    | ident name => exact ClassDecl.reported ⟨.ident name, heritage, members⟩
  | function name params result =>
    cases name with
    | other => exact List.Sublist.refl _
    | ident name => exact (Param.allReported params).append (TypeExpr.resultReported result)
  | typeAlias name type =>
    cases name with
    | other => exact List.Sublist.refl _
    | ident name => exact type.reported
  | enum name members =>
    cases name with
    | other => exact List.Sublist.refl _
    | ident name => exact .nil _
  | module => exact .nil _
  | variableDecls declared => exact Reported.flatMap Variable.reported
  | unsupported kind => exact List.Sublist.refl _

/-- The kinds of the unsupported nodes in what is written of a file are reported, and so is each declaration whose name
is no identifier, all in their order.  What is not written of the file makes no difference, and such a declaration makes
none to the text. -/
theorem kinds_written_reported (options : DeclOptions) (statements : List Statement) :
    generate options (statements.map Statement.written) = generate options statements ∧
      (generate options (statements.flatMap Statement.named)).text = (generate options statements).text ∧
      (statements.flatMap Statement.lost).Sublist ((generate options statements).diagnostics.map Diagnostic.kind) := by
  refine ⟨generate_written options statements, text_generate_named options statements, ?_⟩
  rw [diagnostics_generate]
  exact Reported.flatMap Statement.reported

/-- `export default class { [key: string]: number }`. -/
def namelessClass : Statement :=
  .classDecl ⟨.other "ClassDeclaration" "(anonymous)", [], [.unsupported "IndexSignature"]⟩

/-- The members of a class without a name are not reported. -/
theorem kinds_unreported :
    [namelessClass].flatMap Statement.kinds = ["IndexSignature"] ∧
      (generate {} [namelessClass]).diagnostics.map Diagnostic.kind = ["ClassDeclaration"] := by
  rw [diagnostics_generate]
  exact ⟨rfl, rfl⟩

end StubGen.DeclFile

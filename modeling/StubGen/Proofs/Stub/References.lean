import Mathlib.Data.List.TakeWhile
import StubGen.Proofs.Name.Capital
import StubGen.Proofs.Stub.Written

/-!
# Names of types in declarations and in references

A type is declared under its cased and escaped name, and a reference to it has the cased name, with its arguments in
brackets.

* `DefinesType` is the part of a body that defines a type: a class with its bases, an enumeration or an alias.
* `definesType_statementParts` and `refersTo_typeText` say which names the generator writes.
* The two names are one, except for the reserved words that begin with a capital (`references_agree_iff`).
-/

namespace StubGen.DeclFile

/-- The text of a reference: the name of a type, and its arguments in brackets if there are any. -/
def RefersTo (name text : String) : Prop := ∃ arguments, text = name ++ argumentsText arguments

/-- The header of a class with these bases. -/
inductive IsHeader (name : String) (bases : List String) : String → Prop
  | derived : bases ≠ [] → IsHeader name bases ("class " ++ name ++ "(" ++ ", ".intercalate bases ++ "):")
  | protocol : bases = [] → IsHeader name bases ("class " ++ name ++ "(" ++ "Protocol" ++ "):")
  | plain : bases = [] → IsHeader name bases ("class " ++ name ++ ":")

/-- The part defines a type that extends these bases. -/
inductive DefinesType (name : String) (bases : List Base) : Part → Prop
  | scope {decl : ClassCode} {texts : List String} :
      List.Forall₂ (fun base text => RefersTo (referenceName base.name) text) bases texts →
      IsHeader name texts decl.header → DefinesType name bases (.scope decl)
  | enum (body : List Code) : bases = [] →
      DefinesType name bases (.entry (.plain [.blank 2, .suite ("class " ++ name ++ "(Enum):") body]))
  | typeAlias (text : String) : bases = [] →
      DefinesType name bases (.entry (.plain [.blank 2, .line (name ++ " = " ++ text)]))

/-- The statement declares a type that extends these bases. -/
inductive DeclaresType (name : String) : List Base → Statement → Prop
  | classDecl (heritage : List (List Base)) (members : List Member) :
      DeclaresType name heritage.flatten (.classDecl ⟨.ident name, heritage, members⟩)
  | interface (heritage : List (List Base)) (members : List Member) :
      DeclaresType name heritage.flatten (.interface ⟨.ident name, heritage, members⟩)
  | enum (members : List EnumMember) : DeclaresType name [] (.enum (.ident name) members)
  | typeAlias (type : TypeExpr) : DeclaresType name [] (.typeAlias (.ident name) type)

/-! ### Declarations -/

section Declarations

variable {style : Style} {name : String}

theorem eq_typing (symbol : String) : (typing symbol).Ensures (fun _ => True) (· = symbol) :=
  fun _ => ⟨fun _ _ => trivial, rfl⟩

theorem isHeader_classHeader (name : String) (bases : List String) (isInterface : Bool) :
    (classHeader name bases isInterface).Ensures (fun _ => True) (IsHeader name bases) := by
  unfold classHeader
  cases bases with
  | cons base others => exact .pure (.derived (List.cons_ne_nil base others))
  | nil =>
    cases isInterface with
    | true => exact (eq_typing "Protocol").map fun text htext => htext ▸ .protocol rfl
    | false => exact .pure (.plain rfl)

/-- The bases of a class are references to them. -/
private theorem refersTo_bases (style : Style) (bases : List Base) :
    Stubs.Ensures (fun _ => True) (List.Forall₂ (fun base text => RefersTo (referenceName base.name) text) bases)
      (bases.mapM fun base => do
        return referenceName base.name ++ argumentsText (← typeTexts style base.arguments)) :=
  Stubs.Ensures.mapM fun base _ =>
    (Stubs.Ensures.trivial (typeTexts style base.arguments)).map fun arguments _ => ⟨arguments, rfl⟩

private theorem definesType_writeClass (style : Style) (isInterface : Bool) (heritage : List (List Base))
    (members : List Member) :
    (writeClass style isInterface ⟨.ident name, heritage, members⟩).Ensures (fun _ => True) fun parts =>
      ∃ part, parts = [part] ∧ DefinesType (Recased.pascal name).name heritage.flatten part := by
  have hcode : Stubs.Ensures (fun _ => True)
      (fun decl => DefinesType (Recased.pascal name).name heritage.flatten (.scope decl))
      (classCode style (.pascal name) (heritage.flatten.mapM fun base => do
        return referenceName base.name ++ argumentsText (← typeTexts style base.arguments)) isInterface
        (memberEntries style false members) (!members.any Member.isEmitted)) := by
    refine (Stubs.Ensures.use _).bind fun _ _ => (Stubs.Ensures.trivial _).bind fun aliases _ => ?_
    refine (refersTo_bases style heritage.flatten).bind fun texts htexts => ?_
    refine (isHeader_classHeader _ texts isInterface).bind fun header hheader => ?_
    refine (Stubs.Ensures.trivial _).bind fun entries _ => (Stubs.Ensures.useDispatch _ _).bind fun _ _ => ?_
    exact .pure (.scope htexts hheader)
  exact hcode.map fun code hdefines => ⟨.scope code, rfl, hdefines⟩

/-- A statement that declares a type becomes one part, which defines the type under its cased and escaped name. -/
theorem definesType_statementParts {bases : List Base} {statement : Statement}
    (h : DeclaresType name bases statement) : (statementParts style statement).Ensures (fun _ => True) fun parts =>
      ∃ part, parts = [part] ∧ DefinesType (Recased.pascal name).name bases part := by
  cases h with
  | classDecl heritage members => exact definesType_writeClass style false heritage members
  | interface heritage members => exact definesType_writeClass style true heritage members
  | enum members =>
    exact (Stubs.Ensures.use _).bind fun _ _ => (Stubs.Ensures.trivial _).map fun lines _ =>
      ⟨_, rfl, .enum _ rfl⟩
  | typeAlias type => exact (Stubs.Ensures.trivial _).map fun text _ => ⟨_, rfl, .typeAlias text rfl⟩

end Declarations

/-! ### References -/

section References

variable {style : Style} {name : String}

private theorem refersTo_referenceText (h : HostType.ofReference? name = none) (arguments : Stubs (List String)) :
    (referenceText name arguments).Ensures (fun _ => True) (RefersTo (referenceName name)) := by
  have hhead : referenceHead name = pure (referenceName name) := by rw [referenceHead, h]
  rw [referenceText, hhead, pure_bind]
  exact (Stubs.Ensures.trivial arguments).map fun texts _ => ⟨texts, rfl⟩

theorem refersTo_typeText (h : HostType.ofReference? name = none) (arguments : List TypeExpr) :
    (typeText style (.reference name arguments)).Ensures (fun _ => True) (RefersTo (referenceName name)) :=
  refersTo_referenceText h _

/-- A function's result refers to its type like any annotation, unless it is a promise. -/
theorem refersTo_resultText (h : HostType.ofReference? name = none) (arguments : List TypeExpr) :
    (resultText style (some (.reference name arguments))).Ensures (fun _ => True) fun result =>
      RefersTo (referenceName name) result.type := by
  -- a promise is in the table of well-known types
  have hpromise : name ≠ "Promise" := by
    rintro rfl
    cases h
  cases arguments with
  | nil =>
    rw [resultText, if_neg hpromise]
    exact (refersTo_referenceText h _).map fun _ htext => htext
  | cons inner others =>
    rw [resultText, if_neg hpromise]
    exact (refersTo_referenceText h _).map fun _ htext => htext

/-- Without a dot the whole name is cased. -/
theorem referenceName_of_notMem (h : '.' ∉ name.toList) : referenceName name = pascalCase name := by
  have hlast : (name.toList.reverse.takeWhile (· ≠ '.')).reverse = name.toList := by
    have hall : ∀ c ∈ name.toList.reverse, decide (c ≠ '.') = true :=
      fun c hc => decide_eq_true fun heq => h (heq ▸ List.mem_reverse.mp hc)
    rw [List.takeWhile_eq_self_iff.mpr hall, List.reverse_reverse]
  dsimp only [referenceName]
  rw [hlast, Nat.sub_self, List.take_zero, List.nil_append]
  rfl

end References

/-- A type is declared under its cased and escaped name, and what refers to it has the cased name.  These are the same
except for three reserved words. -/
theorem references_agree_iff (style : Style) {name : String} (hdot : '.' ∉ name.toList) :
    (∀ bases statement, DeclaresType name bases statement → ∀ count, ∃ part,
      (statementParts style statement count).2 = [part] ∧ DefinesType (Recased.pascal name).name bases part) ∧
    (HostType.ofReference? name = none → ∀ arguments count,
      RefersTo (referenceName name) (typeText style (.reference name arguments) count).2 ∧
      RefersTo (referenceName name) (resultText style (some (.reference name arguments)) count).2.type) ∧
    ((Recased.pascal name).name = referenceName name ↔ pascalCase name ∉ ["False", "None", "True"]) := by
  refine ⟨fun bases statement h count => (definesType_statementParts h count).2, fun h arguments count => ⟨?_, ?_⟩, ?_⟩
  · exact (refersTo_typeText h arguments count).2
  · exact (refersTo_resultText h arguments count).2
  · rw [referenceName_of_notMem hdot]
    exact Recased.name_pascal_eq_iff name

/-- An interface is declared under the name that references to it have. -/
theorem references_agree_myType : '.' ∉ "my_type".toList ∧ ∃ part,
    (statementParts (.ofOptions {}) (.interface ⟨.ident "my_type", [], []⟩) 0).2 = [part] ∧
      DefinesType (referenceName "my_type") [] part := by
  have hdot : '.' ∉ "my_type".toList := by decide
  obtain ⟨hdeclared, -, hagree⟩ := references_agree_iff (.ofOptions {}) hdot
  have hname : (Recased.pascal "my_type").name = referenceName "my_type" := hagree.mpr (by decide +kernel)
  rw [← hname]
  exact ⟨hdot, hdeclared _ _ (.interface [] []) 0⟩

/-- `interface None { }` and `declare const x: None` -/
def noneFile : List Statement := [
  .interface ⟨.ident "None", [], []⟩,
  .variableDecls [⟨.ident "x", some (.reference "None" [])⟩]]

/-- The interface is declared under another name than the one in the annotation. -/
theorem references_differ_noneFile : HostType.ofReference? "None" = none ∧ '.' ∉ "None".toList ∧
    (Recased.pascal "None").name ≠ referenceName "None" ∧
    (generate {} noneFile).text = "\n".intercalate ["from bindport.runtime import external, alias",
      "from typing import Protocol", "", "", "@external", "@alias('None')", "class None_(Protocol):", "    ...", "", "",
      "x: None", ""] := by
  refine ⟨by decide, by decide, by decide +kernel, by decide +kernel⟩

end StubGen.DeclFile

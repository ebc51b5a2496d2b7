import Mathlib.Data.List.Infix
import StubGen.Proofs.Emission.Writers
import StubGen.Proofs.Jump.Code

/-!
# Enumerators in the output

Enumerations stand in types, and the writers lift them out of a type in some places and drop the type in others.

* `Occurs` says that an enumeration stands somewhere in the types of a node, and `IsLifted` that it stands at a place
  from which it is lifted: a declaration of its own, the type of a variable, of a result or of a parameter behind
  pointers and arrays, or what a type definition names.
* `AreBound` holds of lines that bind all enumerators of an enumeration, one after the other.
* The enumerators of every lifted enumeration are bound, under all options (`areBound_of_isLifted`).  Prototypes and
  structures that are not wanted leave none (`isDropped_prototype_and_colored`).
-/

namespace StubGen.CUnit

open Traced

variable {enumerators : List Node}

/-- Somewhere in the types of a node stands an enumeration with these enumerators. -/
inductive Occurs (enumerators : List Node) : Node → Prop
  | here (tag : Option String) : Occurs enumerators (.enum tag (some (.enumeratorList enumerators)))
  | typeDecl (name : Option String) {type : Node} : Occurs enumerators type → Occurs enumerators (.typeDecl name type)
  | typename (name : Option String) {type : Node} : Occurs enumerators type → Occurs enumerators (.typename name type)
  | pointer {target : Node} : Occurs enumerators target → Occurs enumerators (.pointer target)
  | array {element : Node} (size : Option Node) : Occurs enumerators element → Occurs enumerators (.array element size)
  | structMember (tag : Option String) {members : List Node} {member : Node} : member ∈ members →
      Occurs enumerators member → Occurs enumerators (.struct tag (some members))
  | unionMember (tag : Option String) {members : List Node} {member : Node} : member ∈ members →
      Occurs enumerators member → Occurs enumerators (.union tag (some members))
  | result (params : Option Node) {result : Node} :
      Occurs enumerators result → Occurs enumerators (.functionType params result)
  | param {params : List Node} {param : Node} (result : Node) : param ∈ params →
      Occurs enumerators param → Occurs enumerators (.functionType (some (.paramList params)) result)
  | decl (name : Option String) (quals storage : List String) {type : Node} (init width : Option Node) :
      Occurs enumerators type → Occurs enumerators (.decl name quals storage type init width)
  | typedef (name : String) {type : Node} : Occurs enumerators type → Occurs enumerators (.typedef name type)
  | function {decl : Node} (paramDecls : List Node) (body : Node) :
      Occurs enumerators decl → Occurs enumerators (.function decl paramDecls body)

/-- The type is an enumeration with these enumerators, behind any declarators, pointers and arrays. -/
inductive EndsIn (enumerators : List Node) : Node → Prop
  | here (tag : Option String) : EndsIn enumerators (.enum tag (some (.enumeratorList enumerators)))
  | typeDecl (name : Option String) {type : Node} : EndsIn enumerators type → EndsIn enumerators (.typeDecl name type)
  | pointer {target : Node} : EndsIn enumerators target → EndsIn enumerators (.pointer target)
  | array {element : Node} (size : Option Node) : EndsIn enumerators element → EndsIn enumerators (.array element size)

/-- The item of a unit has an enumeration with these enumerators at a place from which it is lifted. -/
inductive IsLifted (enumerators : List Node) : Node → Prop
  | declared (quals storage : List String) (tag : Option String) (init width : Option Node) :
      IsLifted enumerators (.decl none quals storage (.enum tag (some (.enumeratorList enumerators))) init width)
  | variable (name : String) (quals storage : List String) {type : Node} (init width : Option Node) :
      EndsIn enumerators type → IsLifted enumerators (.decl (some name) quals storage type init width)
  | typedef (name : String) {type : Node} (tag : Option String) :
      definedType type = .enum tag (some (.enumeratorList enumerators)) → IsLifted enumerators (.typedef name type)
  | result (name : String) (quals storage : List String) (params : Option Node) {result : Node}
      (init width : Option Node) (paramDecls : List Node) (body : Node) : EndsIn enumerators result →
      IsLifted enumerators (.function (.decl (some name) quals storage (.functionType params result) init width)
        paramDecls body)
  | param (name : String) (quals storage : List String) {params : List Node} (result : Node) (init width : Option Node)
      (paramDecls : List Node) (body : Node) (param : Option String) (paramQuals paramStorage : List String)
      {type : Node} (paramInit paramWidth : Option Node) :
      .decl param paramQuals paramStorage type paramInit paramWidth ∈ params → EndsIn enumerators type →
      IsLifted enumerators (.function
        (.decl (some name) quals storage (.functionType (some (.paramList params)) result) init width) paramDecls body)

theorem EndsIn.occurs {type : Node} (h : EndsIn enumerators type) : Occurs enumerators type := by
  induction h with
  | here tag => exact .here tag
  | typeDecl name _ ih => exact .typeDecl name ih
  | pointer _ ih => exact .pointer ih
  | array size _ ih => exact .array size ih

/-- A lifted enumeration stands in the types of the item. -/
theorem IsLifted.occurs {item : Node} (h : IsLifted enumerators item) : Occurs enumerators item := by
  cases h with
  | declared quals storage tag init width => exact .decl none quals storage init width (.here tag)
  | «variable» name quals storage init width htype => exact .decl _ quals storage init width htype.occurs
  | typedef name tag htype =>
    refine .typedef name ?_
    unfold definedType at htype
    split at htype
    · exact .typeDecl _ (htype ▸ .here tag)
    · exact htype ▸ .here tag
  | result name quals storage params init width paramDecls body hresult =>
    exact .function _ _ (.decl _ quals storage init width (.result params hresult.occurs))
  | param name quals storage result init width paramDecls body param paramQuals paramStorage paramInit paramWidth hparam
      htype =>
    exact .function _ _ (.decl _ quals storage init width (.param result hparam (.decl _ _ _ _ _ htype.occurs)))

/-! ### Bindings -/

/-- A line at a depth that binds an enumerator. -/
inductive IsBinding (depth : Nat) : Node → String → Prop
  | binding (name : String) (value : Option Node) (text : String) :
      IsBinding depth (.enumerator name value) (indented depth (escapeName name ++ " = " ++ text))

/-- Among the lines are those that bind the enumerators, one after the other. -/
def AreBound (enumerators : List Node) (lines : List String) : Prop :=
  ∃ depth bindings, List.Forall₂ (IsBinding depth) enumerators bindings ∧ bindings <:+: lines

theorem AreBound.mono {lines more : List String} (h : AreBound enumerators lines) (hmore : lines <:+: more) :
    AreBound enumerators more := by
  obtain ⟨depth, bindings, hbindings, hwithin⟩ := h
  exact ⟨depth, bindings, hbindings, hwithin.trans hmore⟩

variable {options : UnitOptions} {context : Context} {code : List Code}

private theorem infix_linesAt {first : List Code} (depth : Nat) (h : first <:+: code) :
    Code.allLinesAt depth first <:+: Code.allLinesAt depth code := by
  obtain ⟨before, after, rfl⟩ := h
  rw [Code.allLinesAt_append, Code.allLinesAt_append]
  exact ⟨_, _, rfl⟩

/-- The constants of an enumeration are the bindings of its enumerators. -/
theorem isBinding_writeEnumerators {reduce : Bool} {previous : Option Enumerated} (depth : Nat)
    (hcode : (writeEnumerators reduce previous enumerators).result = .ok code) :
    List.Forall₂ (IsBinding depth) enumerators (Code.allLinesAt depth code) := by
  induction enumerators generalizing previous code with
  | nil =>
    cases hcode
    exact .nil
  | cons enumerator rest ih =>
    obtain ⟨name, value, text, number, others, rfl, -, hothers, rfl⟩ := writeEnumerators_cons_ok hcode
    exact .cons (.binding name value text) (ih hothers)

/-- An enumeration binds its enumerators, whether it is a class or constants. -/
theorem areBound_writeEnum {reduce : Bool} {tag : Option String} (depth : Nat)
    (hcode : (writeEnum reduce context tag (.enumeratorList enumerators)).result = .ok code) :
    AreBound enumerators (Code.allLinesAt depth code) := by
  cases tag with
  | none => exact ⟨depth, _, isBinding_writeEnumerators depth hcode, List.infix_rfl⟩
  | some tag =>
    obtain ⟨_, -, hcode⟩ := bind_eq_ok.mp hcode
    obtain ⟨body, hbody, hcode⟩ := bind_eq_ok.mp hcode
    cases hcode
    have hbindings := isBinding_writeEnumerators (depth + 1) hbody
    refine ⟨depth + 1, _, hbindings, ?_⟩
    by_cases hempty : body = []
    · rw [hempty]
      exact List.nil_infix
    · -- a class with constants has no `pass`
      have hpass : Code.orPass body = body := by simp [Code.orPass, hempty]
      rw [classCode, hpass, Code.allLinesAt_append]
      refine List.IsInfix.trans ?_ (List.suffix_append _ _).isInfix
      simp only [Code.allLinesAt, Code.linesAt, List.append_nil]
      exact (List.suffix_cons _ _).isInfix

private theorem areBound_writeInnerDefinitions {type : Node} (depth : Nat) (h : EndsIn enumerators type)
    (hcode : (writeInnerDefinitions options context type).result = .ok code) :
    AreBound enumerators (Code.allLinesAt depth code) := by
  induction h with
  | here tag => exact areBound_writeEnum depth hcode
  | typeDecl name _ ih => exact ih hcode
  | pointer _ ih => exact ih hcode
  | array size _ ih => exact ih hcode

private theorem areBound_writeVariable {name : String} {quals storage : List String} {type : Node}
    {init width : Option Node} (depth : Nat) (h : EndsIn enumerators type)
    (hcode : (writeDecl options context (.decl (some name) quals storage type init width)).result = .ok code) :
    AreBound enumerators (Code.allLinesAt depth code) := by
  -- a type that ends in an enumeration is no function, so the declaration is no prototype
  have hfunction : ∀ params result, type ≠ .functionType params result := by
    intro params result heq
    subst heq
    cases h
  rw [writeDecl] at hcode
  · obtain ⟨inner, hinner, hcode⟩ := bind_eq_ok.mp hcode
    have hbound : AreBound enumerators (Code.allLinesAt depth inner) := areBound_writeInnerDefinitions depth h hinner
    have hline : ∃ line, code = inner ++ line := by
      cases init with
      | none =>
        obtain ⟨line, -, hcode⟩ := bind_eq_ok.mp hcode
        cases hcode
        exact ⟨line, rfl⟩
      | some init =>
        obtain ⟨line, -, hcode⟩ := bind_eq_ok.mp hcode
        cases hcode
        exact ⟨line, rfl⟩
    obtain ⟨line, rfl⟩ := hline
    exact hbound.mono (infix_linesAt depth (List.prefix_append inner line).isInfix)
  · exact hfunction

private theorem areBound_writeParamDefinitions {params : List Node} {name : Option String}
    {quals storage : List String} {type : Node} {init width : Option Node} (depth : Nat)
    (hparam : .decl name quals storage type init width ∈ params) (h : EndsIn enumerators type)
    (hcode : (writeParamDefinitions options context (some (.paramList params))).result = .ok code) :
    AreBound enumerators (Code.allLinesAt depth code) := by
  obtain ⟨inner, hinner, hcode⟩ := bind_eq_ok.mp hcode
  cases hcode
  obtain ⟨part, hpart, hresult⟩ := exists_mem_of_mapM_eq_ok hinner _ hparam
  have hbound : AreBound enumerators (Code.allLinesAt depth part) := areBound_writeInnerDefinitions depth h hresult
  exact hbound.mono (infix_linesAt depth (List.infix_of_mem_flatten hpart))

/-- A function has the enumerations of its result and of its parameters ahead of it. -/
private theorem writeExternal_function_ok {name : String} {quals storage : List String} {params : Option Node}
    {result : Node} {init width : Option Node} {paramDecls : List Node} {body : Node}
    (hcode : (writeExternal options context (.function
      (.decl (some name) quals storage (.functionType params result) init width) paramDecls body)).result = .ok code) :
    ∃ resultTypes paramTypes rest,
      (writeInnerDefinitions options (context.withRole .signature) result).result = .ok resultTypes ∧
      (writeParamDefinitions options (context.withRole .params) params).result = .ok paramTypes ∧
      code = resultTypes ++ (paramTypes ++ rest) := by
  obtain ⟨⟨ahead, head⟩, hsignature, hcode⟩ := bind_eq_ok.mp hcode
  obtain ⟨bodyCode, -, hcode⟩ := bind_eq_ok.mp hcode
  cases hcode
  obtain ⟨resultTypes, hresult, hsignature⟩ := bind_eq_ok.mp hsignature
  obtain ⟨paramTypes, hparams, hsignature⟩ := bind_eq_ok.mp hsignature
  obtain ⟨text, -, hsignature⟩ := bind_eq_ok.mp hsignature
  cases hsignature
  refine ⟨resultTypes, paramTypes, [.blank 2, .suite head (Code.orPass bodyCode)], hresult, hparams, ?_⟩
  rw [List.append_assoc, List.append_assoc]
  rfl

private theorem areBound_writeExternal {item : Node} (depth : Nat) (h : IsLifted enumerators item)
    (hcode : (writeExternal options context item).result = .ok code) :
    AreBound enumerators (Code.allLinesAt depth code) := by
  cases h with
  | declared quals storage tag init width => exact areBound_writeEnum depth hcode
  | «variable» name quals storage init width htype => exact areBound_writeVariable depth htype hcode
  | typedef name tag htype =>
    rw [writeExternal, writeTypedef, htype] at hcode
    exact areBound_writeEnum depth hcode
  | result name quals storage params init width paramDecls body hresult =>
    obtain ⟨resultTypes, paramTypes, rest, hresultTypes, -, rfl⟩ := writeExternal_function_ok hcode
    have hbound : AreBound enumerators (Code.allLinesAt depth resultTypes) :=
      areBound_writeInnerDefinitions depth hresult hresultTypes
    exact hbound.mono (infix_linesAt depth (List.prefix_append _ _).isInfix)
  | param name quals storage result init width paramDecls body param paramQuals paramStorage paramInit paramWidth hparam
      htype =>
    obtain ⟨resultTypes, paramTypes, rest, -, hparamTypes, rfl⟩ := writeExternal_function_ok hcode
    have hbound : AreBound enumerators (Code.allLinesAt depth paramTypes) :=
      areBound_writeParamDefinitions depth hparam htype hparamTypes
    refine hbound.mono (infix_linesAt depth ⟨resultTypes, rest, ?_⟩)
    rw [List.append_assoc]

/-- The code of a unit contains the code of each of its items. -/
private theorem infix_writeExternals {items : List Node} {item : Node} (hitem : item ∈ items)
    (hcode : (writeExternals options items).result = .ok code) :
    ∃ part, (writeExternal options .outermost item).result = .ok part ∧ part <:+: code := by
  induction items generalizing code with
  | nil => cases hitem
  | cons first rest ih =>
    obtain ⟨part, hpart, hcode⟩ := bind_eq_ok.mp hcode
    obtain ⟨others, hothers, hcode⟩ := bind_eq_ok.mp hcode
    cases hcode
    rcases List.mem_cons.mp hitem with rfl | hrest
    · exact ⟨part, hpart, (List.prefix_append _ _).isInfix⟩
    · obtain ⟨other, hother, hwithin⟩ := ih hrest hothers
      exact ⟨other, hother, hwithin.trans (List.suffix_append _ _).isInfix⟩

/-- The enumerators of every enumeration that is lifted out of an item of a unit are bound in the unit's output. -/
theorem areBound_of_isLifted {items : List Node} {document : Document}
    (hdocument : generate options (.unit items) = .ok document) {item : Node} (hitem : item ∈ items)
    (h : IsLifted enumerators item) : ∃ block ∈ document.blocks, AreBound enumerators block := by
  rw [generate_eq, writeUnit] at hdocument
  cases hcode : (writeExternals options items).result with
  | error cause =>
    rw [hcode] at hdocument
    cases hdocument
  | ok code =>
    rw [hcode] at hdocument
    cases hdocument
    obtain ⟨part, hpart, hwithin⟩ := infix_writeExternals hitem hcode
    have hbound : AreBound enumerators (Code.allLinesAt 0 part) := areBound_writeExternal 0 h hpart
    refine ⟨_, List.mem_singleton_self _, ?_⟩
    rw [Code.lines_eq]
    exact hbound.mono (infix_linesAt 0 hwithin)

/-- `enum { RED, GREEN = 5 } *palette[2];` -/
def palette : Node :=
  .decl (some "palette") [] [] (.array (.pointer (.typeDecl (some "palette")
    (.enum none (some (.enumeratorList [.enumerator "RED" none, .enumerator "GREEN" (some (.constant "int" "5"))])))))
    (some (.constant "int" "2"))) none none

theorem areBound_palette : ∃ document, generate {} (.unit [palette]) = .ok document ∧
    ∃ block ∈ document.blocks,
      AreBound [.enumerator "RED" none, .enumerator "GREEN" (some (.constant "int" "5"))] block := by
  obtain ⟨document, hdocument⟩ : ∃ document, generate {} (.unit [palette]) = .ok document := ⟨_, rfl⟩
  have hlifted : IsLifted [.enumerator "RED" none, .enumerator "GREEN" (some (.constant "int" "5"))] palette :=
    .variable "palette" [] [] none none (.array _ (.pointer (.typeDecl _ (.here none))))
  exact ⟨document, hdocument, areBound_of_isLifted hdocument (List.mem_singleton_self _) hlifted⟩

/-- The item has an enumeration in its types that is not bound in the output of a unit with this one item. -/
def IsDropped (options : UnitOptions) (enumerators : List Node) (item : Node) : Prop :=
  Occurs enumerators item ∧ ∃ document, generate options (.unit [item]) = .ok document ∧
    ¬∃ block ∈ document.blocks, AreBound enumerators block

theorem isDropped_of_blocks_eq {enumerator item : Node} {rest : List Node} {document : Document}
    (hoccurs : Occurs (enumerator :: rest) item) (hdocument : generate options (.unit [item]) = .ok document)
    (hblocks : document.blocks = [[]]) : IsDropped options (enumerator :: rest) item := by
  refine ⟨hoccurs, document, hdocument, ?_⟩
  rintro ⟨block, hblock, depth, bindings, hbindings, hwithin⟩
  rw [hblocks, List.mem_singleton] at hblock
  rw [hblock, List.infix_nil] at hwithin
  rw [hwithin] at hbindings
  cases hbindings

/-- `enum { RED } pick(void);` -/
def prototype : Node :=
  .decl (some "pick") [] [] (.functionType
    (some (.paramList [.typename none (.typeDecl none (.identifierType ["void"]))]))
    (.typeDecl (some "pick") (.enum none (some (.enumeratorList [.enumerator "RED" none]))))) none none

/-- `struct s { enum { RED } color; };` -/
def colored : Node :=
  .decl none [] [] (.struct (some "s") (some [.decl (some "color") [] []
    (.typeDecl (some "color") (.enum none (some (.enumeratorList [.enumerator "RED" none])))) none none])) none none

/-- A prototype, and a structure where none is wanted, leave nothing of the enumerations in their types. -/
theorem isDropped_prototype_and_colored :
    IsDropped {} [.enumerator "RED" none] prototype ∧ IsDropped {} [.enumerator "RED" none] colored := by
  have hresult : Occurs [.enumerator "RED" none] prototype :=
    .decl _ _ _ _ _ (.result _ (.typeDecl _ (.here none)))
  have hmember : Occurs [.enumerator "RED" none] colored :=
    .decl _ _ _ _ _ (.structMember _ (List.mem_singleton_self _) (.decl _ _ _ _ _ (.typeDecl _ (.here none))))
  exact ⟨isDropped_of_blocks_eq hresult rfl rfl, isDropped_of_blocks_eq hmember rfl rfl⟩

end StubGen.CUnit

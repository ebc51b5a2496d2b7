import Mathlib.Data.List.Nodup
import StubGen.CUnit.Module
import StubGen.Proofs.Jump.Text
import StubGen.Proofs.Name.Casing

/-!
# The parameters of functions

The head of a function has one parameter for each parameter in C, in order.  A declared one keeps its name, as
expressions spell it; the mark of further parameters is `*args`; any other has the name of its position.

* `ParamForm` tells these three apart, and `ParamForm.bound` is the name that a parameter binds.
* `BindsApart` says which names do not go together; `nodup_boundNames` is that nothing else clashes.
* `head_writeExternal` is the head as a whole.  A parameter of an identifier list has a name in C, which expressions
  use, and yet it is named by its position.
-/

namespace StubGen.CUnit

open Traced

/-- How a parameter is written. -/
inductive ParamForm where
  /-- The mark of further parameters. -/
  | rest
  | declared (name : String)
  | positional
  deriving DecidableEq, Repr

def paramForm : Node → ParamForm
  | .ellipsis => .rest
  | .decl (some name) .. => .declared name
  | _ => .positional

/-- The name of a parameter in C.  In an identifier list it is all that there is. -/
def cName? : Node → Option String
  | .decl name .. => name
  | .ident name => some name
  | _ => none

/-- The name that a parameter binds in the output. -/
def ParamForm.bound (position : Nat) : ParamForm → String
  | rest => "args"
  | declared name => escapeName name
  | positional => "arg" ++ toString position

/-- The names that parameters bind, in order. -/
def boundNames (forms : List ParamForm) : List String := forms.mapIdx ParamForm.bound

/-- The text of a parameter in the head. -/
def headText (hints : Bool) (position : Nat) (param : Node) : String :=
  let name := (paramForm param).bound position
  if paramForm param = .rest then "*" ++ name
  else if hints then name ++ ": " ++ (typeHint param).text
  else name

private theorem paramText_eq (hints : Bool) (position : Nat) (param : Node) :
    (paramText hints position param).result = .ok (headText hints position param) := by
  unfold paramText
  split
  · rfl
  · cases hints <;> rfl
  · rename_i hrest hdeclared
    have hform : paramForm param = .positional := by
      unfold paramForm
      split
      · exact absurd rfl hrest
      · exact absurd rfl (hdeclared _ _ _ _ _ _)
      · rfl
    rw [headText, hform]
    cases hints <;> rfl

private theorem paramTexts_eq (hints : Bool) (position : Nat) (params : List Node) :
    (paramTexts hints position params).result =
      .ok (params.mapIdx fun index => headText hints (position + index)) := by
  induction params generalizing position with
  | nil => rfl
  | cons param rest ih =>
    rw [paramTexts, bind_result, paramText_eq, List.mapIdx_cons]
    simp only [Except.bind, bind_result, ih, pure_result, Nat.add_zero, Nat.add_assoc, Nat.add_comm 1]

/-! ### Names that clash -/

/-- Which names stand together without binding one name twice. -/
structure BindsApart (forms : List ParamForm) : Prop where
  escaped : ∀ word ∈ reservedWords, .declared word ∈ forms → .declared (word ++ "_") ∉ forms
  positional : ∀ position : Nat, forms[position]? = some ParamForm.positional →
    .declared ("arg" ++ toString position) ∉ forms
  rest : .rest ∈ forms → .declared "args" ∉ forms
  single : ∀ i j : Nat, forms[i]? = some ParamForm.rest → forms[j]? = some ParamForm.rest → i = j

/-- Escaping changes no name into one that is not reserved and has no low line. -/
private theorem escapeName_eq_iff {name text : String} (hreserved : text ∉ reservedWords) (hlow : '_' ∉ text.toList) :
    escapeName name = text ↔ name = text := by
  by_cases hname : name ∈ reservedWords
  · rw [escapeName_of_mem hname]
    refine ⟨fun heq => absurd ?_ hlow, fun heq => absurd (heq ▸ hname) hreserved⟩
    simp [← heq]
  · rw [escapeName_of_notMem hname]

private theorem escapeName_eq_args {name : String} : escapeName name = "args" ↔ name = "args" :=
  escapeName_eq_iff (by decide) (by decide)

private theorem escapeName_eq_positional {name : String} {position : Nat} :
    escapeName name = "arg" ++ toString position ↔ name = "arg" ++ toString position := by
  have hstart : ∀ word ∈ reservedWords, word.toList.take 3 ≠ "arg".toList := by decide
  refine escapeName_eq_iff (fun hmem => hstart _ hmem ?_) (fun hmem => ?_)
  · simp
  · rw [String.toList_append, List.mem_append] at hmem
    rcases hmem with hmem | hmem
    · exact absurd hmem (by decide)
    · exact absurd (isDigit_repr position '_' hmem) (by decide)

/-- Two names are escaped to one only if one of them is reserved and the other one is what it is escaped to. -/
private theorem escapeName_eq_escapeName {first second : String} (hne : first ≠ second)
    (heq : escapeName first = escapeName second) :
    first ∈ reservedWords ∧ second = first ++ "_" ∨ second ∈ reservedWords ∧ first = second ++ "_" := by
  by_cases hfirst : first ∈ reservedWords <;> by_cases hsecond : second ∈ reservedWords
  · rw [escapeName_of_mem hfirst, escapeName_of_mem hsecond] at heq
    exact absurd ((String.append_left_inj "_").mp heq) hne
  · rw [escapeName_of_mem hfirst, escapeName_of_notMem hsecond] at heq
    exact Or.inl ⟨hfirst, heq.symm⟩
  · rw [escapeName_of_notMem hfirst, escapeName_of_mem hsecond] at heq
    exact Or.inr ⟨hsecond, heq⟩
  · rw [escapeName_of_notMem hfirst, escapeName_of_notMem hsecond] at heq
    exact absurd heq hne

private theorem args_ne_positional (position : Nat) : "args" ≠ "arg" ++ toString position := by
  intro heq
  have hmark : 's' ∈ (toString position).toList := by
    have : "s" = toString position := (String.append_right_inj "arg").mp heq
    rw [← this]
    decide
  exact absurd (isDigit_repr position 's' hmark) (by decide)

private theorem nodup_boundNames_iff {forms : List ParamForm} :
    (boundNames forms).Nodup ↔ ∀ (i j : Nat) (first second : ParamForm), forms[i]? = some first →
      forms[j]? = some second → first.bound i = second.bound j → i = j := by
  constructor
  · intro hnodup i j first second hi hj heq
    have hlt : i < (boundNames forms).length := by
      rw [boundNames, List.length_mapIdx]
      exact (List.getElem?_eq_some_iff.mp hi).1
    refine (List.getElem?_inj hlt hnodup).mp ?_
    rw [boundNames, List.getElem?_mapIdx, List.getElem?_mapIdx, hi, hj, Option.map_some, Option.map_some, heq]
  · intro hinj
    rw [List.nodup_iff_getElem?_ne_getElem?]
    intro i j hlt hj heq
    rw [boundNames, List.length_mapIdx] at hj
    have hi : forms[i]? = some forms[i] := List.getElem?_eq_getElem (Nat.lt_trans hlt hj)
    have hj : forms[j]? = some forms[j] := List.getElem?_eq_getElem hj
    rw [boundNames, List.getElem?_mapIdx, List.getElem?_mapIdx, hi, hj, Option.map_some, Option.map_some,
      Option.some.injEq] at heq
    exact absurd (hinj i j _ _ hi hj heq) (Nat.ne_of_lt hlt)

private theorem bindsApart_of_nodup {forms : List ParamForm} (h : (boundNames forms).Nodup) : BindsApart forms := by
  have hbound := nodup_boundNames_iff.mp h
  -- two parameters that bind one name are one, and so have one form
  have hform : ∀ (i : Nat) (first second : ParamForm), forms[i]? = some first → second ∈ forms →
      (∀ j, first.bound i = second.bound j) → first = second := by
    intro i first second hi hmem heq
    obtain ⟨j, hj⟩ := List.mem_iff_getElem?.mp hmem
    obtain rfl := hbound i j first second hi hj (heq j)
    exact Option.some.inj (hi.symm.trans hj)
  refine ⟨?_, ?_, ?_, fun i j hi hj => hbound i j _ _ hi hj rfl⟩
  · intro word hword hmem hescaped
    obtain ⟨i, hi⟩ := List.mem_iff_getElem?.mp hmem
    have hnot : word ++ "_" ∉ reservedWords := escapeName_of_mem hword ▸ escapeName_notMem_reservedWords word
    have heq := hform i _ _ hi hescaped fun j => (escapeName_of_mem hword).trans (escapeName_of_notMem hnot).symm
    rw [← ParamForm.declared.inj heq] at hnot
    exact hnot hword
  · intro position hposition hmem
    have heq := hform position _ _ hposition hmem fun j => (escapeName_eq_positional.mpr rfl).symm
    cases heq
  · intro hrest hmem
    obtain ⟨i, hi⟩ := List.mem_iff_getElem?.mp hrest
    have heq := hform i _ _ hi hmem fun j => (escapeName_eq_args.mpr rfl).symm
    cases heq

/-- Declared names clash only if one of them is reserved, and the other one is what it is escaped to. -/
private theorem BindsApart.eq_of_escapeName {forms : List ParamForm} (h : BindsApart forms) {name other : String}
    (hname : .declared name ∈ forms) (hother : .declared other ∈ forms) (heq : escapeName name = escapeName other) :
    name = other := by
  by_contra hne
  rcases escapeName_eq_escapeName hne heq with ⟨hword, rfl⟩ | ⟨hword, rfl⟩
  · exact h.escaped name hword hname hother
  · exact h.escaped other hword hother hname

/-- Names that are declared once are bound once, but for these clashes. -/
theorem nodup_boundNames {forms : List ParamForm}
    (honce : ∀ (i j : Nat) (name : String), forms[i]? = some (.declared name) → forms[j]? = some (.declared name) →
      i = j) :
    (boundNames forms).Nodup ↔ BindsApart forms := by
  refine ⟨bindsApart_of_nodup, fun hapart => nodup_boundNames_iff.mpr fun i j first second hi hj heq => ?_⟩
  have hfirst : first ∈ forms := List.mem_of_getElem? hi
  have hsecond : second ∈ forms := List.mem_of_getElem? hj
  cases first with
  | rest =>
    cases second with
    | rest => exact hapart.single i j hi hj
    | declared name => exact absurd (escapeName_eq_args.mp heq.symm ▸ hsecond) (hapart.rest hfirst)
    | positional => exact absurd heq (args_ne_positional j)
  | declared name =>
    cases second with
    | rest => exact absurd (escapeName_eq_args.mp heq ▸ hfirst) (hapart.rest hsecond)
    | declared other =>
      obtain rfl := hapart.eq_of_escapeName hfirst hsecond heq
      exact honce i j name hi hj
    | positional => exact absurd (escapeName_eq_positional.mp heq ▸ hfirst) (hapart.positional j hj)
  | positional =>
    cases second with
    | rest => exact absurd heq.symm (args_ne_positional i)
    | declared name => exact absurd (escapeName_eq_positional.mp heq.symm ▸ hsecond) (hapart.positional i hi)
    | positional => exact eq_of_append_toString heq

/-! ### Heads of functions -/

private theorem cName?_of_declared {param : Node} {name : String} (h : paramForm param = .declared name) :
    cName? param = some name := by
  unfold paramForm at h
  split at h
  · cases h
  · cases h
    rfl
  · cases h

private theorem declared_once {params : List Node} (h : (params.filterMap cName?).Nodup) (i j : Nat) (name : String)
    (hi : (params.map paramForm)[i]? = some (.declared name))
    (hj : (params.map paramForm)[j]? = some (.declared name)) : i = j := by
  have hdistinct := List.pairwise_iff_getElem.mp (List.pairwise_filterMap.mp h)
  have hnamed : ∀ k : Nat, (params.map paramForm)[k]? = some (.declared name) →
      ∃ hlt : k < params.length, cName? params[k] = some name := by
    intro k hk
    rw [List.getElem?_map] at hk
    obtain ⟨param, hparam, hform⟩ := Option.map_eq_some_iff.mp hk
    obtain ⟨hlt, rfl⟩ := List.getElem?_eq_some_iff.mp hparam
    exact ⟨hlt, cName?_of_declared hform⟩
  obtain ⟨hiLt, hiName⟩ := hnamed i hi
  obtain ⟨hjLt, hjName⟩ := hnamed j hj
  rcases Nat.lt_trichotomy i j with hlt | heq | hlt
  · exact absurd rfl (hdistinct i j hiLt hjLt hlt name hiName name hjName)
  · exact heq
  · exact absurd rfl (hdistinct j i hjLt hiLt hlt name hjName name hiName)

/-- Expressions spell a parameter as the head does if it is declared, and else only if it has the name of its
position in C as well. -/
private theorem renderExpr_eq_bound {param : Node} {name : String} (reduce : Bool) (position : Nat)
    (h : cName? param = some name) :
    (renderExpr reduce (.ident name)).result = .ok ((paramForm param).bound position) ↔
      paramForm param = .declared name ∨ name = "arg" ++ toString position := by
  have htext : (renderExpr reduce (.ident name)).result = .ok (escapeName name) := rfl
  rw [htext, Except.ok.injEq]
  cases param with
  | decl declared quals storage type init width =>
    cases h
    exact iff_of_true rfl (Or.inl rfl)
  | ident other =>
    cases h
    have hform : paramForm (.ident name) ≠ .declared name := ParamForm.noConfusion
    rw [or_iff_right hform]
    exact escapeName_eq_positional
  | _ => cases h

private theorem writeSignature_eq_ok {options : UnitOptions} {context : Context} {decl : Node} {ahead : List Code}
    {head : String} (h : (writeSignature options context decl).result = .ok (ahead, head)) :
    ∃ name quals storage args result init width ending,
      decl = .decl (some name) quals storage (.functionType args result) init width ∧
      head = "def " ++ escapeName name ++ "(" ++
        ", ".intercalate ((paramsOf args).mapIdx (headText options.typeHints)) ++ ")" ++ ending ++ ":" := by
  unfold writeSignature at h
  split at h
  · rename_i name quals storage args result init width
    obtain ⟨resultTypes, -, h⟩ := bind_eq_ok.mp h
    obtain ⟨paramTypes, -, h⟩ := bind_eq_ok.mp h
    obtain ⟨text, htext, h⟩ := bind_eq_ok.mp h
    cases h
    obtain ⟨texts, htexts, htext⟩ := bind_eq_ok.mp htext
    rw [paramTexts_eq] at htexts
    simp only [Nat.zero_add] at htexts
    cases htexts
    refine ⟨name, quals, storage, args, result, init, width, ?_⟩
    split at htext <;> cases htext <;> exact ⟨_, rfl, rfl⟩
  · cases h
  · cases h

/-- A function has one parameter for each in C, in order.  Those that are declared are spelled as in expressions, and
the names are distinct just if none of a few clashes is among them. -/
theorem head_writeExternal {options : UnitOptions} {context : Context} {decl body : Node} {paramDecls : List Node}
    {code : List Code} (h : (writeExternal options context (.function decl paramDecls body)).result = .ok code) :
    ∃ name quals storage args result init width ahead ending suite,
      decl = .decl (some name) quals storage (.functionType args result) init width ∧
      code = ahead ++ [.suite ("def " ++ escapeName name ++ "(" ++
        ", ".intercalate ((paramsOf args).mapIdx (headText options.typeHints)) ++ ")" ++ ending ++ ":") suite] ∧
      (∀ (position : Nat) param cName, (paramsOf args)[position]? = some param → cName? param = some cName →
        ((renderExpr options.reduceParentheses (.ident cName)).result = .ok ((paramForm param).bound position) ↔
          paramForm param = .declared cName ∨ cName = "arg" ++ toString position)) ∧
      (((paramsOf args).filterMap cName?).Nodup →
        ((boundNames ((paramsOf args).map paramForm)).Nodup ↔ BindsApart ((paramsOf args).map paramForm))) := by
  obtain ⟨⟨ahead, head⟩, hhead, h⟩ := bind_eq_ok.mp h
  obtain ⟨lines, -, h⟩ := bind_eq_ok.mp h
  cases h
  obtain ⟨name, quals, storage, args, result, init, width, ending, rfl, rfl⟩ := writeSignature_eq_ok hhead
  refine ⟨name, quals, storage, args, result, init, width, ahead, ending, Code.orPass lines, rfl, rfl, ?_, ?_⟩
  · intro position param cName _ hname
    exact renderExpr_eq_bound options.reduceParentheses position hname
  · intro hdistinct
    exact nodup_boundNames (declared_once hdistinct)

private def intType : Node := .identifierType ["int"]

private def intVariable (name : String) : Node := .decl (some name) [] [] (.typeDecl (some name) intType) none none

private def intFunction (name : String) (params paramDecls items : List Node) : Node :=
  .function (.decl (some name) [] [] (.functionType (some (.paramList params)) intType) none none) paramDecls
    (.block items)

/-- `int f(int lambda, int, ...) { }`. -/
def variadicFunction : Node := intFunction "f" [intVariable "lambda", .typename none intType, .ellipsis] [] []

theorem head_variadicFunction :
    (writeExternal {} .outermost variadicFunction).result =
        .ok [.blank 2, .suite "def f(lambda_, arg1, *args):" [.line "pass"]] ∧
      BindsApart [.declared "lambda", .positional, .rest] := by
  have hcode : (writeExternal {} .outermost variadicFunction).result =
      .ok [.blank 2, .suite "def f(lambda_, arg1, *args):" [.line "pass"]] := by
    rfl
  obtain ⟨_, _, _, _, _, _, _, _, _, _, hdecl, -, -, hclash⟩ := head_writeExternal hcode
  cases hdecl
  exact ⟨hcode, (hclash (by decide)).mp (by decide)⟩

/-- `int f(a) int a; { return a; }`. -/
def identifierList : Node :=
  intFunction "f" [.ident "a"] [intVariable "a"] [.returnJump (some (.ident "a"))]

/-- `int g(int arg1, int) { }`. -/
def positionalName : Node := intFunction "g" [intVariable "arg1", .typename none intType] [] []

/-- The body of `f` uses a name that its head does not bind, and the head of `g` binds one name twice. -/
theorem head_identifierList :
    (writeExternal {} .outermost identifierList).result = .ok [.blank 2, .suite "def f(arg0):" [.line "return a"]] ∧
      (writeExternal {} .outermost positionalName).result =
        .ok [.blank 2, .suite "def g(arg1, arg1):" [.line "pass"]] :=
  ⟨rfl, rfl⟩

end StubGen.CUnit

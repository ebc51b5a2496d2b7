import Mathlib.Tactic.SplitIfs
import StubGen.CUnit.Generator

/-!
# Names in annotations and in definitions

An annotation is a row of pieces: texts that come from the form of the type, and the names that the type refers to.
The annotation holds each of these names as it stands, and a definition of the name holds its escaped form.

* `typePieces` gives the pieces of a type, and `text_typeHint` says that the type hint is made of them.
* `IsDefinition` lists the writers that define a name, and `definesName` says which name they define.
* The two agree for the types that refer to no reserved word, and for no others (`names_agree_iff`).
-/

namespace StubGen.CUnit

open Traced

/-- A piece of an annotation: a text of its own, or a name that the type refers to. -/
inductive Piece where
  | text (text : String)
  | name (name : String)

/-- The text of pieces, where `spell` says how a name is written. -/
def spelledText (spell : String → String) : List Piece → String
  | [] => ""
  | .text text :: rest => text ++ spelledText spell rest
  | .name name :: rest => spell name ++ spelledText spell rest

/-- The names in pieces. -/
def namesIn : List Piece → List String
  | [] => []
  | .text _ :: rest => namesIn rest
  | .name name :: rest => name :: namesIn rest

section Spelling

variable {spell : String → String} {pieces : List Piece}

@[simp] theorem spelledText_text (spell : String → String) (text : String) : spelledText spell [.text text] = text := by
  rw [spelledText, spelledText, String.append_empty]

@[simp] theorem spelledText_name (spell : String → String) (name : String) :
    spelledText spell [.name name] = spell name := by
  rw [spelledText, spelledText, String.append_empty]

theorem spelledText_append (first second : List Piece) :
    spelledText spell (first ++ second) = spelledText spell first ++ spelledText spell second := by
  induction first with
  | nil => rw [List.nil_append, spelledText, String.empty_append]
  | cons piece rest ih =>
    cases piece <;> rw [List.cons_append, spelledText, spelledText, ih, String.append_assoc]

/-- The pieces of several annotations with commas between them. -/
def commaPieces : List (List Piece) → List Piece
  | [] => []
  | [pieces] => pieces
  | pieces :: rest => pieces ++ .text ", " :: commaPieces rest

theorem spelledText_commaPieces (annotations : List (List Piece)) :
    spelledText spell (commaPieces annotations) = ", ".intercalate (annotations.map (spelledText spell)) := by
  induction annotations using commaPieces.induct with
  | case1 => rfl
  | case2 pieces => rw [commaPieces, List.map_singleton, String.intercalate_singleton]
  | case3 pieces rest hrest ih =>
    obtain ⟨next, others, rfl⟩ := List.exists_cons_of_ne_nil hrest
    rw [commaPieces, spelledText_append, spelledText, ih, List.map_cons, List.map_cons, List.map_cons,
      String.intercalate_cons_cons, String.append_assoc]
    exact hrest

/-- Each reserved word makes the escaped text longer by one character. -/
theorem length_spelledText_escapeName (pieces : List Piece) :
    (spelledText escapeName pieces).length =
      (spelledText id pieces).length + (namesIn pieces).countP (· ∈ reservedWords) := by
  induction pieces with
  | nil => rfl
  | cons piece rest ih =>
    cases piece with
    | text text =>
      rw [spelledText, spelledText, namesIn, String.length_append, String.length_append, ih]
      omega
    | name name =>
      rw [spelledText, spelledText, namesIn, String.length_append, String.length_append, ih, List.countP_cons]
      by_cases hname : name ∈ reservedWords
      · have hlength : (escapeName name).length = name.length + 1 := by
          rw [escapeName_of_mem hname, String.length_append]
          rfl
        simp only [hlength, hname, decide_true, if_true, id]
        omega
      · simp only [escapeName_of_notMem hname, hname, decide_false, Bool.false_eq_true, if_false, id]
        omega

theorem spelledText_escapeName (h : ∀ name ∈ namesIn pieces, name ∉ reservedWords) :
    spelledText escapeName pieces = spelledText id pieces := by
  induction pieces with
  | nil => rfl
  | cons piece rest ih =>
    cases piece with
    | text text => rw [spelledText, spelledText, ih h]
    | name name =>
      obtain ⟨hname, hrest⟩ := List.forall_mem_cons.mp h
      rw [spelledText, spelledText, ih hrest, escapeName_of_notMem hname, id]

/-- The escaped text is the plain one just if no name is reserved. -/
theorem spelledText_eq_iff (pieces : List Piece) :
    spelledText id pieces = spelledText escapeName pieces ↔ ∀ name ∈ namesIn pieces, name ∉ reservedWords := by
  refine ⟨fun heq => ?_, fun h => (spelledText_escapeName h).symm⟩
  -- texts that are the same have one length, so there is no reserved word to make one of them longer
  have hlength := length_spelledText_escapeName pieces
  rw [← heq] at hlength
  have hcount : (namesIn pieces).countP (· ∈ reservedWords) = 0 := by omega
  intro name hname hreserved
  exact List.countP_eq_zero.mp hcount name hname (decide_eq_true hreserved)

end Spelling

/-! ### Annotations -/

/-- The pieces of a scalar type: its host type, or a name that is in no table. -/
def scalarPieces (words : List String) : List Piece :=
  let spelling := " ".intercalate words
  match HostType.ofScalar? spelling with
  | some host => [.text host.name]
  | none => if 1 < words.length then [.text "int"] else [.name spelling]

/-- The piece of a tag, or of a type without one. -/
def tagPieces (name : Option String) (nameless : String) : List Piece :=
  match name with
  | some tag => [.name tag]
  | none => [.text nameless]

/-- The pieces of a pointer to, or an array of, elements whose annotation has these pieces. -/
def elementsPieces (element : Node) (pieces : List Piece) : List Piece :=
  match element with
  | .functionType .. => pieces
  | _ =>
    match (spelling? element).bind HostType.ofPointer? with
    | some host => [.text host.name]
    | none => .text "List[" :: (pieces ++ [.text "]"])

/-- The pieces of a function with these parameters. -/
def callablePieces (params : List (List Piece)) (result : List Piece) : List Piece :=
  .text "Callable[[" :: (commaPieces params ++ .text "], " :: (result ++ [.text "]"]))

mutual

/-- The pieces of the annotation of a C type. -/
def typePieces : Node → List Piece
  | .typeDecl _ type => typePieces type
  | .typename _ type => typePieces type
  | .decl _ _ _ type _ _ => typePieces type
  | .identifierType words => scalarPieces words
  | .struct name _ => tagPieces name "Any"
  | .union name _ => tagPieces name "Any"
  | .enum name _ => tagPieces name "int"
  | .pointer target => elementsPieces target (typePieces target)
  | .array element _ => elementsPieces element (typePieces element)
  | .functionType (some (.paramList params)) result =>
    if isVoidParams params then callablePieces [] (typePieces result)
    else if params.any isEllipsis then .text "Callable[..., " :: (typePieces result ++ [.text "]"])
    else callablePieces (typesPieces params) (typePieces result)
  | .functionType _ result => callablePieces [] (typePieces result)
  | _ => [.text "Any"]
termination_by structural type => type

/-- The pieces of the annotations of a list of types. -/
def typesPieces : List Node → List (List Piece)
  | [] => []
  | type :: rest => typePieces type :: typesPieces rest
termination_by structural types => types

end

private theorem text_scalarHint (words : List String) :
    (scalarHint words).text = spelledText id (scalarPieces words) := by
  dsimp only [scalarHint, scalarPieces]
  cases HostType.ofScalar? (" ".intercalate words) with
  | some host => exact (spelledText_text id _).symm
  | none =>
    dsimp only
    split_ifs
    · exact (spelledText_text id _).symm
    · exact (spelledText_name id _).symm

private theorem text_elementsHint {element : Node} {hint : Hint} {pieces : List Piece}
    (h : hint.text = spelledText id pieces) :
    (elementsHint element hint).text = spelledText id (elementsPieces element pieces) := by
  have hlist : hint.list.text = spelledText id (.text "List[" :: (pieces ++ [.text "]"])) := by
    rw [spelledText, spelledText_append, spelledText_text, ← h, ← String.append_assoc]
    rfl
  unfold elementsHint
  split
  · exact h
  · rw [elementsPieces]
    · cases (spelling? element).bind HostType.ofPointer? with
      | some host => exact (spelledText_text id _).symm
      | none => exact hlist
    · assumption

private theorem text_callable {params : List Hint} {result : Hint} {paramPieces : List (List Piece)}
    {resultPieces : List Piece} (hparams : params.map Hint.text = paramPieces.map (spelledText id))
    (hresult : result.text = spelledText id resultPieces) :
    (Hint.callable params result).text = spelledText id (callablePieces paramPieces resultPieces) := by
  rw [callablePieces, spelledText, spelledText_append, spelledText, spelledText_append, spelledText_text,
    spelledText_commaPieces, ← hparams, ← hresult]
  simp only [Hint.callable, String.append_assoc]

private theorem text_tag (name : Option String) {nameless : Hint} :
    (name.elim nameless Hint.plain).text = spelledText id (tagPieces name nameless.text) := by
  cases name with
  | none => exact (spelledText_text id _).symm
  | some tag => exact (spelledText_name id tag).symm

/-- A type hint holds the names that its type refers to as they stand. -/
theorem text_typeHint (type : Node) : (typeHint type).text = spelledText id (typePieces type) := by
  apply typeHint.induct (fun type => (typeHint type).text = spelledText id (typePieces type))
    (fun types => (typeHints types).map Hint.text = (typesPieces types).map (spelledText id))
  case case1 => exact fun _ _ ih => ih
  case case2 => exact fun _ _ ih => ih
  case case3 => exact fun _ _ _ _ _ _ ih => ih
  case case4 => exact text_scalarHint
  case case5 => exact fun name _ => text_tag name
  case case6 => exact fun name _ => text_tag name
  case case7 =>
    intro name values
    cases name with
    | none => exact (spelledText_text id _).symm
    | some tag => exact (spelledText_name id tag).symm
  case case8 => exact fun _ ih => text_elementsHint ih
  case case9 => exact fun _ _ ih => text_elementsHint ih
  case case10 =>
    intro params result hvoid ih
    rw [typeHint, typePieces, if_pos hvoid, if_pos hvoid]
    exact text_callable rfl ih
  case case11 =>
    intro params result hvoid hany ih
    rw [typeHint, typePieces, if_neg hvoid, if_neg hvoid, if_pos hany, if_pos hany, spelledText, spelledText_append,
      spelledText_text, ← ih, ← String.append_assoc]
    rfl
  case case12 =>
    intro params result hvoid hany ihparams ih
    rw [typeHint, typePieces, if_neg hvoid, if_neg hvoid, if_neg hany, if_neg hany]
    exact text_callable ihparams ih
  case case13 =>
    intro params result hparams ih
    rw [typeHint, typePieces]
    · exact text_callable rfl ih
    all_goals exact hparams
  case case14 =>
    intros
    rw [typeHint, typePieces]
    · exact (spelledText_text id _).symm
    all_goals assumption
  case case15 => rfl
  case case16 =>
    intro type rest ih ihrest
    rw [typeHints, typesPieces, List.map_cons, List.map_cons, ih, ihrest]

/-! ### Definitions -/

/-- The code that makes a name known: the class of an enumeration, the class of a structure or union, or an alias. -/
inductive DefinesName (name : String) : Code → Prop
  | constants (body : List Code) : DefinesName name (.suite ("class " ++ name ++ "(IntEnum):") body)
  | fields (body : List Code) : DefinesName name (.suite ("class " ++ name ++ ":") body)
  | assigned (text : String) : DefinesName name (.line (name ++ " = " ++ text))

/-- The pieces of the output that define a tag or the name of a type. -/
inductive IsDefinition (options : UnitOptions) (context : Context) (name : String) : Traced (List Code) → Prop
  | enum (values : Node) :
      IsDefinition options context name (writeEnum options.reduceParentheses context (some name) values)
  | aggregate (members : List Node) :
      IsDefinition options context name (writeAggregate options context (some name) (some members))
  | typedef (type : Node) : IsDefinition options context name (writeTypedef options context name type)

variable {options : UnitOptions} {context : Context} {name : String} {code : List Code}

private theorem getLast?_classCode (context : Context) (header : String) (body : List Code) :
    (classCode context header body).getLast? = some (.suite header (Code.orPass body)) := by
  rw [classCode, List.getLast?_append, List.getLast?_singleton, Option.some_or]

private theorem definesName_writeEnum {reduce : Bool} {values : Node}
    (hcode : (writeEnum reduce context (some name) values).result = .ok code) :
    ∃ defining, code.getLast? = some defining ∧ DefinesName (escapeName name) defining := by
  unfold writeEnum at hcode
  split at hcode
  · obtain ⟨_, -, hcode⟩ := bind_eq_ok.mp hcode
    obtain ⟨body, -, hcode⟩ := bind_eq_ok.mp hcode
    cases hcode
    exact ⟨_, getLast?_classCode .., .constants _⟩
  · cases hcode

private theorem definesName_writeAggregate {members : List Node}
    (hcode : (writeAggregate options context (some name) (some members)).result = .ok code) :
    code = [] ∧ options.emitAggregates = false ∨
      ∃ defining, code.getLast? = some defining ∧ DefinesName (escapeName name) defining := by
  dsimp only [writeAggregate] at hcode
  split_ifs at hcode with hemit
  · obtain ⟨body, -, hcode⟩ := bind_eq_ok.mp hcode
    cases hcode
    exact .inr ⟨_, getLast?_classCode .., .fields _⟩
  · cases hcode
    exact .inl ⟨rfl, Bool.eq_false_iff.mpr hemit⟩

/-- A definition of a name ends with the code for its escaped form.  Only where no structures are wanted there may be
no code at all. -/
theorem definesName {piece : Traced (List Code)} (h : IsDefinition options context name piece)
    (hcode : piece.result = .ok code) :
    code = [] ∧ options.emitAggregates = false ∨
      ∃ defining, code.getLast? = some defining ∧ DefinesName (escapeName name) defining := by
  cases h with
  | enum values => exact .inr (definesName_writeEnum hcode)
  | aggregate members => exact definesName_writeAggregate hcode
  | typedef type =>
    unfold writeTypedef at hcode
    split at hcode
    · exact .inr (definesName_writeEnum hcode)
    · exact definesName_writeAggregate hcode
    · exact definesName_writeAggregate hcode
    · split_ifs at hcode with hemit
      · cases hcode
        exact .inr ⟨_, rfl, .assigned _⟩
      · cases hcode
        exact .inl ⟨rfl, Bool.eq_false_iff.mpr hemit⟩

/-- A type hint holds the names that the definitions define just if its type refers to no reserved word. -/
theorem names_agree_iff (options : UnitOptions) (context : Context) :
    (∀ name piece code, IsDefinition options context name piece → piece.result = .ok code →
      code = [] ∧ options.emitAggregates = false ∨
        ∃ defining, code.getLast? = some defining ∧ DefinesName (escapeName name) defining) ∧
    ∀ type, (typeHint type).text = spelledText id (typePieces type) ∧
      ((typeHint type).text = spelledText escapeName (typePieces type) ↔
        ∀ name ∈ namesIn (typePieces type), name ∉ reservedWords) := by
  refine ⟨fun name piece code h hcode => definesName h hcode, fun type => ⟨text_typeHint type, ?_⟩⟩
  rw [text_typeHint type]
  exact spelledText_eq_iff (typePieces type)

/-- An enumeration with a reserved word as its tag. -/
def reservedEnum : Node := .enum (some "lambda") (some (.enumeratorList [.enumerator "A" none]))

/-- A unit that defines the enumeration and a variable of its type. -/
def reservedTag : List Node := [
  .decl none [] [] reservedEnum none none,
  .decl (some "g") [] [] (.typeDecl (some "g") (.enum (some "lambda") none)) none none]

/-- The annotation of the variable has another name than the definition. -/
theorem names_differ_reservedTag :
    (∃ document, generate {} (.unit reservedTag) = .ok document ∧
      document.blocks = [["", "", "class lambda_(IntEnum):", "    A = 0", "g: lambda"]]) ∧
    ∃ piece code defining, IsDefinition {} .outermost "lambda" piece ∧ piece.result = .ok code ∧
      code.getLast? = some defining ∧ ¬DefinesName (typeHint (.enum (some "lambda") none)).text defining := by
  refine ⟨⟨_, rfl, by decide⟩, _, _, .suite "class lambda_(IntEnum):" [.line "A = 0"],
    .enum (.enumeratorList [.enumerator "A" none]), rfl, rfl, fun h => ?_⟩
  have htext : (typeHint (.enum (some "lambda") none)).text = "lambda" := rfl
  -- the header is a closed text, so its form is compared with those of definitions one by one
  generalize hdefining : Code.suite "class lambda_(IntEnum):" [.line "A = 0"] = defining at h
  rw [htext] at h
  cases h with
  | constants body => exact absurd (Code.suite.inj hdefining).1 (by decide)
  | fields body => exact absurd (Code.suite.inj hdefining).1 (by decide)
  | assigned text => cases hdefining

end StubGen.CUnit

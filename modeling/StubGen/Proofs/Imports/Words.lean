import Mathlib.Data.Bool.AllAny
import Mathlib.Data.List.Nodup
import StubGen.Proofs.Layout.Lines
import StubGen.Proofs.Stub.Closure

/-!
# Host symbols in texts

A text is `Supplied` if the host symbols among its words are used.  Words end at any character that is no letter,
digit or underscore, so what holds of two texts holds of both together if one of them begins or ends with such a
character at the seam.

* `importable` lists the host symbols that either engine can write.
* `supplied_append_left` and `supplied_append_right` put texts together, and `supplied_of_isPlain` is for texts without
  host symbols.
* `SuppliedCode` is about the texts of code; `SuppliedCode.lines` says what that means for its lines.
-/

namespace StubGen

open DeclFile (typingSymbols)

/-! ### Words -/

/-- Whether the character is in no word: it is no letter, no digit and no underscore. -/
def isSeparator (c : Char) : Bool := !(c.isAlphanum || c = '_')

/-- The words of a text: what stands between separators. -/
def textWords (text : String) : List String := (text.toList.splitOnP isSeparator).map String.ofList

/-- Whether no word begins with the text. -/
def startsApart (text : String) : Bool := text.toList.head?.all isSeparator

/-- Whether no word ends with the text. -/
def endsApart (text : String) : Bool := text.toList.getLast?.all isSeparator

@[simp] theorem startsApart_append {first : String} (h : first ≠ "") (second : String) :
    startsApart (first ++ second) = startsApart first := by
  have hne : first.toList ≠ [] := fun hnil => h (String.toList_eq_nil_iff.mp hnil)
  rw [startsApart, String.toList_append, List.head?_append_of_ne_nil _ hne, startsApart]

@[simp] theorem endsApart_append (first : String) {second : String} (h : second ≠ "") :
    endsApart (first ++ second) = endsApart second := by
  have hne : second.toList ≠ [] := fun hnil => h (String.toList_eq_nil_iff.mp hnil)
  rw [endsApart, String.toList_append, List.getLast?_append_of_ne_nil _ hne, endsApart]

private theorem mem_textWords_of_startsApart {first second word : String} (hword : word ≠ "")
    (h : startsApart second = true) :
    word ∈ textWords (first ++ second) ↔ word ∈ textWords first ∨ word ∈ textWords second := by
  rw [textWords, textWords, textWords, String.toList_append]
  cases hsecond : second.toList with
  | nil => simp [hword]
  | cons c rest =>
    have hc : isSeparator c = true := by
      rw [startsApart, hsecond] at h
      exact h
    rw [List.splitOnP_append_cons _ _ hc, List.splitOnP_cons_eq_if_modifyHead, if_pos hc, List.map_append,
      List.mem_append, List.map_cons, List.mem_cons, or_iff_right hword]

private theorem mem_textWords_of_endsApart {first second word : String} (hword : word ≠ "")
    (h : endsApart first = true) :
    word ∈ textWords (first ++ second) ↔ word ∈ textWords first ∨ word ∈ textWords second := by
  rw [textWords, textWords, textWords, String.toList_append]
  rcases List.eq_nil_or_concat' first.toList with hfirst | ⟨start, c, hfirst⟩
  · simp [hfirst, hword]
  · have hc : isSeparator c = true := by
      rw [endsApart, hfirst, List.getLast?_concat] at h
      exact h
    rw [hfirst, List.append_assoc, List.singleton_append, List.splitOnP_append_cons _ _ hc,
      List.splitOnP_append_cons _ [] hc, List.map_append, List.map_append, List.mem_append, List.mem_append]
    simp [hword]

/-! ### Host symbols -/

/-- The names of the host symbols that are written. -/
def hostWords : List String :=
  typingSymbols ++ ["Enum", "IntEnum", "auto"] ++ ["singledispatch", "singledispatchmethod"] ++ ["external", "alias"]

/-- The host symbols that are written, with the modules that provide them. -/
def importable (runtimeModule : String) : List Import :=
  typingSymbols.map (Import.mk "typing") ++ ["Enum", "IntEnum", "auto"].map (Import.mk "enum") ++
    ["singledispatch", "singledispatchmethod"].map (Import.mk "functools") ++
      ["external", "alias"].map (Import.mk runtimeModule)

theorem map_symbol_importable (runtimeModule : String) : (importable runtimeModule).map Import.symbol = hostWords := rfl

theorem symbol_mem_hostWords {runtimeModule : String} {symbol : Import} (h : symbol ∈ importable runtimeModule) :
    symbol.symbol ∈ hostWords := List.mem_map_of_mem h

/-- A host symbol is known by its name. -/
theorem eq_of_symbol_eq {runtimeModule : String} {symbol other : Import} (h : symbol ∈ importable runtimeModule)
    (hother : other ∈ importable runtimeModule) (hname : symbol.symbol = other.symbol) : symbol = other := by
  have hnodup : ((importable runtimeModule).map Import.symbol).Nodup := by
    rw [map_symbol_importable]
    decide
  exact List.inj_on_of_nodup_map hnodup h hother hname

private theorem ne_empty_of_mem_hostWords {word : String} (h : word ∈ hostWords) : word ≠ "" := by
  rintro rfl
  revert h
  decide

/-- Whether no host symbol is a word of the text. -/
def isPlain (text : String) : Bool := hostWords.all fun word => !(textWords text).contains word

/-! ### Supplied texts -/

/-- The host symbols among the words of the text are used. -/
def Supplied (runtimeModule : String) (Used : Import → Prop) (text : String) : Prop :=
  ∀ symbol ∈ importable runtimeModule, symbol.symbol ∈ textWords text → Used symbol

section

variable {runtimeModule : String} {Used : Import → Prop}

@[simp] theorem supplied_of_isPlain {text : String} (h : isPlain text = true) : Supplied runtimeModule Used text := by
  intro symbol hsymbol hword
  have habsent := List.all_eq_true.mp h symbol.symbol (symbol_mem_hostWords hsymbol)
  simp [hword] at habsent

private theorem supplied_append_of_words {first second : String}
    (h : ∀ word, word ≠ "" → (word ∈ textWords (first ++ second) ↔ word ∈ textWords first ∨ word ∈ textWords second)) :
    Supplied runtimeModule Used (first ++ second) ↔
      Supplied runtimeModule Used first ∧ Supplied runtimeModule Used second := by
  have hword : ∀ symbol ∈ importable runtimeModule, symbol.symbol ∈ textWords (first ++ second) ↔
      symbol.symbol ∈ textWords first ∨ symbol.symbol ∈ textWords second := fun symbol hsymbol =>
    h symbol.symbol (ne_empty_of_mem_hostWords (symbol_mem_hostWords hsymbol))
  constructor
  · exact fun hboth => ⟨fun symbol hsymbol hfirst => hboth symbol hsymbol ((hword symbol hsymbol).mpr (Or.inl hfirst)),
      fun symbol hsymbol hsecond => hboth symbol hsymbol ((hword symbol hsymbol).mpr (Or.inr hsecond))⟩
  · rintro ⟨hfirst, hsecond⟩ symbol hsymbol hmem
    exact ((hword symbol hsymbol).mp hmem).elim (hfirst symbol hsymbol) (hsecond symbol hsymbol)

@[simp] theorem supplied_append_left {first second : String} (h : endsApart first = true) :
    Supplied runtimeModule Used (first ++ second) ↔
      Supplied runtimeModule Used first ∧ Supplied runtimeModule Used second :=
  supplied_append_of_words fun _ hword => mem_textWords_of_endsApart hword h

@[simp] theorem supplied_append_right {first second : String} (h : startsApart second = true) :
    Supplied runtimeModule Used (first ++ second) ↔
      Supplied runtimeModule Used first ∧ Supplied runtimeModule Used second :=
  supplied_append_of_words fun _ hword => mem_textWords_of_startsApart hword h

/-- A host symbol by itself. -/
theorem supplied_symbol (symbol : Import) (h : symbol ∈ importable runtimeModule) (hused : Used symbol) :
    Supplied runtimeModule Used symbol.symbol := by
  have hwords : ∀ word ∈ hostWords, textWords word = [word] := by decide
  intro other hother hword
  rw [hwords _ (symbol_mem_hostWords h), List.mem_singleton] at hword
  rwa [eq_of_symbol_eq hother h hword]

/-- A host symbol with other text behind it. -/
theorem supplied_symbol_append (symbol : Import) (h : symbol ∈ importable runtimeModule) (hused : Used symbol)
    {text : String} (hstart : startsApart text = true) (hplain : isPlain text = true) :
    Supplied runtimeModule Used (symbol.symbol ++ text) :=
  (supplied_append_right hstart).mpr ⟨supplied_symbol symbol h hused, supplied_of_isPlain hplain⟩

/-- A host symbol with other text ahead of it. -/
theorem supplied_append_symbol (symbol : Import) (h : symbol ∈ importable runtimeModule) (hused : Used symbol)
    {text : String} (hend : endsApart text = true) (hplain : isPlain text = true) :
    Supplied runtimeModule Used (text ++ symbol.symbol) :=
  (supplied_append_left hend).mpr ⟨supplied_of_isPlain hplain, supplied_symbol symbol h hused⟩

/-- A single word that names no host symbol. -/
theorem supplied_of_word {word : String} (hword : ∀ c ∈ word.toList, isSeparator c = false) (h : word ∉ hostWords) :
    Supplied runtimeModule Used word := by
  intro symbol hsymbol hmem
  rw [textWords, List.splitOnP_eq_singleton hword, List.map_singleton, String.ofList_toList, List.mem_singleton] at hmem
  exact absurd (hmem ▸ symbol_mem_hostWords hsymbol) h

private theorem isSeparator_decimal (number : Nat) : ∀ c ∈ (toString number).toList, isSeparator c = false := by
  intro c hc
  have hmem : c ∈ Nat.toDigits 10 number := by simpa [Nat.repr] using hc
  have hdigit := Nat.isDigit_of_mem_toDigits (by decide) (by decide) hmem
  simp [isSeparator, Char.isAlphanum, hdigit]

/-- The name of a parameter that is known by its position. -/
theorem supplied_numbered (number : Nat) : Supplied runtimeModule Used ("arg" ++ toString number) := by
  have hletters : ∀ c ∈ "arg".toList, isSeparator c = false := List.all_iff_forall_prop.mp (by decide)
  refine supplied_of_word (fun c hc => ?_) fun hmem => ?_
  · rw [String.toList_append] at hc
    exact (List.mem_append.mp hc).elim (hletters c) (isSeparator_decimal number c)
  · have hwords : ∀ word ∈ hostWords, "arg".toList.isPrefixOf word.toList = false := by decide
    have hprefix : "arg".toList.isPrefixOf ("arg" ++ toString number).toList = true := by
      rw [String.toList_append, List.isPrefixOf_iff_prefix]
      exact List.prefix_append _ _
    rw [hwords _ hmem] at hprefix
    cases hprefix

private theorem mem_of_mem_splitOnP {chars part : List Char} {c : Char} (hpart : part ∈ chars.splitOnP isSeparator)
    (hc : c ∈ part) : c ∈ chars := by
  induction chars generalizing part with
  | nil =>
    rw [List.splitOnP_nil, List.mem_singleton] at hpart
    rwa [hpart] at hc
  | cons first rest ih =>
    rw [List.splitOnP_cons_eq_if_modifyHead] at hpart
    split at hpart
    · rcases List.mem_cons.mp hpart with rfl | hpart
      · cases hc
      · exact List.mem_cons_of_mem first (ih hpart hc)
    · cases hparts : rest.splitOnP isSeparator with
      | nil => simp [hparts] at hpart
      | cons part' others =>
        rw [hparts, List.modifyHead_cons] at hpart
        rcases List.mem_cons.mp hpart with rfl | hpart
        · rcases List.mem_cons.mp hc with rfl | hc
          · exact List.mem_cons_self ..
          · exact List.mem_cons_of_mem first (ih (by simp [hparts]) hc)
        · exact List.mem_cons_of_mem first (ih (by simp [hparts, hpart]) hc)

/-- Whether the character can stand in the text of an integer; the letter marks octal numbers. -/
def isNumeral (c : Char) : Bool := c.isDigit || c = '-' || c = 'o'

/-- No host symbol is a number. -/
theorem supplied_of_isNumeral {text : String} (h : ∀ c ∈ text.toList, isNumeral c = true) :
    Supplied runtimeModule Used text := by
  have hwords : ∀ word ∈ hostWords, word.toList.all isNumeral = false := by decide
  intro symbol hsymbol hmem
  obtain ⟨part, hpart, hword⟩ := List.mem_map.mp hmem
  have hnumeral : symbol.symbol.toList.all isNumeral = true := by
    rw [← hword, String.toList_ofList, List.all_eq_true]
    exact fun c hc => h c (mem_of_mem_splitOnP hpart hc)
  rw [hwords _ (symbol_mem_hostWords hsymbol)] at hnumeral
  cases hnumeral

theorem isNumeral_repr (number : Nat) : ∀ c ∈ number.repr.toList, isNumeral c = true := by
  intro c hc
  have hmem : c ∈ Nat.toDigits 10 number := by simpa [Nat.repr] using hc
  have hdigit := Nat.isDigit_of_mem_toDigits (by decide) (by decide) hmem
  simp [isNumeral, hdigit]

theorem isNumeral_toString (value : Int) : ∀ c ∈ (toString value).toList, isNumeral c = true := by
  cases value with
  | ofNat number => exact isNumeral_repr number
  | negSucc number =>
    intro c hc
    have hsign : toString (Int.negSucc number) = "-" ++ (number + 1).repr := rfl
    have hmark : ∀ c ∈ "-".toList, isNumeral c = true := List.all_iff_forall_prop.mp (by decide)
    rw [hsign, String.toList_append, List.mem_append] at hc
    exact hc.elim (hmark c) (isNumeral_repr (number + 1) c)

theorem supplied_intercalate (separator : String) {texts : List String} (hne : separator ≠ "")
    (hstart : startsApart separator = true) (hend : endsApart separator = true) (hplain : isPlain separator = true)
    (h : ∀ text ∈ texts, Supplied runtimeModule Used text) :
    Supplied runtimeModule Used (separator.intercalate texts) := by
  induction texts with
  | nil =>
    rw [String.intercalate_nil]
    exact supplied_of_isPlain (by decide)
  | cons text rest ih =>
    obtain ⟨htext, hrest⟩ := List.forall_mem_cons.mp h
    cases rest with
    | nil => simpa using htext
    | cons next others =>
      have hstarts : startsApart (separator ++ separator.intercalate (next :: others)) = true :=
        (startsApart_append hne _).trans hstart
      rw [String.intercalate_cons_cons, String.append_assoc, supplied_append_right hstarts, supplied_append_left hend]
      exact ⟨htext, supplied_of_isPlain hplain, ih hrest⟩

theorem supplied_commas {texts : List String} (h : ∀ text ∈ texts, Supplied runtimeModule Used text) :
    Supplied runtimeModule Used (", ".intercalate texts) :=
  supplied_intercalate ", " (by decide) (by decide) (by decide) (by decide) h

theorem supplied_indented {text : String} (h : Supplied runtimeModule Used text) (depth : Nat) :
    Supplied runtimeModule Used (indented depth text) := by
  induction depth with
  | zero => simpa [indented] using h
  | succ depth ih =>
    have hindented : indented (depth + 1) text = indentUnit ++ indented depth text := by
      rw [indented, List.replicate_succ, indented]
      simp [String.append_assoc]
    rw [hindented, supplied_append_left (by decide)]
    exact ⟨supplied_of_isPlain (by decide), ih⟩

end

/-! ### Code -/

mutual

/-- The texts of a piece of code, headers included. -/
def Code.texts : Code → List String
  | .line text => [text]
  | .blank _ => []
  | .suite header body => header :: allTexts body
termination_by structural code => code

def Code.allTexts : List Code → List String
  | [] => []
  | code :: rest => code.texts ++ allTexts rest
termination_by structural codes => codes

end

theorem Code.allTexts_append (first second : List Code) :
    Code.allTexts (first ++ second) = Code.allTexts first ++ Code.allTexts second := by
  induction first with
  | nil => rfl
  | cons code rest ih => rw [List.cons_append, Code.allTexts, Code.allTexts, ih, List.append_assoc]

/-- The host symbols in the texts of the code are used. -/
def SuppliedCode (runtimeModule : String) (Used : Import → Prop) (codes : List Code) : Prop :=
  ∀ text ∈ Code.allTexts codes, Supplied runtimeModule Used text

namespace SuppliedCode

variable {runtimeModule : String} {Used : Import → Prop} {first second : List Code} {text : String}

theorem nil : SuppliedCode runtimeModule Used [] := List.forall_mem_nil _

theorem append (hfirst : SuppliedCode runtimeModule Used first) (hsecond : SuppliedCode runtimeModule Used second) :
    SuppliedCode runtimeModule Used (first ++ second) := by
  rw [SuppliedCode, Code.allTexts_append]
  exact List.forall_mem_append.mpr ⟨hfirst, hsecond⟩

theorem line (h : Supplied runtimeModule Used text) : SuppliedCode runtimeModule Used [.line text] :=
  List.forall_mem_singleton.mpr h

theorem blank (count : Nat) : SuppliedCode runtimeModule Used [.blank count] := List.forall_mem_nil _

theorem suite {header : String} {body : List Code} (hheader : Supplied runtimeModule Used header)
    (hbody : SuppliedCode runtimeModule Used body) : SuppliedCode runtimeModule Used [.suite header body] := by
  rw [SuppliedCode, Code.allTexts, Code.allTexts, List.append_nil, Code.texts]
  exact List.forall_mem_cons.mpr ⟨hheader, hbody⟩

theorem flatten {parts : List (List Code)} (h : ∀ codes ∈ parts, SuppliedCode runtimeModule Used codes) :
    SuppliedCode runtimeModule Used parts.flatten := by
  induction parts with
  | nil => exact nil
  | cons codes rest ih =>
    obtain ⟨hcodes, hrest⟩ := List.forall_mem_cons.mp h
    exact hcodes.append (ih hrest)

theorem of_forall {codes : List Code} (h : ∀ code ∈ codes, SuppliedCode runtimeModule Used [code]) :
    SuppliedCode runtimeModule Used codes := by
  induction codes with
  | nil => exact nil
  | cons code rest ih =>
    obtain ⟨hcode, hrest⟩ := List.forall_mem_cons.mp h
    exact hcode.append (ih hrest)

theorem orPass (h : SuppliedCode runtimeModule Used first) : SuppliedCode runtimeModule Used (Code.orPass first) := by
  unfold Code.orPass
  split
  · exact line (supplied_of_isPlain (by decide))
  · exact h

end SuppliedCode

section

variable {runtimeModule : String} {Used : Import → Prop}

mutual

private theorem supplied_linesAt (code : Code) (h : ∀ text ∈ code.texts, Supplied runtimeModule Used text)
    (depth : Nat) : ∀ line ∈ code.linesAt depth, Supplied runtimeModule Used line := by
  match code with
  | .line text => exact List.forall_mem_singleton.mpr (supplied_indented (h text (List.mem_singleton_self text)) depth)
  | .blank count =>
    intro line hline
    rw [List.eq_of_mem_replicate hline]
    exact supplied_of_isPlain (by decide)
  | .suite header body =>
    obtain ⟨hheader, hbody⟩ := List.forall_mem_cons.mp h
    exact List.forall_mem_cons.mpr ⟨supplied_indented hheader depth, supplied_allLinesAt body hbody (depth + 1)⟩

private theorem supplied_allLinesAt (codes : List Code) (h : SuppliedCode runtimeModule Used codes) (depth : Nat) :
    ∀ line ∈ Code.allLinesAt depth codes, Supplied runtimeModule Used line := by
  match codes with
  | [] => exact List.forall_mem_nil _
  | code :: rest =>
    obtain ⟨hcode, hrest⟩ := List.forall_mem_append.mp h
    exact List.forall_mem_append.mpr ⟨supplied_linesAt code hcode depth, supplied_allLinesAt rest hrest depth⟩

end

/-- The host symbols in the lines of the code are used. -/
theorem SuppliedCode.lines {codes : List Code} (h : SuppliedCode runtimeModule Used codes) :
    ∀ line ∈ Code.lines codes, Supplied runtimeModule Used line := by
  rw [Code.lines_eq]
  exact supplied_allLinesAt codes h 0

end

end StubGen

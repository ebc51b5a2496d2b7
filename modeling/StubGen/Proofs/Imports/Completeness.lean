import StubGen.Proofs.Emission.Writers
import StubGen.Proofs.Imports.Stubs
import StubGen.Proofs.Imports.Units
import StubGen.Proofs.Stub.Composition

/-!
# Imports are complete

Whatever host symbol the generators write is imported.  A line of a module belongs to a declaration of the source, and
each host symbol among its words is in the import table, unless the same word comes from this very declaration.

* `statementLines` are the lines of a statement of a declaration file, and `itemLines` those of an item of a C unit.
* `Imports.Covers` says that the host symbols in lines are imported, and `Imports.Lists` how a table lists its symbols.
* `importsComplete` is about both engines.
-/

namespace StubGen

namespace Imports

/-- The symbol is imported, or its name is a word of one of the texts. -/
def Accounts (imports : Imports) (source : String → Prop) (symbol : Import) : Prop :=
  imports.provides symbol ∨ ∃ text, source text ∧ symbol.symbol ∈ textWords text

/-- The host symbols among the words of the lines are imported, or they come from the texts. -/
def Covers (imports : Imports) (runtimeModule : String) (source : String → Prop) (lines : List String) : Prop :=
  ∀ line ∈ lines, Supplied runtimeModule (imports.Accounts source) line

theorem supplied_source (imports : Imports) {runtimeModule text : String} {source : String → Prop}
    (h : source text) : Supplied runtimeModule (imports.Accounts source) text :=
  fun _ _ hword => Or.inr ⟨text, h, hword⟩

/-- The table has the uses, each of them once, with modules and symbols in the order of their first use. -/
structure Lists (imports : Imports) (uses : List Import) : Prop where
  mem : ∀ use, use ∈ imports.entries ↔ use ∈ uses
  nodup : imports.entries.Nodup
  lines : imports.lines = (uses.map Import.module).eraseDups.map fun module =>
    "from " ++ module ++ " import " ++ ", ".intercalate (symbolsIn module uses)

theorem lists_ofUses (uses : List Import) : (ofUses uses).Lists uses where
  mem use := mem_entries.trans (provides_ofUses uses use)
  nodup := nodup_entries_ofUses uses
  lines := by
    rw [lines, modules_ofUses, List.map_map]
    rfl

end Imports

theorem Code.lines_append (first second : List Code) :
    Code.lines (first ++ second) = Code.lines first ++ Code.lines second := by
  rw [Code.lines_eq, Code.lines_eq, Code.lines_eq, Code.allLinesAt_append]

/-! ### Declaration files -/

namespace DeclFile

/-- The code of some parts of a body that stand after others. -/
def partsCode (all before parts : List Part) : List Code :=
  Entry.decorateFrom "singledispatch" (all.map Part.toEntry) (before.map Part.toEntry) (parts.map Part.toEntry)

/-- The lines of the statement that stands between others: those of the types that it defines, and those of the body. -/
def statementLines (options : DeclOptions) (before : List Statement) (statement : Statement) (after : List Statement) :
    List String :=
  let style := Style.ofOptions options
  let all := (fileParts style (before ++ statement :: after) 0).2
  let (ahead, parts) := fileParts style before 0
  let (log, own) := statementParts style statement ahead.blocks.length
  log.blocks.flatMap (fun block => Code.lines block.decl.code) ++ Code.lines (partsCode all parts own)

/-- The document of a file. -/
def fileDocument (options : DeclOptions) (statements : List Statement) : Document :=
  let (log, parts) := fileParts (.ofOptions options) statements 0
  document options log parts

/-- The texts that a statement contributes.  The names of the types that it defines come from the options. -/
def statementSource (options : DeclOptions) (statement : Statement) (text : String) : Prop :=
  text ∈ statement.texts ∨ ∃ number, text = (Style.ofOptions options).typeName number

/-- The import table of the module of a file has the host symbols that the statements write. -/
structure ImportsComplete (options : DeclOptions) (statements : List Statement) : Prop where
  text : (generate options statements).text = (fileDocument options statements).render
  owned : ∀ lines ∈ (fileDocument options statements).blocks, ∀ line ∈ lines, ∃ before statement after,
    statements = before ++ statement :: after ∧ line ∈ statementLines options before statement after
  covered : ∀ before statement after, statements = before ++ statement :: after →
    (fileDocument options statements).imports.Covers options.runtimeModule (statementSource options statement)
      (statementLines options before statement after)
  listed : (fileDocument options statements).imports.Lists (fileParts (.ofOptions options) statements 0).1.uses

/-! ### Runs of statements -/

section

variable {α β : Type} {f : α → Stubs β}

private theorem mapM_cons_apply (f : α → Stubs β) (item : α) (rest : List α) (count : Nat) :
    (item :: rest).mapM f count =
      ((f item count).1 ++ (rest.mapM f (count + (f item count).1.blocks.length)).1,
        (f item count).2 :: (rest.mapM f (count + (f item count).1.blocks.length)).2) := by
  rw [List.mapM_cons, Stubs.bind_apply, Stubs.bind_apply]
  simp only [Stubs.pure_apply, Log.append_empty]

private theorem mapM_append_apply (f : α → Stubs β) (first second : List α) (count : Nat) :
    (first ++ second).mapM f count =
      ((first.mapM f count).1 ++ (second.mapM f (count + (first.mapM f count).1.blocks.length)).1,
        (first.mapM f count).2 ++ (second.mapM f (count + (first.mapM f count).1.blocks.length)).2) := by
  rw [List.mapM_append, Stubs.bind_apply, Stubs.bind_apply]
  simp only [Stubs.pure_apply, Log.append_empty]

/-- The types that pieces define are those of one of them, which runs after the ones before it. -/
private theorem exists_of_mem_blocks {items : List α} {count : Nat} {block : Block}
    (h : block ∈ (items.mapM f count).1.blocks) : ∃ before item after, items = before ++ item :: after ∧
      block ∈ (f item (count + (before.mapM f count).1.blocks.length)).1.blocks := by
  induction items generalizing count with
  | nil => cases h
  | cons item rest ih =>
    rw [mapM_cons_apply, Log.blocks_append, List.mem_append] at h
    rcases h with h | h
    · exact ⟨[], item, rest, rfl, h⟩
    · obtain ⟨before, other, after, rfl, hblock⟩ := ih h
      refine ⟨item :: before, other, after, rfl, ?_⟩
      rwa [mapM_cons_apply, Log.blocks_append, List.length_append, ← Nat.add_assoc]

end

/-! ### Lines of files -/

private theorem decorateFrom_append (dispatch : String) (all before first second : List Entry) :
    Entry.decorateFrom dispatch all before (first ++ second) =
      Entry.decorateFrom dispatch all before first ++ Entry.decorateFrom dispatch all (before ++ first) second := by
  induction first generalizing before with
  | nil => simp [Entry.decorateFrom]
  | cons entry rest ih => simp [Entry.decorateFrom, ih]

private theorem partsCode_append (all before first second : List Part) :
    partsCode all before (first ++ second) = partsCode all before first ++ partsCode all (before ++ first) second := by
  rw [partsCode, List.map_append, decorateFrom_append, ← List.map_append]
  rfl

private theorem exists_of_mem_lines {style : Style} {all ahead : List Part} {statements : List Statement} {count : Nat}
    {line : String}
    (h : line ∈ Code.lines (partsCode all ahead (statements.mapM (statementParts style) count).2.flatten)) :
    ∃ before statement after, statements = before ++ statement :: after ∧
      line ∈ Code.lines (partsCode all (ahead ++ (before.mapM (statementParts style) count).2.flatten)
        (statementParts style statement (count + (before.mapM (statementParts style) count).1.blocks.length)).2) := by
  induction statements generalizing count ahead with
  | nil => cases h
  | cons statement rest ih =>
    rw [mapM_cons_apply, List.flatten_cons, partsCode_append, Code.lines_append, List.mem_append] at h
    rcases h with h | h
    · exact ⟨[], statement, rest, rfl, by simpa [Stubs.pure_apply, Log.empty] using h⟩
    · obtain ⟨before, other, after, rfl, hline⟩ := ih h
      refine ⟨statement :: before, other, after, rfl, ?_⟩
      rwa [mapM_cons_apply, Log.blocks_append, List.length_append, ← Nat.add_assoc, List.flatten_cons,
        ← List.append_assoc]

private theorem fileParts_apply (style : Style) (statements : List Statement) :
    fileParts style statements 0 =
      ((statements.mapM (statementParts style) 0).1 ++
          if Entry.hasOverloads ((statements.mapM (statementParts style) 0).2.flatten.map Part.toEntry)
          then ⟨[⟨"functools", "singledispatch"⟩], [], []⟩ else .empty,
        (statements.mapM (statementParts style) 0).2.flatten) := by
  rw [fileParts, Stubs.bind_apply, Stubs.bind_apply, useDispatch]
  refine Prod.ext (congrArg _ ?_) rfl
  split <;> rfl

private theorem blocks_fileParts (style : Style) (statements : List Statement) :
    (fileParts style statements 0).1.blocks = (statements.mapM (statementParts style) 0).1.blocks := by
  rw [fileParts_apply, Log.blocks_append]
  split <;> exact List.append_nil _

private theorem bodyCode_eq (parts : List Part) : bodyCode parts = partsCode parts [] parts := rfl

private theorem parts_fileParts (style : Style) (statements : List Statement) :
    (fileParts style statements 0).2 = (statements.mapM (statementParts style) 0).2.flatten := rfl

private theorem blocks_fileDocument (options : DeclOptions) (statements : List Statement) :
    (fileDocument options statements).blocks =
      ((fileParts (.ofOptions options) statements 0).1.blocks.map fun block => Code.lines block.decl.code) ++
        [Code.lines (bodyCode (fileParts (.ofOptions options) statements 0).2)] := rfl

private theorem mem_statementLines {options : DeclOptions} {before after : List Statement} {statement : Statement}
    {line : String} : line ∈ statementLines options before statement after ↔
      (∃ block ∈ (statementParts (.ofOptions options) statement
          (before.mapM (statementParts (.ofOptions options)) 0).1.blocks.length).1.blocks,
        line ∈ Code.lines block.decl.code) ∨
      line ∈ Code.lines (partsCode (fileParts (.ofOptions options) (before ++ statement :: after) 0).2
        (before.mapM (statementParts (.ofOptions options)) 0).2.flatten
        (statementParts (.ofOptions options) statement
          (before.mapM (statementParts (.ofOptions options)) 0).1.blocks.length).2) := by
  rw [← blocks_fileParts, ← parts_fileParts, ← List.mem_flatMap, ← List.mem_append]
  rfl

private theorem owned_line (options : DeclOptions) {statements : List Statement} {lines : List String}
    (hlines : lines ∈ (fileDocument options statements).blocks) {line : String} (hline : line ∈ lines) :
    ∃ before statement after,
      statements = before ++ statement :: after ∧ line ∈ statementLines options before statement after := by
  rw [blocks_fileDocument, List.mem_append] at hlines
  rcases hlines with htype | hbody
  · obtain ⟨block, hblock, rfl⟩ := List.mem_map.mp htype
    rw [blocks_fileParts] at hblock
    obtain ⟨before, statement, after, rfl, hown⟩ := exists_of_mem_blocks hblock
    refine ⟨before, statement, after, rfl, mem_statementLines.mpr (Or.inl ⟨block, ?_, hline⟩)⟩
    rwa [Nat.zero_add] at hown
  · rw [List.mem_singleton.mp hbody, bodyCode_eq, parts_fileParts] at hline
    obtain ⟨before, statement, after, rfl, hown⟩ := exists_of_mem_lines hline
    refine ⟨before, statement, after, rfl, mem_statementLines.mpr (Or.inr ?_)⟩
    rwa [Nat.zero_add, List.nil_append] at hown

/-- The symbols that a statement uses are used by its file. -/
private theorem mem_uses_fileParts (style : Style) (before : List Statement) (statement : Statement)
    (after : List Statement) : ∀ symbol ∈ (statementParts style statement
      (before.mapM (statementParts style) 0).1.blocks.length).1.uses,
    symbol ∈ (fileParts style (before ++ statement :: after) 0).1.uses := by
  intro symbol hsymbol
  rw [fileParts_apply, mapM_append_apply, Nat.zero_add, mapM_cons_apply]
  simp [hsymbol]

private theorem dispatcher_mem_uses {style : Style} {statements : List Statement}
    (h : Entry.hasOverloads ((fileParts style statements 0).2.map Part.toEntry) = true) :
    ⟨"functools", "singledispatch"⟩ ∈ (fileParts style statements 0).1.uses := by
  rw [parts_fileParts] at h
  rw [fileParts_apply, if_pos h]
  simp

private theorem covers_statementLines (options : DeclOptions) (before : List Statement) (statement : Statement)
    (after : List Statement) :
    (fileDocument options (before ++ statement :: after)).imports.Covers options.runtimeModule
      (statementSource options statement) (statementLines options before statement after) := by
  intro line hline
  have hused : ∀ symbol ∈ (fileParts (.ofOptions options) (before ++ statement :: after) 0).1.uses,
      (fileDocument options (before ++ statement :: after)).imports.Accounts (statementSource options statement)
        symbol :=
    fun symbol hsymbol => Or.inl ((Imports.provides_ofUses _ symbol).mpr hsymbol)
  obtain ⟨hblocks, hparts⟩ := supplies_statementParts
    (fun number => Imports.supplied_source _ (Or.inr ⟨number, rfl⟩)) statement
    (fun text htext => Imports.supplied_source _ (Or.inl htext)) _
    (fun symbol hsymbol => hused symbol (mem_uses_fileParts (.ofOptions options) before statement after symbol hsymbol))
  rcases mem_statementLines.mp hline with ⟨block, hblock, hline⟩ | hline
  · exact (hblocks block hblock).lines line hline
  · show Supplied (Style.ofOptions options).runtimeModule _ line
    refine SuppliedCode.lines (supplied_decorateFrom (fun hoverloads => ?_) _ ?_) line hline
    · exact supplied_symbol ⟨"functools", "singledispatch"⟩ (by simp [importable])
        (hused _ (dispatcher_mem_uses hoverloads))
    · rw [List.forall_mem_map]
      exact hparts

private theorem importsComplete_file (options : DeclOptions) (statements : List Statement) :
    ImportsComplete options statements where
  text := congrArg Generated.text (generate_eq options statements)
  owned _ hlines _ hline := owned_line options hlines hline
  covered := by
    rintro before statement after rfl
    exact covers_statementLines options before statement after
  listed := Imports.lists_ofUses _

end DeclFile

/-! ### C units -/

namespace CUnit

/-- The lines of an item of a unit. -/
def itemLines (options : UnitOptions) (item : Node) : List String :=
  match (writeExternal options .outermost item).result with
  | .ok code => Code.lines code
  | .error _ => []

/-- A text that the node or one of the nodes below it contributes. -/
inductive Node.HasText : Node → String → Prop
  | here {node : Node} {text : String} : text ∈ node.texts → HasText node text
  | part {node part : Node} {text : String} : part ∈ node.parts → HasText part text → HasText node text

/-- The texts that an item contributes.  The name of the function that stands for `goto` comes from the options. -/
def itemSource (options : UnitOptions) (item : Node) (text : String) : Prop :=
  item.HasText text ∨ text ∈ options.gotoCall

/-- The import table of the document of a unit has the host symbols that its items write. -/
structure ImportsComplete (options : UnitOptions) (items : List Node) (document : Document) : Prop where
  owned : document.blocks = [items.flatMap (itemLines options)]
  covered : ∀ item ∈ items, ∀ runtimeModule, document.imports.Covers runtimeModule (itemSource options item)
    (itemLines options item)
  listed : document.imports.Lists (writeUnit options (.unit items)).uses

theorem everywhere_isSupplied {runtimeModule : String} {Used : Import → Prop} {node : Node}
    (h : ∀ text, node.HasText text → Supplied runtimeModule Used text) :
    Everywhere (Node.IsSupplied runtimeModule Used) node :=
  .of_parts (fun text htext => h text (.here htext)) fun _ hpart =>
    everywhere_isSupplied fun text htext => h text (.part hpart htext)
termination_by sizeOf node
decreasing_by exact Node.sizeOf_lt_of_mem_parts ‹_›

/-- The code of a unit is that of its items, and the unit uses what they use. -/
private theorem writeExternals_ok {options : UnitOptions} {items : List Node} {code : List Code}
    (h : (writeExternals options items).result = .ok code) : Code.lines code = items.flatMap (itemLines options) ∧
      ∀ item ∈ items, ∀ symbol ∈ (writeExternal options .outermost item).uses,
        symbol ∈ (writeExternals options items).uses := by
  induction items generalizing code with
  | nil =>
    cases h
    exact ⟨rfl, List.forall_mem_nil _⟩
  | cons item rest ih =>
    obtain ⟨own, hown, h⟩ := Traced.bind_eq_ok.mp h
    obtain ⟨others, hothers, h⟩ := Traced.bind_eq_ok.mp h
    cases h
    obtain ⟨hlines, hrest⟩ := ih hothers
    have huses : (writeExternals options (item :: rest)).uses =
        (writeExternal options .outermost item).uses ++ (writeExternals options rest).uses := by
      rw [writeExternals, Traced.bind_of_ok hown, Traced.bind_of_ok hothers]
      simp
    constructor
    · rw [Code.lines_append, hlines, List.flatMap_cons, itemLines, hown]
    · rw [huses]
      exact List.forall_mem_cons.mpr ⟨fun symbol hsymbol => List.mem_append_left _ hsymbol,
        fun other hother symbol hsymbol => List.mem_append_right _ (hrest other hother symbol hsymbol)⟩

private theorem covers_itemLines {options : UnitOptions} {uses : List Import} {item : Node}
    (huses : ∀ symbol ∈ (writeExternal options .outermost item).uses, symbol ∈ uses) (runtimeModule : String) :
    (Imports.ofUses uses).Covers runtimeModule (itemSource options item) (itemLines options item) := by
  have hsource : ∀ text, itemSource options item text →
      Supplied runtimeModule ((Imports.ofUses uses).Accounts (itemSource options item)) text :=
    fun _ htext => Imports.supplied_source _ htext
  have hitem := everywhere_isSupplied fun text htext => hsource text (Or.inl htext)
  unfold itemLines
  split
  · next code hcode =>
    refine (supplies_writeExternal (fun call hcall => hsource call (Or.inr hcall)) hitem ?_ code hcode).lines
    exact fun symbol hsymbol => Or.inl ((Imports.provides_ofUses uses symbol).mpr (huses symbol hsymbol))
  · exact List.forall_mem_nil _

private theorem importsComplete_unit {options : UnitOptions} {root : Node} {document : Document}
    (h : generate options root = .ok document) :
    ∃ items, root = .unit items ∧ ImportsComplete options items document := by
  rw [generate_eq] at h
  unfold writeUnit at h
  split at h
  · next items =>
    cases hcode : (writeExternals options items).result with
    | error cause =>
      rw [hcode] at h
      cases h
    | ok code =>
      rw [hcode] at h
      cases h
      obtain ⟨hlines, hitems⟩ := writeExternals_ok hcode
      refine ⟨items, rfl, ⟨congrArg ([·]) hlines, fun item hitem runtimeModule => ?_, Imports.lists_ofUses _⟩⟩
      exact covers_itemLines (hitems item hitem) runtimeModule
  · cases h

end CUnit

/-! ### Both engines -/

/-- The import table of a module has every host symbol that the generators write for a declaration of the source, and
lists each symbol once in the order of first use. -/
theorem importsComplete :
    (∀ options statements, DeclFile.ImportsComplete options statements) ∧
      ∀ options root document, CUnit.generate options root = .ok document →
        ∃ items, root = .unit items ∧ CUnit.ImportsComplete options items document :=
  ⟨DeclFile.importsComplete_file, fun _ _ _ h => CUnit.importsComplete_unit h⟩

/-- A unit with an enumeration and a function that takes an array. -/
def colorsUnit : CUnit.Node := .unit [
  .decl none [] [] (.enum (some "Color") (some (.enumeratorList [.enumerator "RED" none]))) none none,
  .function (.decl (some "mix") [] [] (.functionType (some (.paramList [
      .decl (some "colors") [] [] (.array (.typeDecl (some "colors") (.identifierType ["int"])) none) none none]))
    (.typeDecl (some "mix") (.identifierType ["int"]))) none none) []
    (.block [.returnJump (some (.constant "int" "0"))])]

theorem importsComplete_colorsUnit : ∃ document, CUnit.generate { typeHints := true } colorsUnit = .ok document ∧
    document.imports.lines = ["from enum import IntEnum", "from typing import List"] ∧
      ∃ items, colorsUnit = .unit items ∧ CUnit.ImportsComplete { typeHints := true } items document := by
  refine ⟨_, rfl, by decide, importsComplete.2 _ _ _ rfl⟩

end StubGen

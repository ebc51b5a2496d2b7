import Mathlib.Data.List.Induction
import Mathlib.Data.List.Nodup
import StubGen.Layout.Imports

/-!
# The order of import tables

An import table is determined by the order in which symbols are used for the first time.

* `Imports.modules_ofUses`: a module stands where it is first used, with its symbols in the order of their first use.
* `Imports.ofUses_flatten`: the table of uses one after the other is the union of their tables.
-/

namespace StubGen

/-! ### First occurrences -/

section

variable {α β : Type} [BEq α] [LawfulBEq α]

/-- An element at the end counts if it is not there yet. -/
private theorem eraseDups_concat (items : List α) (last : α) :
    (items ++ [last]).eraseDups = if last ∈ items then items.eraseDups else items.eraseDups ++ [last] := by
  rw [List.eraseDups_append]
  by_cases h : last ∈ items
  · have hremoved : [last].removeAll items = [] := by simp [List.removeAll, h]
    rw [hremoved, if_pos h, List.eraseDups_nil, List.append_nil]
  · have hkept : [last].removeAll items = [last] := by simp [List.removeAll, h]
    rw [hkept, if_neg h]
    rfl

private theorem nodup_eraseDups (items : List α) : items.eraseDups.Nodup := by
  induction items using List.reverseRecOn with
  | nil => exact .nil
  | append_singleton items last ih =>
    rw [eraseDups_concat]
    split
    · exact ih
    · next h =>
      refine List.Nodup.append ih (List.nodup_singleton last) ?_
      rw [List.disjoint_singleton, List.mem_eraseDups]
      exact h

private theorem eraseDups_idem (items : List α) : items.eraseDups.eraseDups = items.eraseDups := by
  induction items using List.reverseRecOn with
  | nil => rfl
  | append_singleton items last ih =>
    rw [eraseDups_concat]
    split
    · exact ih
    · next h => rw [eraseDups_concat, if_neg (List.mem_eraseDups.not.mpr h), ih]

private theorem eraseDups_filter (keep : α → Bool) (items : List α) :
    (items.filter keep).eraseDups = items.eraseDups.filter keep := by
  induction items using List.reverseRecOn with
  | nil => rfl
  | append_singleton items last ih =>
    rw [List.filter_append, eraseDups_concat]
    cases hkeep : keep last with
    | false =>
      have hlast : [last].filter keep = [] := by simp [hkeep]
      rw [hlast, List.append_nil, ih]
      split
      · rfl
      · rw [List.filter_append, hlast, List.append_nil]
    | true =>
      have hlast : [last].filter keep = [last] := by simp [hkeep]
      have hmem : last ∈ items.filter keep ↔ last ∈ items := by simp [hkeep]
      rw [hlast, eraseDups_concat, ih]
      by_cases h : last ∈ items
      · rw [if_pos (hmem.mpr h), if_pos h]
      · rw [if_neg (hmem.not.mpr h), if_neg h, List.filter_append, hlast]

/-- Only first occurrences count for the first occurrences in a sequence. -/
private theorem eraseDups_append_congr {first first' second second' : List α}
    (hfirst : first.eraseDups = first'.eraseDups) (hsecond : second.eraseDups = second'.eraseDups) :
    (first ++ second).eraseDups = (first' ++ second').eraseDups := by
  have hmem : ∀ item, first.elem item = first'.elem item := by
    intro item
    rw [Bool.eq_iff_iff, List.elem_iff, List.elem_iff, ← List.mem_eraseDups, hfirst, List.mem_eraseDups]
  have hremoved : (second.removeAll first).eraseDups = (second'.removeAll first').eraseDups := by
    simp only [List.removeAll, hmem, eraseDups_filter, hsecond]
  rw [List.eraseDups_append, List.eraseDups_append, hfirst, hremoved]

private theorem eraseDups_flatMap (f : β → List α) (parts : List β) :
    (parts.flatMap fun part => (f part).eraseDups).eraseDups = (parts.flatMap f).eraseDups := by
  induction parts with
  | nil => rfl
  | cons part rest ih =>
    rw [List.flatMap_cons, List.flatMap_cons]
    exact eraseDups_append_congr (eraseDups_idem _) ih

end

namespace Imports

/-! ### Tables of uses -/

/-- The symbols of a module, in the order of their first use. -/
def symbolsIn (module : String) (uses : List Import) : List String :=
  ((uses.filter (·.module = module)).map Import.symbol).eraseDups

private theorem symbolsIn_concat (module : String) (uses : List Import) (last : Import) :
    symbolsIn module (uses ++ [last]) =
      if last.module = module then
        if last.symbol ∈ symbolsIn module uses then symbolsIn module uses else symbolsIn module uses ++ [last.symbol]
      else symbolsIn module uses := by
  rw [symbolsIn, List.filter_append, List.map_append]
  by_cases h : last.module = module
  · have hlast : [last].filter (·.module = module) = [last] := by simp [h]
    rw [hlast, List.map_singleton, eraseDups_concat, if_pos h]
    simp only [symbolsIn, List.mem_eraseDups]
  · have hlast : [last].filter (·.module = module) = [] := by simp [h]
    rw [hlast, List.map_nil, List.append_nil, if_neg h, symbolsIn]

private theorem symbolsIn_eq_nil {module : String} {uses : List Import} (h : module ∉ uses.map Import.module) :
    symbolsIn module uses = [] := by
  have hnone : uses.filter (·.module = module) = [] := by
    rw [List.filter_eq_nil_iff]
    intro use hmem heq
    exact h (List.mem_map.mpr ⟨use, hmem, of_decide_eq_true heq⟩)
  rw [symbolsIn, hnone]
  rfl

private theorem addTo_of_notMem {use : Import} {modules : List String} (symbols : String → List String)
    (h : use.module ∉ modules) : addTo use (modules.map fun module => (module, symbols module)) =
      (modules.map fun module => (module, symbols module)) ++ [(use.module, [use.symbol])] := by
  induction modules with
  | nil => rfl
  | cons module rest ih =>
    obtain ⟨hne, hrest⟩ := List.ne_and_not_mem_of_not_mem_cons h
    rw [List.map_cons, addTo, if_neg hne.symm, ih hrest, List.cons_append]

private theorem addTo_of_mem {use : Import} {modules : List String} (symbols : String → List String)
    (hnodup : modules.Nodup) (h : use.module ∈ modules) :
    addTo use (modules.map fun module => (module, symbols module)) = modules.map fun module =>
      (module, if use.module = module then
        if use.symbol ∈ symbols module then symbols module else symbols module ++ [use.symbol]
      else symbols module) := by
  induction modules with
  | nil => cases h
  | cons module rest ih =>
    obtain ⟨hmodule, hrest⟩ := List.nodup_cons.mp hnodup
    rw [List.map_cons, List.map_cons, addTo]
    by_cases heq : use.module = module
    · have hsame : ∀ other ∈ rest, use.module ≠ other := fun other hmem hother => hmodule (heq ▸ hother ▸ hmem)
      rw [if_pos heq.symm, if_pos heq]
      congr 1
      refine List.map_congr_left fun other hmem => ?_
      rw [if_neg (hsame other hmem)]
    · rw [if_neg (Ne.symm heq), if_neg heq, ih hrest ((List.mem_cons.mp h).resolve_left heq)]

/-- A module stands where it is first used, with its symbols in the order of their first use. -/
theorem modules_ofUses (uses : List Import) : (ofUses uses).modules =
    (uses.map Import.module).eraseDups.map fun module => (module, symbolsIn module uses) := by
  induction uses using List.reverseRecOn with
  | nil => rfl
  | append_singleton uses last ih =>
    have hfold : (ofUses (uses ++ [last])).modules = addTo last (ofUses uses).modules := by
      rw [ofUses, List.foldl_append]
      rfl
    simp only [hfold, ih, symbolsIn_concat, List.map_append, List.map_singleton, eraseDups_concat]
    split
    · next h => exact addTo_of_mem (symbolsIn · uses) (nodup_eraseDups _) (List.mem_eraseDups.mpr h)
    · next h =>
      rw [addTo_of_notMem (symbolsIn · uses) (List.mem_eraseDups.not.mpr h), List.map_append, List.map_singleton,
        symbolsIn_eq_nil h, if_pos rfl, if_neg List.not_mem_nil, List.nil_append]
      congr 1
      refine List.map_congr_left fun module hmem => ?_
      have hne : last.module ≠ module := fun heq => h (heq ▸ List.mem_eraseDups.mp hmem)
      rw [if_neg hne]

/-- The symbols of a table, in the order in which it lists them. -/
def entries (imports : Imports) : List Import :=
  imports.modules.flatMap fun (module, symbols) => symbols.map (Import.mk module)

/-- The table of some uses lists each of them once. -/
theorem nodup_entries_ofUses (uses : List Import) : (ofUses uses).entries.Nodup := by
  rw [entries, modules_ofUses, List.flatMap_map, List.nodup_flatMap]
  refine ⟨fun module _ => ?_, (nodup_eraseDups _).imp fun {first second} hne => ?_⟩
  · exact (nodup_eraseDups _).map fun _ _ h => congrArg Import.symbol h
  · refine List.disjoint_left.mpr fun use hfirst hsecond => ?_
    obtain ⟨_, -, rfl⟩ := List.mem_map.mp hfirst
    obtain ⟨_, -, heq⟩ := List.mem_map.mp hsecond
    exact hne (congrArg Import.module heq).symm

theorem mem_entries {imports : Imports} {use : Import} : use ∈ imports.entries ↔ imports.provides use := by
  rw [entries, List.mem_flatMap]
  constructor
  · rintro ⟨⟨module, symbols⟩, hmem, hsymbol⟩
    obtain ⟨symbol, hlisted, rfl⟩ := List.mem_map.mp hsymbol
    exact ⟨symbols, hmem, hlisted⟩
  · rintro ⟨symbols, hmem, hsymbol⟩
    exact ⟨(use.module, symbols), hmem, List.mem_map.mpr ⟨use.symbol, hsymbol, rfl⟩⟩

/-! ### Unions -/

/-- The symbols that a table has for a module. -/
def symbolsOf (imports : Imports) (module : String) : List String := (imports.modules.lookup module).getD []

/-- The union of tables.  A module stands where it first occurs in one of the tables, and so does each of its
symbols. -/
def union (tables : List Imports) : Imports :=
  ⟨(tables.flatMap fun table => table.modules.map Prod.fst).eraseDups.map fun module =>
    (module, (tables.flatMap fun table => table.symbolsOf module).eraseDups)⟩

private theorem lookup_map (modules : List String) (symbols : String → List String) (module : String) :
    (modules.map fun module => (module, symbols module)).lookup module =
      if module ∈ modules then some (symbols module) else none := by
  induction modules with
  | nil => rfl
  | cons first rest ih =>
    rw [List.map_cons, List.lookup_cons]
    by_cases h : module = first
    · rw [h, beq_self_eq_true, if_pos (List.mem_cons_self ..)]
    · have hmem : module ∈ first :: rest ↔ module ∈ rest := by simp [h]
      rw [beq_false_of_ne h, ih]
      simp only [hmem]

private theorem symbolsOf_ofUses (uses : List Import) (module : String) :
    (ofUses uses).symbolsOf module = symbolsIn module uses := by
  rw [symbolsOf, modules_ofUses, lookup_map _ (symbolsIn · uses)]
  split
  · rfl
  · next h => exact (symbolsIn_eq_nil (List.mem_eraseDups.not.mp h)).symm

/-- The table of uses one after the other is the union of their tables. -/
theorem ofUses_flatten (logs : List (List Import)) : ofUses logs.flatten = union (logs.map ofUses) := by
  have hmodules : (logs.map ofUses).flatMap (fun table => table.modules.map Prod.fst) =
      logs.flatMap fun uses => (uses.map Import.module).eraseDups := by
    rw [List.flatMap_map]
    refine List.flatMap_congr fun uses _ => ?_
    rw [modules_ofUses, List.map_map]
    exact List.map_id _
  have hsymbols : ∀ module, ((logs.map ofUses).flatMap fun table => table.symbolsOf module).eraseDups =
      symbolsIn module logs.flatten := by
    intro module
    have huses : (logs.flatMap fun uses => (uses.filter (·.module = module)).map Import.symbol) =
        (logs.flatten.filter (·.module = module)).map Import.symbol := by
      rw [List.filter_flatten, List.map_flatten, List.map_map]
      rfl
    simp only [List.flatMap_map, symbolsOf_ofUses, symbolsIn]
    rw [eraseDups_flatMap, huses]
  have hkeys : (logs.flatMap fun uses => uses.map Import.module) = logs.flatten.map Import.module := by
    rw [List.map_flatten]
    rfl
  have hofUses : (ofUses logs.flatten).modules = (union (logs.map ofUses)).modules := by
    rw [modules_ofUses, union, hmodules, eraseDups_flatMap, hkeys]
    refine List.map_congr_left fun module _ => ?_
    rw [hsymbols]
  exact congrArg Imports.mk hofUses

end Imports

end StubGen

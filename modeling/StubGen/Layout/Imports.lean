/-!
# Import tables

Modules stand in the order of their first use, and so do the symbols of each.

* `Imports.add` keeps what is in the table, and adds nothing twice.
* `Imports.ofUses` is the table of a list of uses.
-/

namespace StubGen

/-- A symbol and the module that provides it. -/
structure Import where
  module : String
  symbol : String
  deriving DecidableEq, Repr, Inhabited

/-- The symbols to import, by module. -/
structure Imports where
  modules : List (String × List String)
  deriving DecidableEq, Repr

namespace Imports

def empty : Imports := ⟨[]⟩

instance : Inhabited Imports := ⟨empty⟩

/-- Adds a symbol at the end of its module's symbols, or behind the last module with a module of its own. -/
def addTo (use : Import) : List (String × List String) → List (String × List String)
  | [] => [(use.module, [use.symbol])]
  | (module, symbols) :: rest =>
    if module = use.module then
      (module, if use.symbol ∈ symbols then symbols else symbols ++ [use.symbol]) :: rest
    else (module, symbols) :: addTo use rest

def add (imports : Imports) (use : Import) : Imports := ⟨addTo use imports.modules⟩

/-- The table of the symbols used, in order of first use. -/
def ofUses (uses : List Import) : Imports := uses.foldl add empty

def isEmpty (imports : Imports) : Bool := imports.modules.isEmpty

/-- Whether the table provides a symbol. -/
def provides (imports : Imports) (use : Import) : Prop :=
  ∃ symbols, (use.module, symbols) ∈ imports.modules ∧ use.symbol ∈ symbols

/-- One import statement for each module. -/
def lines (imports : Imports) : List String :=
  imports.modules.map fun (module, symbols) => "from " ++ module ++ " import " ++ ", ".intercalate symbols

private theorem provides_cons (module : String) (symbols : List String) (rest : List (String × List String))
    (use : Import) : provides ⟨(module, symbols) :: rest⟩ use ↔
      use.module = module ∧ use.symbol ∈ symbols ∨ provides ⟨rest⟩ use := by
  constructor
  · rintro ⟨found, hmem, hsym⟩
    rcases List.mem_cons.mp hmem with heq | hmem
    · cases heq
      exact Or.inl ⟨rfl, hsym⟩
    · exact Or.inr ⟨found, hmem, hsym⟩
  · rintro (⟨rfl, hsym⟩ | ⟨found, hmem, hsym⟩)
    · exact ⟨symbols, List.mem_cons_self .., hsym⟩
    · exact ⟨found, List.mem_cons_of_mem _ hmem, hsym⟩

private theorem provides_addTo_iff (added use : Import) (modules : List (String × List String)) :
    provides ⟨addTo added modules⟩ use ↔ use = added ∨ provides ⟨modules⟩ use := by
  have heq : use = added ↔ use.module = added.module ∧ use.symbol = added.symbol := by
    cases use
    cases added
    simp
  induction modules with
  | nil =>
    rw [addTo, provides_cons, heq, List.mem_singleton]
  | cons entry rest ih =>
    obtain ⟨module, symbols⟩ := entry
    unfold addTo
    split
    · next hmodule =>
      have hmem : use.symbol ∈ (if added.symbol ∈ symbols then symbols else symbols ++ [added.symbol]) ↔
          use.symbol = added.symbol ∨ use.symbol ∈ symbols := by
        split
        · next hin => exact ⟨Or.inr, fun h => h.elim (fun heq => heq ▸ hin) id⟩
        · rw [List.mem_append, List.mem_singleton, Or.comm]
      rw [provides_cons, provides_cons, hmem, heq, hmodule]
      constructor
      · rintro (⟨hmodule, hsym | hsym⟩ | hrest)
        · exact Or.inl ⟨hmodule, hsym⟩
        · exact Or.inr (Or.inl ⟨hmodule, hsym⟩)
        · exact Or.inr (Or.inr hrest)
      · rintro (⟨hmodule, hsym⟩ | ⟨hmodule, hsym⟩ | hrest)
        · exact Or.inl ⟨hmodule, Or.inl hsym⟩
        · exact Or.inl ⟨hmodule, Or.inr hsym⟩
        · exact Or.inr hrest
    · rw [provides_cons, provides_cons]
      exact (or_congr_right ih).trans or_left_comm

/-- The table of some uses provides just these. -/
theorem provides_ofUses (uses : List Import) (use : Import) : (ofUses uses).provides use ↔ use ∈ uses := by
  have hfoldl : ∀ imports : Imports, (uses.foldl add imports).provides use ↔ use ∈ uses ∨ imports.provides use := by
    induction uses with
    | nil => simp
    | cons added rest ih =>
      intro imports
      have hadd : (imports.add added).provides use ↔ use = added ∨ imports.provides use :=
        provides_addTo_iff added use imports.modules
      rw [List.foldl_cons, ih, hadd, List.mem_cons, or_left_comm, or_assoc]
  have hempty : ¬ empty.provides use := fun ⟨_, hmem, _⟩ => by cases hmem
  rw [ofUses, hfoldl, or_iff_left hempty]

/-- No module of a table of uses is without a symbol. -/
theorem exists_symbol_of_mem_ofUses {uses : List Import} {module : String} {symbols : List String}
    (h : (module, symbols) ∈ (ofUses uses).modules) : ∃ symbol, symbol ∈ symbols := by
  have hadd : ∀ (use : Import) (modules : List (String × List String)), (∀ entry ∈ modules, entry.2 ≠ []) →
      ∀ entry ∈ addTo use modules, entry.2 ≠ [] := by
    intro use modules hmodules
    induction modules with
    | nil => simp [addTo]
    | cons entry rest ih =>
      obtain ⟨hentry, hrest⟩ := List.forall_mem_cons.mp hmodules
      unfold addTo
      split
      · refine List.forall_mem_cons.mpr ⟨?_, hrest⟩
        split
        · exact hentry
        · simp
      · exact List.forall_mem_cons.mpr ⟨hentry, ih hrest⟩
  have hfoldl : ∀ imports : Imports, (∀ entry ∈ imports.modules, entry.2 ≠ []) →
      ∀ entry ∈ (uses.foldl add imports).modules, entry.2 ≠ [] := by
    clear h
    induction uses with
    | nil => exact fun _ himports => himports
    | cons use rest ih => exact fun imports himports => ih (imports.add use) (hadd use imports.modules himports)
  have hempty : ∀ entry ∈ empty.modules, entry.2 ≠ [] := fun _ hmem => by cases hmem
  exact List.exists_mem_of_ne_nil symbols (hfoldl empty hempty (module, symbols) h)

end Imports

end StubGen

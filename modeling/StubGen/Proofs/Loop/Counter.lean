import StubGen.Proofs.Loop.Range

/-!
# The counter after a loop

A loop over a range leaves its counter at the last value of the range, or does not touch it if there is none.  The loop
of the source steps its counter once more, and starts with an assignment.  So the two agree on the counter only if a
`break` or a `return` leaves the loop.

* `Machine.Variables.finish` is the state after the last round, if no round leaves the loop.
* `Ends` compares the ends of both loops, and `ends_runFor` is the induction on the rounds.
-/

namespace StubGen.CUnit

open Traced

namespace Direction

/-- The value after the last one of a range, which is its start if it has none. -/
def following (direction : Direction) (start : Int) (values : List Int) : Int :=
  (values.getLast?.map (· + direction.step)).getD start

theorem following_cons (direction : Direction) (start : Int) (count : Nat) :
    direction.following start (direction.values start (count + 1)) =
      direction.following (start + direction.step) (direction.values (start + direction.step) count) := by
  rw [following, following, values, List.getLast?_cons]
  cases (direction.values (start + direction.step) count).getLast? <;> rfl

end Direction

namespace Machine.Variables

variable {σ V : Type} {machine : Machine σ V} (laws : machine.Variables)

/-- The state after a round for each of the values; none if a round leaves the loop. -/
def finish (counter : String) (body : Node) : List Int → σ → Option σ
  | [], state => some state
  | value :: rest, state =>
    match machine.exec body (laws.set counter value state) with
    | (.normal, after) | (.continued, after) => finish counter body rest after
    | _ => none

/-- How the first run ends if the second one does: with the counter at `last` after the rounds in `finished`, and alike
if there are none since a round has left the loop. -/
structure Ends (counter : String) (last : Int) (finished : Option σ) (first second : Run σ) : Prop where
  second_of_some : ∀ final, finished = some final → second.ending = some (.normal, final)
  first_of_some : ∀ final, finished = some final → first.ending = some (.normal, laws.set counter last final)
  ending_of_none : finished = none → first.ending = second.ending

variable {laws} {counter : String} {bound next body : Node}

/-- A test is no part of how a run ends. -/
theorem Ends.after_test {last : Int} {finished : Option σ} {first second : Run σ}
    (h : laws.Ends counter last finished first second) (holds : Bool) (state : σ) :
    laws.Ends counter last finished (Run.after [.test holds state] first) second :=
  ⟨h.second_of_some, h.first_of_some, h.ending_of_none⟩

/-- A round in front of both runs. -/
theorem Ends.round {last value : Int} {rest : List Int} {state : σ} {again again' : σ → Run σ}
    (h : laws.Ends counter last (laws.finish counter body rest (machine.exec body (laws.set counter value state)).2)
      (again (machine.exec body (laws.set counter value state)).2)
      (again' (machine.exec body (laws.set counter value state)).2)) :
    laws.Ends counter last (laws.finish counter body (value :: rest) state)
      ((machine.runBody body (laws.set counter value state)).thenAgain again)
      ((machine.runBody body (laws.set counter value state)).thenAgain again') := by
  rw [finish, Machine.runBody]
  generalize machine.exec body (laws.set counter value state) = ended at h
  obtain ⟨outcome, after⟩ := ended
  cases outcome with
  | normal | continued => exact ⟨h.second_of_some, h.first_of_some, h.ending_of_none⟩
  | broke | returned => exact ⟨fun _ heq => (by cases heq), fun _ heq => (by cases heq), fun _ => rfl⟩

/-- A body that keeps its counter leaves it at the last value. -/
theorem get_finish (hkept : ∀ state, laws.get counter (machine.exec body state).2 = laws.get counter state)
    {values : List Int} {state final : σ} (h : laws.finish counter body values state = some final) :
    laws.get counter final = values.getLast?.getD (laws.get counter state) := by
  induction values generalizing state with
  | nil =>
    cases h
    rfl
  | cons value rest ih =>
    have hvalue := hkept (laws.set counter value state)
    rw [laws.get_set] at hvalue
    rw [finish] at h
    rw [List.getLast?_cons, Option.getD_some, ← hvalue]
    split at h
    · rename_i hexec
      rw [hexec]
      exact ih h
    · rename_i hexec
      rw [hexec]
      exact ih h
    · cases h

/-- How a loop that counts ends, from how the loop over its values does. -/
theorem ends_runFor {direction : Direction} {inclusive : Bool} {op : String}
    (hop : inclusive? direction op = some inclusive) (hnext : directionOf? counter next = some direction)
    (hsteady : laws.Steady counter bound body) {stop : Int} {count fuel : Nat} (hfuel : count ≤ fuel) {value : Int}
    (hcount : direction.count value stop = count) {state : σ}
    (hstop : direction.stop inclusive (laws.number (machine.eval bound state).1) = stop) :
    laws.Ends counter (direction.following value (direction.values value count))
      (laws.finish counter body (direction.values value count) state)
      (machine.runFor (some (.binary op (.ident counter) bound)) (some next) body fuel (laws.set counter value state))
      (laws.runValues counter body (direction.values value count) state) := by
  induction count generalizing fuel value state with
  | zero =>
    have hdone : decide (0 < direction.count value stop) = false := by rw [hcount]; rfl
    have hending : (machine.runFor (some (.binary op (.ident counter) bound)) (some next) body fuel
        (laws.set counter value state)).ending = some (.normal, laws.set counter value state) := by
      cases fuel <;> rw [Machine.runFor, testThen?_counter hop hsteady _ hstop, hdone] <;> rfl
    refine ⟨fun final h => ?_, fun final h => ?_, fun h => by cases h⟩
    · cases h
      rfl
    · cases h
      exact hending
  | succ count ih =>
    obtain ⟨fuel, rfl⟩ : ∃ rest, fuel = rest + 1 := ⟨fuel - 1, by omega⟩
    have hgoes : decide (0 < direction.count value stop) = true := by rw [hcount]; rfl
    rw [direction.following_cons, Machine.runFor, testThen?_counter hop hsteady _ hstop, hgoes, Direction.values,
      runValues]
    refine (Ends.round ?_).after_test true _
    -- the body has kept the counter, so the next round starts with the next value
    have hkept := hsteady.counter_exec (laws.set counter value state)
    rw [laws.get_set] at hkept
    rw [Machine.performAll, Option.map_some, Option.getD_some, laws.perform_direction hnext, hkept]
    exact ih (by omega) (Direction.count_step hcount) (by rw [hsteady.bound_exec, hsteady.bound_set, hstop])

end Machine.Variables

/-- The output of a loop that counts. -/
theorem code_of_counting? {options : UnitOptions} {context : Context} {after : Bool} {init cond next body : Node}
    {code : List Code} {loop : Counting} (hloop : counting? init cond next = some loop)
    (h : (writeStmt options context after (.forLoop (some init) (some cond) (some next) body)).result = .ok code) :
    ∃ header bodyCode, (countingHeader options.reduceParentheses loop).result = .ok header ∧
      (writeStmt options context.enterLoop false body).result = .ok bodyCode ∧
      code = elseCode after [.suite header (Code.orPass bodyCode)] := by
  rw [writeStmt_forLoop] at h
  obtain ⟨lowered, hlowered, h⟩ := bind_eq_ok.mp h
  cases h
  have hcounting : (do counting? (← some init) (← some cond) (← some next)) = some loop := hloop
  rw [writeFor, hcounting] at hlowered
  obtain ⟨header, hheader, hlowered⟩ := bind_eq_ok.mp hlowered
  obtain ⟨bodyCode, hbodyCode, hlowered⟩ := bind_eq_ok.mp hlowered
  cases hlowered
  exact ⟨header, bodyCode, hheader, hbodyCode, rfl⟩

/-- When both loops run out, the output has left the counter at the last value of the range, or untouched if it is
empty, and the source has it one step further, or at its start.  A round that leaves the loops ends both in the same
state. -/
theorem counter_after_loop (options : UnitOptions) (context : Context) (after : Bool) {init left bound next body : Node}
    {op : String} {code : List Code} {loop : Counting} (hloop : counting? init (.binary op left bound) next = some loop)
    (h : (writeStmt options context after
      (.forLoop (some init) (some (.binary op left bound)) (some next) body)).result = .ok code) :
    ∃ header bodyCode, (countingHeader options.reduceParentheses loop).result = .ok header ∧
      (writeStmt options context.enterLoop false body).result = .ok bodyCode ∧
      code = elseCode after [.suite header (Code.orPass bodyCode)] ∧
      ∀ {σ V : Type} (machine : Machine σ V) (laws : machine.Variables), laws.Steady loop.counter bound body →
        ∀ fuel state, (laws.rangeOf loop state).length ≤ fuel →
          let (start, before) := machine.eval loop.start state
          let values := laws.rangeOf loop state
          let loopOfSource := SourceLoop.forLoop (some init) (some (.binary op left bound)) (some next) body
          let source := loopOfSource.run machine fuel state
          let output := laws.runRange loop body state
          (∀ final, laws.finish loop.counter body values before = some final →
            output.ending = some (.normal, final) ∧
              laws.get loop.counter final = values.getLast?.getD (laws.get loop.counter before) ∧
              source.ending =
                some (.normal, laws.set loop.counter (loop.direction.following (laws.number start) values) final)) ∧
          (laws.finish loop.counter body values before = none → source.ending = output.ending) := by
  obtain ⟨header, bodyCode, hheader, hbodyCode, hcode⟩ := code_of_counting? hloop h
  refine ⟨header, bodyCode, hheader, hbodyCode, hcode, ?_⟩
  intro σ V machine laws hsteady fuel state hfuel
  obtain ⟨inclusive, hinit, hnext, rfl, -, hop, hbound⟩ := counting?_ok hloop
  have hstill : ∀ state, (machine.eval loop.bound state).2 = state := by
    rw [hbound]
    exact fun state => laws.eval_effectless state (effectless_rangeBound hsteady.effectless)
  have hstop : ∀ state, laws.number (machine.eval loop.bound state).1 =
      loop.direction.stop inclusive (laws.number (machine.eval bound state).1) := by
    rw [hbound]
    exact laws.number_rangeBound loop.direction inclusive bound
  rw [Machine.Variables.rangeOf, Direction.range, Direction.length_values] at hfuel
  have hends := Machine.Variables.ends_runFor hop hnext hsteady hfuel rfl
    (hstop (machine.eval loop.start state).2).symm
  refine ⟨fun final hfinish => ⟨?_, Machine.Variables.get_finish hsteady.counter_exec hfinish, ?_⟩, fun hleft => ?_⟩
  · rw [Machine.Variables.runRange, hstill]
    exact hends.second_of_some final hfinish
  · rw [SourceLoop.run, Machine.performAll, Option.map_some, Option.getD_some, laws.perform_induction hinit]
    exact hends.first_of_some final hfinish
  · rw [Machine.Variables.runRange, hstill, SourceLoop.run, Machine.performAll, Option.map_some, Option.getD_some,
      laws.perform_induction hinit]
    exact hends.ending_of_none hleft

/-- Variables with a bound of three, and a counter that has been used before. -/
def usedCounter (n : Int) : Store := ⟨fun name => if name = "n" then n else if name = "i" then 7 else 0⟩

private theorem exec_summing (store : Store) : ∃ sum, integers.exec summing store = (.normal, store.set "k" sum) :=
  ⟨_, rfl⟩

private theorem steady_summing : variablesOfIntegers.Steady "i" (.ident "n") summing where
  effectless := by
    intro sub hsub
    rw [List.mem_singleton.mp hsub]
    rfl
  counter_exec store := by
    obtain ⟨sum, hexec⟩ := exec_summing store
    rw [hexec]
    change (store.set "k" sum).get "i" = store.get "i"
    exact Store.get_set_other (by decide) sum store
  bound_exec store := by
    obtain ⟨sum, hexec⟩ := exec_summing store
    rw [hexec]
    change (store.set "k" sum).get "n" = store.get "n"
    exact Store.get_set_other (by decide) sum store
  bound_set value store := by
    change (store.set "i" value).get "n" = store.get "n"
    exact Store.get_set_other (by decide) value store

theorem counter_after_summing : (writeStmt {} .outermost false (countedLoop summing).node).result =
      .ok [.suite "for i in range(0, n):" [.line "k += i"]] ∧
    ∃ final, (variablesOfIntegers.runRange countedToBound summing (usedCounter 3)).ending = some (.normal, final) ∧
      final.get "i" = 2 ∧
      ((countedLoop summing).run integers 3 (usedCounter 3)).ending = some (.normal, final.set "i" 3) := by
  have hcode : (writeStmt {} .outermost false (countedLoop summing).node).result =
      .ok [.suite "for i in range(0, n):" [.line "k += i"]] := rfl
  have hcounting : counting? (.assign "=" (.ident "i") (.constant "int" "0")) (.binary "<" (.ident "i") (.ident "n"))
      (.unary "p++" (.ident "i")) = some countedToBound := rfl
  have hvalues : variablesOfIntegers.rangeOf countedToBound (usedCounter 3) = [0, 1, 2] := by decide +kernel
  obtain ⟨final, hfinish⟩ : ∃ final, variablesOfIntegers.finish "i" summing [0, 1, 2] (usedCounter 3) = some final :=
    ⟨_, rfl⟩
  obtain ⟨header, bodyCode, -, -, -, hafter⟩ := counter_after_loop {} .outermost false hcounting hcode
  have hends := hafter integers variablesOfIntegers steady_summing 3 (usedCounter 3) (by rw [hvalues]; decide)
  rw [hvalues] at hends
  obtain ⟨houtput, hcounter, hsource⟩ := hends.1 final hfinish
  exact ⟨hcode, final, houtput, hcounter, hsource⟩

/-- A loop that runs out leaves its counter at another value than its output does, also if its body never runs. -/
theorem counter_differs_after_summing : ∃ code,
    (writeStmt {} .outermost false (countedLoop summing).node).result = .ok code ∧
    Code.lines code = ["for i in range(0, n):", "    k += i"] ∧
    ((countedLoop summing).run integers 3 (usedCounter 3)).ending.map (·.2.get "i") = some 3 ∧
    (variablesOfIntegers.runRange countedToBound summing (usedCounter 3)).ending.map (·.2.get "i") = some 2 ∧
    ((countedLoop summing).run integers 3 (usedCounter 0)).ending.map (·.2.get "i") = some 0 ∧
    (variablesOfIntegers.runRange countedToBound summing (usedCounter 0)).ending.map (·.2.get "i") = some 7 := by
  have hlines : (writeStmt {} .outermost false (countedLoop summing).node).result.toOption.map Code.lines =
      some ["for i in range(0, n):", "    k += i"] := by decide +kernel
  obtain ⟨code, hcode, hlines⟩ := exists_of_lines hlines
  refine ⟨code, hcode, hlines, ?_, ?_, ?_, ?_⟩ <;> decide +kernel

end StubGen.CUnit

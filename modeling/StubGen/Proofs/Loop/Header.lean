import StubGen.Proofs.Expression.Integer
import StubGen.Proofs.Expression.RoundTrip
import StubGen.Proofs.Loop.Range

/-!
# The header of a counting loop

The header of a counting loop names a range.  Its numbers are the values that the counter has whenever the test of the
loop holds.

* `Counts` says which values these are, and `Advances` by how much the step of a loop moves its counter.
* `rangeNumbers?` are the numbers of a range of the host; `IntegerMeaning` is what they need to know about expressions.
* `exists_spells_rangeBound` is the bound of the range: a constant is moved as a number, and any other bound, like a
  constant that does not fit 64 bits, gets an operand more.
-/

namespace StubGen.CUnit

open Host Traced

/-! ### Loops -/

/-- The step of a loop moves its counter by an amount. -/
inductive Advances (counter : String) : Node → Int → Prop
  | increment {op : String} : op ∈ ["++", "p++"] → Advances counter (.unary op (.ident counter)) 1
  | decrement {op : String} : op ∈ ["--", "p--"] → Advances counter (.unary op (.ident counter)) (-1)
  | add {type value : String} {n : Nat} :
      IsInteger value.toList n → Advances counter (.assign "+=" (.ident counter) (.constant type value)) n
  | subtract {type value : String} {n : Nat} :
      IsInteger value.toList n → Advances counter (.assign "-=" (.ident counter) (.constant type value)) (-n)

/-- The values that a counter has whenever the test of its loop holds, from one value on. -/
inductive Counts (op : String) (bound step : Int) : Int → List Int → Prop
  | stop {value : Int} : comparison op value bound = false → Counts op bound step value []
  | go {value : Int} {rest : List Int} :
      comparison op value bound = true → Counts op bound step (value + step) rest →
        Counts op bound step value (value :: rest)

/-- The expression may have this value: that of an integer constant is fixed. -/
def Node.Admits (node : Node) (value : Int) : Prop :=
  ∀ type text n, node = .constant type text → IsInteger text.toList n → value = n

/-! ### Ranges of the host -/

/-- The numbers of a range with a start, a stop and a step. -/
def hostRange (start stop step : Int) : List Int :=
  let count := if 0 < step then (stop - start + step - 1) / step else (start - stop - step - 1) / -step
  (List.range count.toNat).map fun (index : Nat) => start + step * index

/-- The numbers of a call of `range`; a step of zero fails. -/
def rangeNumbers? (meaning : HostExpr → Option Int) : HostExpr → Option (List Int)
  | .call (.name "range") [start, stop] => do return hostRange (← meaning start) (← meaning stop) 1
  | .call (.name "range") [start, stop, step] => do
    let numbers := hostRange (← meaning start) (← meaning stop)
    let step ← meaning step
    if step = 0 then none else some (numbers step)
  | _ => none

/-- What is known about the values of host expressions. -/
structure IntegerMeaning (meaning : HostExpr → Option Int) : Prop where
  literal : ∀ {text : String} {n : Nat}, hostInteger? text.toList = some n → meaning (.literal text) = some (n : Int)
  negation : ∀ {expr : HostExpr} {value : Int}, meaning expr = some value → meaning (.unary "-" expr) = some (-value)
  sum : ∀ {left right : HostExpr} {l r : Int}, meaning left = some l → meaning right = some r →
    meaning (.binary "+" left right) = some (l + r)
  difference : ∀ {left right : HostExpr} {l r : Int}, meaning left = some l → meaning right = some r →
    meaning (.binary "-" left right) = some (l - r)

namespace Direction

theorem range_eq_nil {direction : Direction} {start stop : Int} (h : direction.count start stop = 0) :
    direction.range start stop = [] := by
  rw [range, h, values]

theorem range_eq_cons {direction : Direction} {start stop : Int} (h : 0 < direction.count start stop) :
    direction.range start stop = start :: direction.range (start + direction.step) stop := by
  obtain ⟨rest, hrest⟩ := Nat.exists_eq_add_one_of_ne_zero (Nat.ne_of_gt h)
  rw [range, range, count_step hrest, hrest, values]

private theorem values_eq_map (direction : Direction) (start : Int) (count : Nat) :
    direction.values start count = (List.range count).map fun (index : Nat) => start + direction.step * index := by
  induction count generalizing start with
  | zero => rfl
  | succ count ih =>
    rw [values, ih, List.range_succ_eq_map, List.map_cons, List.map_map]
    congr 1
    · simp
    · refine List.map_congr_left fun index _ => ?_
      cases direction <;> simp only [Function.comp_apply, step] <;> omega

/-- A range in steps of one up or down. -/
theorem hostRange_eq (direction : Direction) (start stop : Int) :
    hostRange start stop direction.step = direction.range start stop := by
  have hcount : (if 0 < direction.step then (stop - start + direction.step - 1) / direction.step
      else (start - stop - direction.step - 1) / -direction.step) = direction.step * (stop - start) := by
    cases direction with
    | up =>
      rw [step, if_pos (by decide)]
      omega
    | down =>
      rw [step, if_neg (by decide), Int.neg_neg]
      omega
  rw [range, values_eq_map, hostRange, hcount]
  rfl

/-- A counter takes the values of the range up to its stop. -/
theorem counts_iff {direction : Direction} {op : String} {inclusive : Bool}
    (hop : inclusive? direction op = some inclusive) (bound : Int) {start : Int} {values : List Int} :
    Counts op bound direction.step start values ↔ values = direction.range start (direction.stop inclusive bound) := by
  obtain ⟨-, -, hholds⟩ := comparison_inclusive hop
  constructor
  · intro h
    induction h with
    | stop hfails =>
      rw [hholds, decide_eq_false_iff_not, Nat.not_lt, Nat.le_zero] at hfails
      rw [range_eq_nil hfails]
    | go hgoes _ ih =>
      rw [hholds, decide_eq_true_eq] at hgoes
      rw [range_eq_cons hgoes, ih]
  · rintro rfl
    -- by induction on the number of values that are left
    generalize hcount : direction.count start (direction.stop inclusive bound) = count
    induction count generalizing start with
    | zero =>
      rw [range_eq_nil hcount]
      exact .stop (by rw [hholds, hcount]; rfl)
    | succ count ih =>
      have hpos : 0 < direction.count start (direction.stop inclusive bound) := by omega
      rw [range_eq_cons hpos]
      exact .go (by rw [hholds, decide_eq_true hpos]) (ih (count_step hcount))

end Direction

/-! ### Constants -/

/-- The text of an integer constant is read as a literal. -/
theorem spells_literal (type : String) {text : String} {n : Nat} (h : IsInteger text.toList n) :
    Spells .atom (literalText type text) (.literal (literalText type text)) :=
  @spells_renderExpr true _ (.constant type (.inl (isNumber_of_isInteger h))) _ rfl

/-- Whatever the text of an expression is read as, an integer constant has its value there. -/
private theorem admits_of_spells {meaning : HostExpr → Option Int} (laws : IntegerMeaning meaning) {reduce : Bool}
    {node : Node} {text : String} {expr : HostExpr} {value : Int} (htext : (renderExpr reduce node).result = .ok text)
    (hexpr : Spells (binding node) text expr) (hvalue : meaning expr = some value) : node.Admits value := by
  rintro type constant n rfl hinteger
  cases htext
  have hread := (spells_literal type hinteger).readExpr
  rw [hexpr.readExpr, Option.some.injEq] at hread
  rw [hread, laws.literal (hostInteger?_literalText type hinteger), Option.some.injEq] at hvalue
  exact hvalue.symm

/-- The numbers that a moved constant may be. -/
private theorem exists_spells_number {value : Int} (h : -1 ≤ value) :
    ∃ level expr, Spells level (literalText "int" (toString value)) expr ∧
      ∀ {meaning}, IntegerMeaning meaning → meaning expr = some value := by
  by_cases hsign : 0 ≤ value
  · obtain ⟨n, rfl⟩ := Int.eq_ofNat_of_zero_le hsign
    have hinteger : IsInteger (toString (n : Int)).toList n := isInteger_toString n
    exact ⟨_, _, spells_literal "int" hinteger, fun laws => laws.literal (hostInteger?_literalText "int" hinteger)⟩
  · obtain rfl : value = -1 := by omega
    have hone : IsInteger "1".toList 1 := isInteger_toString 1
    have hminus := spells_sign true (by decide : "-" ∈ ["-", "+", "~"]) (spells_literal "int" hone)
    rw [enclose, needsParens_atom] at hminus
    refine ⟨_, _, hminus, fun laws => laws.negation ?_⟩
    exact laws.literal (hostInteger?_literalText "int" hone)

/-! ### Bounds -/

/-- The bound of a range is that of the loop, or a number next to it, or it has an operand more. -/
private theorem rangeBound_cases (direction : Direction) (inclusive : Bool) (bound : Node) :
    inclusive = false ∧ rangeBound direction inclusive bound = bound ∨
    inclusive = true ∧ ((∃ value, bound.intValue? = some value ∧
        rangeBound direction inclusive bound = .constant "int" (toString (value + direction.step))) ∨
      rangeBound direction inclusive bound =
        .binary (match direction with | .up => "+" | .down => "-") bound (.constant "int" "1")) := by
  cases inclusive with
  | false => exact .inl ⟨rfl, rfl⟩
  | true =>
    refine .inr ⟨rfl, ?_⟩
    unfold rangeBound
    simp only [Bool.not_true, Bool.false_eq_true, ↓reduceIte]
    cases hmoved : bound.intValue?.bind fun value => int64? (value + direction.step) with
    | some value =>
      obtain ⟨old, hold, hfits⟩ := Option.bind_eq_some_iff.mp hmoved
      obtain ⟨-, rfl⟩ := int64?_eq_some_iff.mp hfits
      exact .inl ⟨old, hold, rfl⟩
    | none => cases direction <;> exact .inr rfl

/-- A loop has a text for its bound if its range has one. -/
private theorem exists_renderExpr_bound {reduce inclusive : Bool} {direction : Direction} {bound : Node} {text : String}
    (htext : (renderExpr reduce (rangeBound direction inclusive bound)).result = .ok text) :
    ∃ boundText, (renderExpr reduce bound).result = .ok boundText := by
  rcases rangeBound_cases direction inclusive bound with ⟨-, hsame⟩ | ⟨-, ⟨value, hvalue, -⟩ | hmoved⟩
  · exact ⟨text, hsame ▸ htext⟩
  · cases bound with
    | constant type value => exact ⟨_, rfl⟩
    | _ => cases hvalue
  · rw [hmoved] at htext
    obtain ⟨_, boundText, _, -, hbound, -, -⟩ := renderExpr_binary.mp htext
    exact ⟨boundText, hbound⟩

/-- The text of a range's bound, from the expression as which that of the loop's bound is read. -/
theorem exists_spells_rangeBound {reduce inclusive : Bool} {direction : Direction} {bound : Node}
    {boundText text : String} {expr : HostExpr} (hgenuine : bound.IsGenuine)
    (hbound : (renderExpr reduce bound).result = .ok boundText) (hexpr : Spells (binding bound) boundText expr)
    (htext : (renderExpr reduce (rangeBound direction inclusive bound)).result = .ok text) :
    ∃ level stop, Spells level text stop ∧ ∀ {meaning : HostExpr → Option Int} {value : Int}, IntegerMeaning meaning →
      meaning expr = some value → meaning stop = some (direction.stop inclusive value) := by
  rcases rangeBound_cases direction inclusive bound with ⟨rfl, hsame⟩ | ⟨rfl, ⟨old, hold, hmoved⟩ | hmoved⟩
  · rw [hsame, hbound] at htext
    cases htext
    exact ⟨_, expr, hexpr, fun _ h => h⟩
  · obtain ⟨type, constant, n, rfl, -, hinteger, rfl⟩ := exists_of_isGenuine hgenuine hold
    have hleast : -1 ≤ (n : Int) + direction.step := by cases direction <;> simp only [Direction.step] <;> omega
    obtain ⟨level, stop, hstop, hmeaning⟩ := exists_spells_number hleast
    rw [hmoved] at htext
    obtain rfl : literalText "int" (toString ((n : Int) + direction.step)) = text := Except.ok.inj htext
    refine ⟨level, stop, hstop, fun laws hvalue => ?_⟩
    rw [hmeaning laws, admits_of_spells laws hbound hexpr hvalue type constant n rfl hinteger]
    rfl
  · rw [hmoved] at htext
    obtain ⟨level, left, right, hop, hleft, hright, rfl⟩ := renderExpr_binary.mp htext
    obtain rfl : literalText "int" "1" = right := Except.ok.inj hright
    rw [hbound] at hleft
    cases hleft
    have hone : IsInteger "1".toList 1 := isInteger_toString 1
    refine ⟨level, _, spells_binary reduce hop hexpr (spells_literal "int" hone), fun laws hvalue => ?_⟩
    have hnumber := laws.literal (hostInteger?_literalText "int" hone)
    cases direction with
    | up => exact laws.sum hvalue hnumber
    | down => exact laws.difference hvalue hnumber

/-! ### Headers -/

theorem induction?_ok {init start : Node} {counter : String} (h : induction? init = some (counter, start)) :
    init = .assign "=" (.ident counter) start ∨
      ∃ quals storage type width, init = .declList [.decl (some counter) quals storage type (some start) width] := by
  unfold induction? at h
  split at h
  · split at h
    · rename_i hop
      cases h
      exact .inl (by rw [hop])
    · cases h
  · cases h
    exact .inr ⟨_, _, _, _, rfl⟩
  · cases h

theorem advances_of_directionOf? {counter : String} {next : Node} {direction : Direction}
    (hgenuine : Everywhere Node.IsGenuine next) (h : directionOf? counter next = some direction) :
    Advances counter next direction.step := by
  rcases directionOf?_ok h with ⟨op, rfl, hstep, hamount⟩ | ⟨op, value, rfl, hone, hop, hassigned⟩
  · rw [← hamount]
    simp only [Node.isStepOp, decide_eq_true_eq] at hstep
    rcases hstep with rfl | rfl | rfl | rfl
    · exact .increment (by decide)
    · exact .decrement (by decide)
    · exact .increment (by decide)
    · exact .decrement (by decide)
  · obtain ⟨type, text, n, rfl, -, hinteger, hn⟩ :=
      exists_of_isGenuine (hgenuine.parts value (by simp [Node.parts])).self hone
    have hzero := hassigned 0
    have hmore := hassigned 1
    simp only [List.mem_cons, List.not_mem_nil, or_false] at hop
    rcases hop with rfl | rfl | rfl
    · -- a plain assignment does not depend on the old value
      simp only [assigned, ↓reduceIte] at hzero hmore
      omega
    · simp only [assigned, String.reduceEq, ↓reduceIte] at hzero
      rw [show direction.step = n by omega]
      exact .add hinteger
    · simp only [assigned, String.reduceEq, ↓reduceIte] at hzero
      rw [show direction.step = -n by omega]
      exact .subtract hinteger

private theorem exists_binary_of_counting? {init cond next : Node} {loop : Counting}
    (h : counting? init cond next = some loop) : ∃ op left right, cond = .binary op left right := by
  cases cond with
  | binary op left right => exact ⟨op, left, right, rfl⟩
  | _ => simp [counting?] at h

/-- The range in the header of a loop. -/
def rangeCall (direction : Direction) (start stop : String) : String :=
  match direction with
  | .up => "range(" ++ ", ".intercalate [start, stop] ++ ")"
  | .down => "range(" ++ ", ".intercalate [start, stop, "-1"] ++ ")"

private theorem countingHeader_ok {reduce : Bool} {loop : Counting} {header : String}
    (h : (countingHeader reduce loop).result = .ok header) :
    ∃ startText boundText, (renderExpr reduce loop.start).result = .ok startText ∧
      (renderExpr reduce loop.bound).result = .ok boundText ∧
      header = "for " ++ escapeName loop.counter ++ " in " ++ rangeCall loop.direction startText boundText ++ ":" := by
  obtain ⟨startText, hstart, h⟩ := bind_eq_ok.mp h
  obtain ⟨boundText, hbound, h⟩ := bind_eq_ok.mp h
  refine ⟨startText, boundText, hstart, hbound, ?_⟩
  cases hdirection : loop.direction <;>
  · rw [hdirection] at h
    cases h
    simp [rangeCall, ← String.toList_inj]

/-- The range is read as a call, and its numbers are those in steps of one up or down. -/
private theorem exists_readExpr_rangeCall {startText stopText : String} {startLevel stopLevel : Level}
    {start stop : HostExpr} (direction : Direction) (hstart : Spells startLevel startText start)
    (hstop : Spells stopLevel stopText stop) :
    ∃ expr, readExpr (rangeCall direction startText stopText) = some expr ∧
      ∀ {meaning : HostExpr → Option Int} {first last : Int}, IntegerMeaning meaning → meaning start = some first →
        meaning stop = some last → rangeNumbers? meaning expr = some (direction.range first last) := by
  have hname : Spells .atom "range" (.name "range") :=
    spells_name ⟨'r', "ange".toList, rfl, by decide, List.all_eq_true.mp (by decide)⟩ (by decide)
  have hcall : ∀ {texts : List String} {args : List HostExpr}, SpellAll texts args →
      readExpr ("range(" ++ ", ".intercalate texts ++ ")") = some (.call (.name "range") args) := by
    intro texts args hargs
    have hread := (spells_call true hname hargs).readExpr
    rw [enclose, needsParens_atom] at hread
    exact hread
  cases direction with
  | up =>
    refine ⟨.call (.name "range") [start, stop], hcall (.cons hstart (.cons hstop spellAll_nil)), ?_⟩
    intro meaning first last laws hfirst hlast
    simp [rangeNumbers?, hfirst, hlast, ← Direction.hostRange_eq, Direction.step]
  | down =>
    obtain ⟨level, step, hstep, hminus⟩ := exists_spells_number (show -1 ≤ (-1 : Int) by decide)
    refine ⟨.call (.name "range") [start, stop, step],
      hcall (.cons hstart (.cons hstop (.cons hstep spellAll_nil))), ?_⟩
    intro meaning first last laws hfirst hlast
    simp [rangeNumbers?, hfirst, hlast, hminus laws, ← Direction.hostRange_eq, Direction.step]

/-- The numbers of the range in the header of a counting loop are the values that the counter has whenever the test of
the loop holds. -/
theorem counts_iff_rangeNumbers (reduce : Bool) {init cond next : Node} {loop : Counting} {header : String}
    (hloop : counting? init cond next = some loop) (hheader : (countingHeader reduce loop).result = .ok header)
    (hcond : Everywhere Node.IsGenuine cond) (hnext : Everywhere Node.IsGenuine next) :
    ∃ op right step startText rightText call,
      (init = .assign "=" (.ident loop.counter) loop.start ∨ ∃ quals storage type width,
        init = .declList [.decl (some loop.counter) quals storage type (some loop.start) width]) ∧
      cond = .binary op (.ident loop.counter) right ∧ op ∈ ["<", "<=", ">", ">="] ∧
      Advances loop.counter next step ∧
      (renderExpr reduce loop.start).result = .ok startText ∧ (renderExpr reduce right).result = .ok rightText ∧
      header = "for " ++ escapeName loop.counter ++ " in " ++ call ++ ":" ∧
      ∀ {start bound : HostExpr}, Spells (binding loop.start) startText start →
        Spells (binding right) rightText bound → ∃ expr, readExpr call = some expr ∧
          ∀ {meaning : HostExpr → Option Int} {a n : Int}, IntegerMeaning meaning → meaning start = some a →
            meaning bound = some n → loop.start.Admits a ∧ right.Admits n ∧
              ∃ numbers, rangeNumbers? meaning expr = some numbers ∧
                ∀ values, Counts op n step a values ↔ values = numbers := by
  obtain ⟨op, left, right, rfl⟩ := exists_binary_of_counting? hloop
  obtain ⟨inclusive, hinit, hdirection, rfl, -, hop, hbound⟩ := counting?_ok hloop
  obtain ⟨startText, stopText, hstartText, hstopText, rfl⟩ := countingHeader_ok hheader
  have hgenuine : right.IsGenuine := (hcond.parts right (by simp [Node.parts])).self
  rw [hbound] at hstopText
  obtain ⟨rightText, hrightText⟩ := exists_renderExpr_bound hstopText
  refine ⟨op, right, loop.direction.step, startText, rightText, _, induction?_ok hinit, rfl,
    (comparison_inclusive hop).2.1, advances_of_directionOf? hnext hdirection, hstartText, hrightText, rfl,
    fun {start bound} hstart hright => ?_⟩
  obtain ⟨level, stop, hstop, hmoved⟩ := exists_spells_rangeBound hgenuine hrightText hright hstopText
  obtain ⟨expr, hread, hnumbers⟩ := exists_readExpr_rangeCall loop.direction hstart hstop
  refine ⟨expr, hread, fun {meaning a n} laws ha hn => ?_⟩
  exact ⟨admits_of_spells laws hstartText hstart ha, admits_of_spells laws hrightText hright hn, _,
    hnumbers laws ha (hmoved laws hn), fun values => Direction.counts_iff hop n⟩

/-- Sums and differences of integers and variables. -/
def hostValue (env : String → Int) : HostExpr → Option Int
  | .name name => some (env name)
  | .literal text => (hostInteger? text.toList).map Nat.cast
  | .unary op operand => if op = "-" then (hostValue env operand).map (-·) else none
  | .binary op left right =>
    if op = "+" then return (← hostValue env left) + (← hostValue env right)
    else if op = "-" then return (← hostValue env left) - (← hostValue env right)
    else none
  | _ => none
termination_by structural expr => expr

theorem integerMeaning_hostValue (env : String → Int) : IntegerMeaning (hostValue env) where
  literal h := by simp [hostValue, h]
  negation h := by simp [hostValue, h]
  sum hl hr := by simp [hostValue, hl, hr]
  difference hl hr := by simp [hostValue, hl, hr]

/-- `for (i = n; i >= 0x10; i--)`. -/
def countedDown : Counting := ⟨"i", .ident "n", .constant "int" "15", .down⟩

theorem counts_iff_countedDown :
    (countingHeader true countedDown).result = .ok "for i in range(n, 15, -1):" ∧
    ∃ expr, readExpr "range(n, 15, -1)" = some expr ∧ ∀ env : String → Int,
      ∃ numbers, rangeNumbers? (hostValue env) expr = some numbers ∧
        ∀ values, Counts ">=" 16 (-1) (env "n") values ↔ values = numbers := by
  have hloop : counting? (.assign "=" (.ident "i") (.ident "n")) (.binary ">=" (.ident "i") (.constant "int" "0x10"))
      (.unary "p--" (.ident "i")) = some countedDown := rfl
  have hheader : (countingHeader true countedDown).result = .ok "for i in range(n, 15, -1):" := by decide +kernel
  have hsixteen : IsInteger "0x10".toList 16 :=
    ⟨"0x10".toList, [], rfl, .hexadecimal (by decide) (by decide) (by decide), .inl rfl⟩
  have hident : ∀ name, Everywhere Node.IsGenuine (.ident name) :=
    fun name => .of_parts (fun _ _ heq _ => by cases heq) (by simp [Node.parts])
  have hcond : Everywhere Node.IsGenuine (.binary ">=" (.ident "i") (.constant "int" "0x10")) := by
    refine .of_parts (fun _ _ heq _ => by cases heq) ?_
    simp only [Node.parts, List.forall_mem_cons]
    refine ⟨hident "i", .of_parts (fun type value heq _ => ?_) (by simp [Node.parts]), by simp⟩
    cases heq
    exact ⟨16, hsixteen⟩
  have hnext : Everywhere Node.IsGenuine (.unary "p--" (.ident "i")) :=
    .of_parts (fun _ _ heq _ => by cases heq) (by simp [Node.parts, hident])
  obtain ⟨op, right, step, startText, rightText, call, -, hbinary, -, hadvances, hstart, hright, hcall, hcounts⟩ :=
    counts_iff_rangeNumbers true hloop hheader hcond hnext
  cases hbinary
  cases hstart
  cases hright
  obtain rfl : step = -1 := by
    cases hadvances with
    | increment hop => exact absurd hop (by decide)
    | decrement _ => rfl
  obtain rfl : call = "range(n, 15, -1)" := by
    have hwords : "for " ++ escapeName countedDown.counter ++ " in " = "for i in " := by decide
    rw [hwords, show "for i in range(n, 15, -1):" = "for i in " ++ "range(n, 15, -1)" ++ ":" from rfl,
      String.append_left_inj, String.append_right_inj] at hcall
    exact hcall.symm
  obtain ⟨expr, hread, hnumbers⟩ := hcounts (spells_ident ⟨'n', [], rfl, by decide, by simp⟩)
    (spells_literal "int" hsixteen)
  refine ⟨hheader, expr, hread, fun env => ?_⟩
  obtain ⟨-, -, hnumbers⟩ := hnumbers (integerMeaning_hostValue env) rfl rfl
  exact hnumbers

end StubGen.CUnit

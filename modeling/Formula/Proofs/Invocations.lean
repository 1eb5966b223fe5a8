import Formula.Proofs.Defects
import Formula.Proofs.Drawing
import Formula.Proofs.EvaluationOrder
import Formula.Proofs.Unmentioned

/-!
# The shape of calls

A library function declares how many arguments it takes, and by its name whether a subscript comes
after them. Compilation checks the one where a call is looked up and appends the other elsewhere,
and `|x|` and `x!` have a check of their own. All the same, the calls in a compiled function have
the shape that the functions declare, and it only ever invokes them so. The functions of the
standard library need no more than that. So what compiles with it has a result at every list of
enough arguments, whatever numbers it draws.

## Main definitions

* `Expr.Calls` — the terms that call a function, and with what.
* `CompiledFunction.calls` — the calls in a function, with the number of their arguments.

## Main statements

* `Expr.calls_of_invocation?` — a term that is not defective calls a function with its shape.
* `CompiledFunction.admits_of_mem_calls` — so does every call in a compiled function.
* `Standard.isTotal` — a standard function has a value at as many arguments as it declares.
* `calls_have_declared_shape` — the invocations of compiled functions, and the standard library.
-/

namespace Formula

variable {T : Type}

/-! ## Functions of words -/

namespace Library

variable {l : Library T} {word : String} {subscripted : Bool}

theorem function?_of_callee? {entry : FunctionEntry T}
    (h : l.callee? word subscripted = some entry) :
    l.function? entry.name = some entry.function ∧
      FunctionName.acceptsVariant entry.name = subscripted ∧
      FunctionName.canonical entry.name = word := by
  obtain ⟨hname, hfunction⟩ := Scope.entry_of_findSome? { params := [], library := l } h
  exact ⟨hfunction, FunctionName.canonical_of_mem hname⟩

/-- A function that fits one operand and takes no subscript may be given one argument. -/
theorem admits_of_callee? {entry : FunctionEntry T}
    (h : (l.callee? word false).filter (fun e => e.function.arity == 0 || e.function.arity == 1) =
      some entry) :
    l.function? entry.name = some entry.function ∧ entry.function.Admits entry.name 1 ∧
      FunctionName.acceptsVariant entry.name = false ∧
      FunctionName.canonical entry.name = word := by
  obtain ⟨hfunction, hvariant, hname⟩ := function?_of_callee? (Option.filter_eq_some_iff.1 h).1
  let s : Scope T := { params := [], library := l }
  have hunary : s.unaryFunction? word = some entry := (s.unaryFunction?_eq word).trans h
  exact ⟨hfunction, s.admits_of_unaryFunction? hunary, hvariant, hname⟩

/-- What stands in for an operation is registered under its name and takes one argument. -/
theorem function?_of_operationInvocation? {op : UnaryOperation} {x : T} {name : String}
    {args : List T} (h : l.operationInvocation? op x = some (.function name args)) :
    op ≠ .neg ∧ name = op.name ∧ args = [x] ∧
      ∃ f, l.function? name = some f ∧ f.Admits name 1 := by
  unfold operationInvocation? at h
  split at h
  · cases h
  · cases h
  all_goals
    obtain ⟨entry, hentry, heq⟩ := Option.map_eq_some_iff.1 h
    cases heq
    obtain ⟨hfunction, hadmits, hvariant, hname⟩ := admits_of_callee? hentry
    refine ⟨by decide, ?_, rfl, entry.function, hfunction, hadmits⟩
    exact FunctionName.eq_of_canonical hvariant hname (by decide)

/-- The function that a call means, if it is not defective, takes as many arguments as it has. -/
theorem called?_of_callDefect? {count : Nat} (h : l.callDefect? word subscripted count = none) :
    ∃ f, l.called? word subscripted = some f ∧ (f.arity = 0 ∨ f.arity = count) := by
  unfold callDefect? at h
  grind

end Library

variable [Number T] {l : Library T} {env : List (String × T)}

/-! ## Calls of terms -/

/-- The term calls the function of a name with some arguments. Those of a call are the values of its
operands, that of the subscript last; the other terms that call functions have one operand. -/
inductive Expr.Calls (l : Library T) (env : List (String × T)) : Expr → String → List T → Prop where
  | plain {t : Token} {es : List Expr} {name : String} {xs : List T}
      (hname : FunctionName.canonical name = t.lexeme)
      (hvariant : FunctionName.acceptsVariant name = false) (hxs : Expr.values l env es = .ok xs) :
      Calls l env (.call t none es) name xs
  | subscripted {t : Token} {e : Expr} {es : List Expr} {name : String} {xs : List T} {y : T}
      (hname : FunctionName.canonical name = t.lexeme)
      (hvariant : FunctionName.acceptsVariant name = true) (hxs : Expr.values l env es = .ok xs)
      (hy : e.value l env = .ok y) : Calls l env (.call t (some e) es) name (xs ++ [y])
  | abs {e : Expr} {x : T} (hx : e.value l env = .ok x) : Calls l env (.abs e) "abs" [x]
  | factorial {e : Expr} {x : T} (hx : e.value l env = .ok x) :
      Calls l env (.unary .factorial e) "fac" [x]

namespace Expr

theorem length_values {es : List Expr} {xs : List T} (h : values l env es = .ok xs) :
    xs.length = es.length := by
  induction es generalizing xs with
  | nil =>
    rw [values] at h
    cases h
    rfl
  | cons e es ih =>
    rw [values] at h
    obtain ⟨x, -, h⟩ := bind_eq_ok.1 h
    obtain ⟨ys, hys, h⟩ := bind_eq_ok.1 h
    cases h
    simp [ih hys]

theorem subscriptValue_some {e : Expr} {ys : List T} (h : subscriptValue l env (some e) = .ok ys) :
    ∃ y, e.value l env = .ok y ∧ ys = [y] := by
  rw [subscriptValue] at h
  obtain ⟨y, hy, h⟩ := bind_eq_ok.1 h
  cases h
  exact ⟨y, hy, rfl⟩

theorem toOption_eq_some {α : Type} {x : Except Undefined α} {a : α} (h : x.toOption = some a) :
    x = .ok a := by
  cases x with
  | error => cases h
  | ok b =>
    cases h
    rfl

theorem argumentValues_eq_ok {es : List Expr} {subscript : Option Expr} {args : List T}
    (h : argumentValues l env es subscript = .ok args) :
    ∃ xs ys, values l env es = .ok xs ∧ subscriptValue l env subscript = .ok ys ∧
      args = xs ++ ys := by
  obtain ⟨xs, hxs, h⟩ := bind_eq_ok.1 h
  obtain ⟨ys, hys, h⟩ := bind_eq_ok.1 h
  cases h
  exact ⟨xs, ys, hxs, hys, rfl⟩

/-- A term that is not defective calls a function with the shape that it declares. -/
theorem calls_of_invocation? {e : Expr} {params : List String} (hdefect : e.defect? l params = none)
    {name : String} {args : List T} (h : e.invocation? l env = some (.function name args)) :
    e.Calls l env name args ∧ ∃ f, l.function? name = some f ∧ f.Admits name args.length := by
  cases e with
  | literal | group => cases h
  | abs e =>
    obtain ⟨x, hx, h⟩ := Option.bind_eq_some_iff.1 h
    obtain ⟨-, rfl, rfl, hf⟩ := Library.function?_of_operationInvocation? h
    exact ⟨.abs (toOption_eq_some hx), hf⟩
  | unary op e =>
    obtain ⟨x, hx, h⟩ := Option.bind_eq_some_iff.1 h
    obtain ⟨hneg, rfl, rfl, hf⟩ := Library.function?_of_operationInvocation? h
    cases op with
    | negate => exact absurd rfl hneg
    | factorial => exact ⟨.factorial (toOption_eq_some hx), hf⟩
  | binary op left right =>
    obtain ⟨x, -, h⟩ := Option.bind_eq_some_iff.1 h
    obtain ⟨y, -, h⟩ := Option.bind_eq_some_iff.1 h
    obtain ⟨_, -, h⟩ := Option.map_eq_some_iff.1 h
    cases h
  | call t subscript es =>
    obtain ⟨entry, hentry, h⟩ := Option.bind_eq_some_iff.1 h
    obtain ⟨values, hvalues, h⟩ := Option.bind_eq_some_iff.1 h
    cases h
    obtain ⟨xs, ys, hxs, hys, rfl⟩ := argumentValues_eq_ok (toOption_eq_some hvalues)
    obtain ⟨hfunction, hvariant, hname⟩ := Library.function?_of_callee? hentry
    have harity : entry.function.arity = 0 ∨ entry.function.arity = es.length := by
      obtain ⟨f, hf, harity⟩ := Library.called?_of_callDefect? hdefect
      rw [← Library.map_function_callee?, hentry] at hf
      cases hf
      exact harity
    have hadmits := LibraryFunction.admits_of_arity entry.name harity
    rw [hvariant, ← length_values hxs] at hadmits
    cases subscript with
    | none =>
      cases hys
      rw [List.append_nil]
      exact ⟨.plain hname hvariant hxs, entry.function, hfunction, hadmits⟩
    | some e =>
      obtain ⟨y, hy, rfl⟩ := subscriptValue_some hys
      rw [List.length_append]
      exact ⟨.subscripted hname hvariant hxs hy, entry.function, hfunction, hadmits⟩

end Expr

/-! ## Calls in compiled functions -/

namespace Node

omit [Number T]

mutual

/-- The calls in a node, each with the number of its arguments. -/
def calls : Node T → List (FunctionEntry T × Nat)
  | parameter _ _ => []
  | constant _ _ => []
  | number _ _ => []
  | group inner => inner.calls
  | call entry args => callsAll args ++ [(entry, args.length)]
  | abs operand => operand.calls
  | negate operand => operand.calls
  | native _ left right => left.calls ++ right.calls
  | unary _ _ operand => operand.calls
  | binary _ _ left right => left.calls ++ right.calls

def callsAll : List (Node T) → List (FunctionEntry T × Nat)
  | [] => []
  | node :: nodes => node.calls ++ callsAll nodes

end

theorem mem_callsAll {p : FunctionEntry T × Nat} {nodes : List (Node T)} :
    p ∈ callsAll nodes ↔ ∃ node ∈ nodes, p ∈ node.calls := by
  induction nodes with
  | nil => simp [callsAll]
  | cons node nodes ih => simp [callsAll, ih]

end Node

/-- The calls in the body and the conditions of a function. -/
def CompiledFunction.calls (f : CompiledFunction T) : List (FunctionEntry T × Nat) :=
  Node.callsAll (f.body :: f.conditions.flatMap Condition.operands)

/-- A call in a resolved node is one of a function of the library, with the arguments that it
declares. -/
theorem Scope.Resolved.admits_of_mem_calls {s : Scope T} {node : Node T} (h : s.Resolved node) :
    ∀ p ∈ node.calls, s.library.function? p.1.name = some p.1.function ∧
      p.1.function.Admits p.1.name p.2 := by
  induction h with
  | parameter | constant | number => simp [Node.calls]
  | group _ ih | abs _ ih | negate _ ih | unary _ _ ih => simpa only [Node.calls] using ih
  | native _ _ ihl ihr | binary _ _ _ ihl ihr =>
    rw [Node.calls]
    exact List.forall_mem_append.2 ⟨ihl, ihr⟩
  | call found fits _ ih =>
    intro p hp
    rw [Node.calls] at hp
    rcases List.mem_append.1 hp with hp | hp
    · obtain ⟨node, hnode, hp⟩ := Node.mem_callsAll.1 hp
      exact ih node hnode p hp
    · cases List.mem_singleton.1 hp
      exact ⟨found, fits⟩

theorem CompiledFunction.Resolved.admits_of_mem_calls {f : CompiledFunction T} (h : f.Resolved l)
    {p : FunctionEntry T × Nat} (hp : p ∈ f.calls) :
    l.function? p.1.name = some p.1.function ∧ p.1.function.Admits p.1.name p.2 := by
  obtain ⟨node, hnode, hp⟩ := Node.mem_callsAll.1 hp
  exact (h.node hnode).admits_of_mem_calls p hp

/-! ## Invocations of compiled functions -/

variable {d : Declaration} {f : CompiledFunction T} {args : List T}

theorem CompiledFunction.exists_term_of_mem_trace (h : d.compile l = .ok f)
    (hargs : f.arity ≤ args.length) {i : Invocation T} (hi : i ∈ (f.call args).trace) :
    ∃ e ∈ d.terms, e.invocation? l (d.paramNames.zip args) = some i := by
  obtain ⟨rfl, -⟩ := Declaration.compile_eq_ok h
  have hparams : f.declaration.params.length ≤ args.length := by
    simpa [arity, params, Declaration.paramNames] using hargs
  rw [(performs_call h hparams).trace, Expr.invocations] at hi
  obtain ⟨t, ht, hinvocation⟩ := List.mem_filterMap.1 hi
  obtain ⟨e, he, ht⟩ := Expr.mem_subtermsAll.1 (List.mem_of_mem_take ht)
  refine ⟨t, Expr.mem_subtermsAll.2 ⟨e, ?_, (Expr.mem_subterms_iff .after .before).1 ht⟩,
    hinvocation⟩
  -- which operands of the clauses are evaluated does not matter here
  rw [Declaration.evaluated] at he
  rcases List.mem_append.1 he with he | he
  · obtain ⟨c, hc, he⟩ := List.mem_flatMap.1 he
    exact List.mem_cons_of_mem _
      (List.mem_flatMap.2 ⟨c, List.mem_of_mem_take hc, List.mem_of_mem_take he⟩)
  · split at he
    · exact List.mem_cons.2 (.inl (List.mem_singleton.1 he))
    · cases he

theorem Declaration.defect?_of_compile (h : d.compile l = .ok f) :
    ∀ e ∈ d.terms, e.defect? l d.paramNames = none :=
  List.findSome?_eq_none_iff.1 ((d.reports_compile l).exists_ok_iff.1 ⟨f, h⟩)

theorem CompiledFunction.calls_of_mem_trace (h : d.compile l = .ok f)
    (hargs : f.arity ≤ args.length) {name : String} {values : List T}
    (hmem : .function name values ∈ (f.call args).trace) :
    (∃ e ∈ d.terms, e.Calls l (d.paramNames.zip args) name values) ∧
      ∃ g, l.function? name = some g ∧ g.Admits name values.length := by
  obtain ⟨e, he, hinvocation⟩ := exists_term_of_mem_trace h hargs hmem
  have hdefect := Declaration.defect?_of_compile h e he
  obtain ⟨hcalls, hg⟩ := Expr.calls_of_invocation? hdefect hinvocation
  exact ⟨⟨e, he, hcalls⟩, hg⟩

/-! ## The standard library -/

namespace Standard

/-- The entry of the table has a value at as many arguments as it declares. -/
def Covers (row : String × Nat × (List Float → Except MissingArgument Float)) : Prop :=
  ∀ args, LibraryFunction.Admits { arity := row.2.1, apply := row.2.2 } row.1 args.length →
    ∃ x, row.2.2 args = .ok x

theorem covers_unary {name : String} (hname : FunctionName.acceptsVariant name = false)
    (f : Float → Float) : Covers (name, 1, unary f) := by
  intro args hargs
  have hlength : args.length = 1 := by simpa [hname] using hargs Nat.one_ne_zero
  obtain ⟨x, rfl⟩ := List.length_eq_one_iff.1 hlength
  exact ⟨f x, rfl⟩

/-- A function of two arguments takes both of them as such, or the second as its subscript. -/
theorem covers_binary {name : String} {arity : Nat} (hzero : arity ≠ 0)
    (hname : (arity + if FunctionName.acceptsVariant name then 1 else 0) = 2)
    (f : Float → Float → Float) : Covers (name, arity, binary f) := by
  intro args hargs
  have hlength : args.length = 2 := (hargs hzero).trans hname
  match args, hlength with
  | [x, y], _ => exact ⟨f x y, rfl⟩

theorem covers_variadic (name : String) (arity : Nat) (f : List Float → Float) :
    Covers (name, arity, variadic f) :=
  fun args _ => ⟨f args, rfl⟩

theorem covers_functions (draw : Float) : ∀ row ∈ functions draw, Covers row := by
  simp only [functions, List.forall_mem_cons, List.not_mem_nil, false_implies, implies_true,
    and_true]
  -- what a row declares is decided by the row alone
  and_intros
  all_goals first
    | exact covers_unary rfl _
    | exact covers_binary (by decide) rfl _
    | exact covers_variadic _ _ _

/-- A function registered from a table is one of its rows, or was there before. -/
theorem mem_of_function?
    (rows : List (String × Nat × (List Float → Except MissingArgument Float)))
    {l : Library Float} {name : String} {f : LibraryFunction Float}
    (h : (rows.foldl (fun l (name, arity, apply) => l.addFunction name arity apply) l).function?
      name = some f) : (name, f.arity, f.apply) ∈ rows ∨ l.function? name = some f := by
  induction rows generalizing l with
  | nil => exact .inr h
  | cons row rows ih =>
    obtain ⟨other, arity, apply⟩ := row
    rcases ih h with hmem | hadd
    · exact .inl (List.mem_cons_of_mem _ hmem)
    · rw [Library.function?_addFunction] at hadd
      split at hadd
      · next hname =>
        cases hadd
        exact .inl (by simp [hname])
      · exact .inr hadd

/-- The constants and the factorial are no functions. -/
theorem function?_eq (draw : Float) (name : String) :
    (Library.standard draw).function? name =
      ((functions draw).foldl (fun l (name, arity, apply) => l.addFunction name arity apply)
        Library.empty).function? name := by
  -- one registration after another, for the table sorted by name is long to compute
  rw [Library.standard, Library.function?_setUnary, Library.function?_addConstant,
    Library.function?_addConstant]

theorem isTotal (draw : Float) : (Library.standard draw).IsTotal := by
  intro name f hf args hargs
  rw [function?_eq] at hf
  rcases mem_of_function? (functions draw) hf with hmem | hempty
  · exact covers_functions draw _ hmem args hargs
  · cases hempty

theorem suits_constant (draw : Float) : (Draws.constant draw).Suits (Library.standard draw) := by
  intro g hg values n
  rw [function?_eq] at hg
  rcases mem_of_function? (functions draw) hg with hmem | hempty
  · have hrow : ∀ row ∈ functions draw, row.1 = drawing → row.2.2 = variadic fun _ => draw := by
      simp [functions, drawing]
    have happly : g.apply = variadic fun _ => draw := hrow _ hmem rfl
    rw [happly]
    rfl
  · cases hempty

end Standard

/-- A compiled function invokes library functions only with the arguments that they declare. What
compiles with the standard library has calls of that shape only, at which the functions have a
value. So it has a result at every list of enough arguments, whatever number each invocation of
`random` draws. -/
theorem calls_have_declared_shape (T : Type) [Number T] :
    (∀ (l : Library T) (d : Declaration) (f : CompiledFunction T), d.compile l = .ok f →
      ∀ args, f.arity ≤ args.length → ∀ name values,
        .function name values ∈ (f.call args).trace →
          (∃ e ∈ d.terms, e.Calls l (d.paramNames.zip args) name values) ∧
          ∃ g, l.function? name = some g ∧ (g.arity ≠ 0 →
            values.length = g.arity + if FunctionName.acceptsVariant name then 1 else 0)) ∧
    ∀ draw source f, (Library.standard draw).compile source = .ok f →
      (∀ entry count, (entry, count) ∈ f.calls →
        (Library.standard draw).function? entry.name = some entry.function ∧
        (entry.function.arity ≠ 0 → count = entry.function.arity +
          if FunctionName.acceptsVariant entry.name then 1 else 0) ∧
        ∀ values, values.length = count → ∃ x, entry.function.apply values = .ok x) ∧
      ∀ args, f.arity ≤ args.length →
        f.callDrawing (.constant draw) args = f.call args ∧
        ∀ draws, (∃ r, (f.callDrawing draws args).outcome = .ok r) ∧
          ∀ name values, .function name values ∈ (f.callDrawing draws args).trace →
            ∃ g x, (Library.standard draw).function? name = some g ∧ g.apply values = .ok x := by
  refine ⟨fun l d f h args hargs name values => CompiledFunction.calls_of_mem_trace h hargs,
    fun draw source f h => ?_⟩
  have resolved := Library.resolved_compile h
  have total := Standard.isTotal draw
  refine ⟨fun entry count hcall => ?_, fun args hargs => ⟨?_, fun draws => ?_⟩⟩
  · obtain ⟨found, fits⟩ := resolved.admits_of_mem_calls hcall
    exact ⟨found, fits, fun values hvalues => total _ _ found values (hvalues ▸ fits)⟩
  · exact f.callDrawing_eq_call resolved hargs (Standard.suits_constant draw)
  · obtain ⟨value, trace⟩ := f.safe_callDrawing total resolved hargs draws
    refine ⟨value, fun name values hmem => ?_⟩
    obtain ⟨g, found, fits⟩ := trace name values hmem
    obtain ⟨x, hx⟩ := total name g found values fits
    exact ⟨g, x, found, hx⟩

/-- `f(x) = {random() < random()} log_x(x)`, which has a value only if the second number drawn is
the larger one. -/
def drawnGuard : String :=
  "f(x) = \x7brandom() < random()\x7d log_x(x)"

def drawnGuardDeclaration : Declaration :=
  let x (offset : Nat) : Token := { kind := .identifier, lexeme := "x", offset }
  let random (offset : Nat) : Expr :=
    .call { kind := .function, lexeme := "random", offset } none []
  { name := { kind := .identifier, lexeme := "f", offset := 0 }
    params := [x 2]
    body := .call { kind := .function, lexeme := "log", offset := 29 } (some (.literal (x 33)))
      [.literal (x 35)]
    clauses := [.compare (random 8) .less (random 19)] }

/-- A supply that begins with `0` and goes on with `1`. -/
def ascending : Draws :=
  { nth := fun n => if n = 0 then 0 else 1 }

/-- What the standard library has for `drawnGuard`. -/
def drawnGuardLibrary (draw : Float) : Library Float :=
  (((Library.empty.addFunction "abs" 1 (Standard.unary Float.abs)).addFunction "log_" 1
    (Standard.binary Standard.log)).addFunction "random" 0
    (Standard.variadic fun _ => draw)).setUnary .fac Factorial.factorial

theorem mentions_drawnGuard {word : String} (h : Mentions drawnGuard word) :
    word ∈ ["f", "x", "random", "log"] := by
  have hsplit : Lexeme.split drawnGuard.toList =
      [.word ['f'], .symbol .parenOpen ['('], .word ['x'], .symbol .parenClose [')'], .blank ' ',
        .symbol .equal ['='], .blank ' ', .symbol .braceOpen ['\x7b'], .word "random".toList,
        .symbol .parenOpen ['('], .symbol .parenClose [')'], .blank ' ', .symbol .less ['<'],
        .blank ' ', .word "random".toList, .symbol .parenOpen ['('], .symbol .parenClose [')'],
        .symbol .braceClose ['\x7d'], .blank ' ', .word "log".toList, .symbol .underscore ['_'],
        .word ['x'], .symbol .parenOpen ['('], .word ['x'], .symbol .parenClose [')']] := by
    with_unfolding_all rfl
  have hword : word.toList = ['f'] ∨ word.toList = ['x'] ∨ word.toList = "random".toList ∨
      word.toList = "log".toList ∨ word.toList = ['x'] := by
    simpa [hsplit] using mentions_iff.1 h
  rcases hword with hword | hword | hword | hword | hword <;> simp [← String.toList_inj, hword]

theorem standard_agreeOn_drawnGuard (draw : Float) :
    (Library.standard draw).AgreeOn (Mentions drawnGuard) (drawnGuardLibrary draw) := by
  refine ⟨fun name hname => ?_, fun name hname => ?_, rfl, rfl⟩
  · have hnames :
        name ∈ ["f", "f_", "x", "x_", "random", "random_", "log", "log_", "abs", "fac"] := by
      rcases hname with hname | rfl | rfl
      · have hword := mentions_drawnGuard hname
        obtain ⟨word, rfl⟩ | ⟨-, hcanonical, -⟩ := FunctionName.name_cases name
        · rw [FunctionName.canonical_push] at hword
          simp only [List.mem_cons, List.not_mem_nil, or_false] at hword
          rcases hword with rfl | rfl | rfl | rfl <;> decide
        · rw [hcanonical] at hword
          simp only [List.mem_cons, List.not_mem_nil, or_false] at hword
          rcases hword with rfl | rfl | rfl | rfl <;> decide
      · decide
      · decide
    simp only [List.mem_cons, List.not_mem_nil, or_false] at hnames
    rcases hnames with rfl | rfl | rfl | rfl | rfl | rfl | rfl | rfl | rfl | rfl <;>
      simp [Standard.function?_eq, Standard.functions, Library.function?_addFunction,
        drawnGuardLibrary, Library.function?_setUnary, Standard.drawing]
  · have hword := mentions_drawnGuard hname
    simp only [List.mem_cons, List.not_mem_nil, or_false] at hword
    rcases hword with rfl | rfl | rfl | rfl <;> rfl

/-- The subscript of `log_x(g(y))` is the last argument of `log_`. With the standard library the
body of `drawnGuard` is reached if `0` is drawn and then `1`, and `log_` has both its arguments
there. -/
theorem calls_have_declared_shape_drawn :
    (∃ f, traced.compile tracingLibrary = .ok f ∧
      .function "log_" [2, 1] ∈ (f.call [1, 2]).trace ∧
      ∃ e ∈ traced.terms, e.Calls tracingLibrary [("x", 1), ("y", 2)] "log_" [2, 1]) ∧
    ∃ f, (Library.standard 0).compile drawnGuard = .ok f ∧
      (f.callDrawing ascending [2]).trace =
        [.function "random" [], .function "random" [], .function "log_" [2, 2]] ∧
      (∃ r, (f.callDrawing ascending [2]).outcome = .ok r) ∧
      f.callDrawing (.constant 0) [2] = f.call [2] := by
  obtain ⟨shape, standard⟩ := calls_have_declared_shape Float
  constructor
  · obtain ⟨f, hf, htrace⟩ : ∃ f, traced.compile tracingLibrary = .ok f ∧ (f.call [1, 2]).trace =
        [.function "g" [2], .binary .add 2 1, .function "g" [2], .function "g" [1],
          .function "g" [2], .function "log_" [2, 1], .unary .fac 2] :=
      ⟨_, rfl, by with_unfolding_all rfl⟩
    obtain ⟨hdeclaration, -⟩ := Declaration.compile_eq_ok hf
    have hargs : f.arity ≤ 2 := by
      rw [CompiledFunction.arity, CompiledFunction.params, hdeclaration]
      decide
    have hmem : .function "log_" [2, 1] ∈ (f.call [1, 2]).trace := by simp [htrace]
    exact ⟨f, hf, hmem, (shape _ traced f hf [1, 2] hargs _ _ hmem).1⟩
  · obtain ⟨f, hf, hargs, htrace⟩ : ∃ f,
        drawnGuardDeclaration.compile (drawnGuardLibrary 0) = .ok f ∧ f.arity ≤ 1 ∧
        (f.callDrawing ascending [2]).trace =
          [.function "random" [], .function "random" [], .function "log_" [2, 2]] :=
      ⟨_, rfl, by decide, by with_unfolding_all rfl⟩
    have hread : (drawnGuardLibrary 0).read drawnGuard = .ok drawnGuardDeclaration := by
      with_unfolding_all rfl
    have hstandard : (Library.standard 0).compile drawnGuard = .ok f := by
      rw [(standard_agreeOn_drawnGuard 0).compile_eq, Library.compile, hread]
      exact congrArg (Except.mapError Error.compile) hf
    obtain ⟨constant, drawn⟩ := (standard 0 _ f hstandard).2 [2] hargs
    exact ⟨f, hstandard, htrace, (drawn ascending).1, constant⟩

end Formula

import Formula.Number.Float
import Formula.Proofs.Conditions
import Formula.Proofs.Meaning
import Formula.Proofs.Stages

/-!
# Compilation preserves meaning

Resolving an expression and running its node gives the value of the expression, and so does
compiling a declaration and calling the function. The argument follows the tree; the names have
been dealt with by `Scope.plainFunction?_eq` and `Scope.callee?_of_function`.

## Main statements

* `Scope.gives_resolve` — for expressions.
* `CompiledFunction.gives_call` — for declarations.
* `compile_preserves_value` — the same, with the results and the missing arguments spelled out.
-/

namespace Formula

variable {T : Type} [Number T]

/-! ## Values and outcomes of runs -/

/-- The same result, or both undefined for the same argument. -/
def Agrees {α : Type} (y : Except EvalError α) (x : Except Undefined α) : Prop :=
  ∃ z : Except MissingArgument α, y = z.mapError .missingArgument ∧ x = z.mapError .argument

theorem Agrees.ok {α : Type} (a : α) : Agrees (.ok a) (.ok a) :=
  ⟨.ok a, rfl, rfl⟩

theorem Agrees.bind {α β : Type} {y : Except EvalError α} {x : Except Undefined α}
    {f : α → Except EvalError β} {g : α → Except Undefined β} (h : Agrees y x)
    (hf : ∀ a, Agrees (f a) (g a)) : Agrees (y >>= f) (x >>= g) := by
  obtain ⟨z, rfl, rfl⟩ := h
  cases z with
  | error m => exact ⟨.error m, rfl, rfl⟩
  | ok a => exact hf a

namespace Run

variable {α β : Type}

omit [Number T]

/-- The outcome of the run is the value. -/
def Gives (r : Run T α) (x : Except Undefined α) : Prop :=
  Agrees r.outcome x

theorem Gives.pure (a : α) : (Pure.pure a : Run T α).Gives (.ok a) :=
  .ok a

theorem Gives.bind {r : Run T α} {x : Except Undefined α} {f : α → Run T β}
    {g : α → Except Undefined β} (h : r.Gives x) (hf : ∀ a, (f a).Gives (g a)) :
    (r >>= f).Gives (x >>= g) := by
  unfold Gives
  rw [outcome_bind]
  exact Agrees.bind h hf

theorem Gives.invoke (i : Invocation T) (y : Except MissingArgument α) :
    (Run.invoke i y).Gives (y.mapError .argument) :=
  ⟨y, rfl, rfl⟩

end Run

/-! ## Names and operators -/

namespace Scope

section Functions

omit [Number T]

variable (s : Scope T) (word : String)

theorem map_function_unaryFunction? :
    (s.unaryFunction? word).map FunctionEntry.function = s.library.operandFunction? word := by
  rw [unaryFunction?, plainFunction?_eq, Library.operandFunction?,
    ← Library.map_function_callee?, Option.filter_map]
  rfl

variable {s word}

theorem called?_of_function {withVariant : Bool} {count : Nat} {entry : FunctionEntry T}
    (h : s.function word withVariant count = .ok entry) :
    s.library.called? word withVariant = some entry.function := by
  rw [← Library.map_function_callee?, callee?_of_function h]
  rfl

end Functions

variable {s : Scope T} {args : List T}

section Operations

variable {node : Node T} {x : Except Undefined T}

theorem eval_call_singleton (entry : FunctionEntry T) (node : Node T) :
    (Node.call entry [node]).eval args = node.eval args >>= fun a =>
      .invoke (.function entry.name [a]) (entry.function.apply [a]) := by
  simp [Node.eval_call, Node.evalAll_cons, Node.evalAll_nil]

theorem gives_call_singleton (h : (node.eval args).Gives x) (entry : FunctionEntry T) :
    ((Node.call entry [node]).eval args).Gives (x >>= fun a => entry.function.value [a]) := by
  rw [eval_call_singleton]
  exact h.bind fun a => .invoke _ _

theorem gives_unary (h : (node.eval args).Gives x) {op : UnaryOperation} {apply : T → T}
    (hop : s.library.unary op = some apply) :
    ((Node.unary op apply node).eval args).Gives (x >>= s.library.operation op) := by
  have hoperation : s.library.operation op = fun a => .ok (apply a) := by
    funext a
    simp [Library.operation, hop]
  rw [Node.eval_unary, hoperation]
  exact h.bind fun a => .invoke _ (.ok (apply a))

theorem gives_resolveAbs (h : (node.eval args).Gives x) :
    ((s.resolveAbs node).eval args).Gives (x >>= s.library.operation .abs) := by
  have hfunction := s.map_function_unaryFunction? "abs"
  obtain ⟨apply, hop, hn⟩ | ⟨hop, entry, hentry, hn⟩ | ⟨hop, hentry, hn⟩ :=
    s.resolveAbs_cases node <;> rw [hn]
  · exact gives_unary h hop
  · have hoperation : s.library.operation .abs = fun a => entry.function.value [a] := by
      funext a
      simp [Library.operation, hop, ← hfunction, hentry]
    rw [hoperation]
    exact gives_call_singleton h entry
  · have hoperation : s.library.operation .abs = fun a => .ok (Number.abs a) := by
      funext a
      simp [Library.operation, hop, ← hfunction, hentry]
    rw [Node.eval_abs, hoperation]
    exact h.bind fun a => .pure _

theorem gives_resolveUnary (h : (node.eval args).Gives x) {op : UnaryOp} {node' : Node T}
    (hnode : s.resolveUnary op node = .ok node') :
    (node'.eval args).Gives (x >>= s.library.operation op.operation) := by
  cases op with
  | negate =>
    cases hnode
    obtain ⟨apply, hop, hn⟩ | ⟨hop, hn⟩ := s.resolveNegate_cases node <;> rw [hn]
    · exact gives_unary h hop
    · have hoperation : s.library.operation UnaryOp.negate.operation = fun a => .ok (-a) := by
        funext a
        simp [Library.operation, UnaryOp.operation, hop]
      rw [Node.eval_negate, hoperation]
      exact h.bind fun a => .pure _
  | factorial =>
    have hfunction := s.map_function_unaryFunction? "fac"
    obtain ⟨apply, hop, rfl⟩ | ⟨hop, entry, hentry, rfl⟩ := resolveFactorial_cases hnode
    · exact gives_unary h hop
    · have hoperation : s.library.operation UnaryOp.factorial.operation =
          fun a => entry.function.value [a] := by
        funext a
        simp [Library.operation, UnaryOp.operation, hop, ← hfunction, hentry]
      rw [hoperation]
      exact gives_call_singleton h entry

theorem gives_resolveBinary {node' : Node T} {y : Except Undefined T}
    (h : (node.eval args).Gives x) (h' : (node'.eval args).Gives y) (op : BinaryOp) :
    ((s.resolveBinary op node node').eval args).Gives
      (x >>= fun a => y >>= fun b => .ok (s.library.operator op a b)) := by
  obtain ⟨apply, hop, hn⟩ | ⟨hop, hn⟩ := s.resolveBinary_cases op node node' <;> rw [hn]
  · rw [Node.eval_binary, Library.operator_of_some hop]
    exact h.bind fun a => h'.bind fun b => .invoke _ (.ok (apply a b))
  · rw [Node.eval_native, Library.operator_of_none hop]
    exact h.bind fun a => h'.bind fun b => .pure _

end Operations

/-! ## Expressions -/

/-- The argument at the first position of a name is the one that the environment has for it. -/
theorem lookup_zip_of_findIdx? {α : Type} {names : List String} {values : List α}
    (hlength : names.length ≤ values.length) {name : String} {i : Nat}
    (h : names.findIdx? (· == name) = some i) :
    ∃ a, values[i]? = some a ∧ (names.zip values).lookup name = some a := by
  induction names generalizing values i with
  | nil => simp at h
  | cons first names ih =>
    cases values with
    | nil => simp at hlength
    | cons value values =>
      rw [List.findIdx?_cons] at h
      rw [List.zip_cons_cons, Registry.lookup_cons_eq]
      by_cases hfirst : first = name
      · simp [hfirst] at h ⊢
        simp [← h]
      · simp only [beq_iff_eq, hfirst, if_false, Option.map_eq_some_iff] at h
        obtain ⟨j, hj, rfl⟩ := h
        obtain ⟨a, ha, hlookup⟩ := ih (by simpa using hlength) hj
        exact ⟨a, by simpa using ha, by rw [if_neg (Ne.symm hfirst), hlookup]⟩

theorem gives_resolveLiteral (hargs : s.params.length ≤ args.length) {t : Token} {node : Node T}
    (h : s.resolveLiteral t = .ok node) :
    (node.eval args).Gives (Expr.value s.library (s.params.zip args) (.literal t)) := by
  rw [Expr.value, Token.value?]
  obtain ⟨hk, i, hi, rfl⟩ | ⟨hk, v, hv, rfl⟩ | ⟨hk, v, hv, rfl⟩ := resolveLiteral_cases h <;>
    rw [hk]
  · rw [Node.eval_parameter]
    unfold parameter at hi
    split at hi
    · next i hi' =>
      cases hi
      obtain ⟨a, ha, hlookup⟩ := lookup_zip_of_findIdx? hargs hi'
      rw [ha, hlookup]
      exact .pure a
    · cases hi
  · unfold constant at hv
    split at hv
    · next v hv' =>
      cases hv
      rw [hv', Node.eval_constant]
      exact .pure v
    · cases hv
  · rw [hv, Node.eval_number]
    exact .pure v

theorem evalAll_append (nodes others : List (Node T)) :
    Node.evalAll args (nodes ++ others) = Node.evalAll args nodes >>= fun xs =>
      Node.evalAll args others >>= fun ys => pure (xs ++ ys) := by
  induction nodes with
  | nil => simp [Node.evalAll_nil]
  | cons node nodes ih => simp [Node.evalAll_cons, ih]

mutual

/-- Resolving an expression keeps its value. -/
theorem gives_resolve (hargs : s.params.length ≤ args.length) : ∀ {e : Expr} {node : Node T},
    s.resolve e = .ok node →
      (node.eval args).Gives (e.value s.library (s.params.zip args))
  | .literal t, node, h => gives_resolveLiteral hargs (by rwa [resolve] at h)
  | .group e, node, h => by
    obtain ⟨inner, hinner, rfl⟩ := resolve_group h
    rw [Node.eval_group, Expr.value]
    exact gives_resolve hargs hinner
  | .abs e, node, h => by
    obtain ⟨inner, hinner, rfl⟩ := resolve_abs h
    rw [Expr.value]
    exact gives_resolveAbs (gives_resolve hargs hinner)
  | .call name variant es, node, h => by
    obtain ⟨entry, nodes, subscript, hentry, hnodes, hsubscript, rfl⟩ := resolve_call h
    rw [Node.eval_call, evalAll_append, bind_assoc, Expr.value, called?_of_function hentry]
    refine (gives_resolveAll hargs hnodes).bind fun xs => ?_
    rw [bind_assoc]
    refine (gives_resolveOption hargs hsubscript).bind fun ys => ?_
    rw [pure_bind]
    exact .invoke _ _
  | .unary op e, node, h => by
    obtain ⟨operand, hoperand, hnode⟩ := resolve_unary h
    rw [Expr.value]
    exact gives_resolveUnary (gives_resolve hargs hoperand) hnode
  | .binary op left right, node, h => by
    obtain ⟨a, b, ha, hb, rfl⟩ := resolve_binary h
    rw [Expr.value]
    exact gives_resolveBinary (gives_resolve hargs ha) (gives_resolve hargs hb) op

theorem gives_resolveOption (hargs : s.params.length ≤ args.length) :
    ∀ {e : Option Expr} {nodes : List (Node T)}, s.resolveOption e = .ok nodes →
      (Node.evalAll args nodes).Gives (Expr.subscriptValue s.library (s.params.zip args) e)
  | none, nodes, h => by
    rw [resolveOption] at h
    cases h
    rw [Node.evalAll_nil, Expr.subscriptValue]
    exact .pure []
  | some e, nodes, h => by
    obtain ⟨node, hnode, rfl⟩ := resolveOption_some h
    rw [Node.evalAll_cons, Node.evalAll_nil, Expr.subscriptValue]
    exact (gives_resolve hargs hnode).bind fun a => .pure [a]

theorem gives_resolveAll (hargs : s.params.length ≤ args.length) :
    ∀ {es : List Expr} {nodes : List (Node T)}, s.resolveAll es = .ok nodes →
      (Node.evalAll args nodes).Gives (Expr.values s.library (s.params.zip args) es)
  | [], nodes, h => by
    rw [resolveAll] at h
    cases h
    rw [Node.evalAll_nil, Expr.values]
    exact .pure []
  | e :: es, nodes, h => by
    obtain ⟨node, others, hnode, hothers, rfl⟩ := resolveAll_cons h
    rw [Node.evalAll_cons, Expr.values]
    exact (gives_resolve hargs hnode).bind fun a =>
      (gives_resolveAll hargs hothers).bind fun as => .pure (a :: as)

end

/-! ## Clauses -/

/-- The comparisons of resolved operands agree with those of the operands. -/
theorem agrees_compare (hargs : s.params.length ≤ args.length) {es : List Expr}
    {nodes : List (Node T)} (h : s.resolveAll es = .ok nodes) (ops : List Comparison) :
    Agrees ((nodes.zip (ops.zip nodes.tail)).allM (Condition.compare args))
      ((es.zip (ops.zip es.tail)).allM
        (Comparison.holdsBetween s.library (s.params.zip args))) := by
  induction es generalizing nodes ops with
  | nil =>
    rw [resolveAll] at h
    cases h
    exact .ok true
  | cons e es ih =>
    obtain ⟨node, others, hnode, hothers, rfl⟩ := resolveAll_cons h
    cases es with
    | nil =>
      rw [resolveAll] at hothers
      cases hothers
      simpa using .ok true
    | cons e' es =>
      obtain ⟨node', others, hnode', hothers', rfl⟩ := resolveAll_cons hothers
      cases ops with
      | nil => exact .ok true
      | cons op ops =>
        simp only [List.tail_cons, List.zip_cons_cons]
        rw [allM_cons, allM_cons]
        refine Agrees.bind ?_ fun b => ?_
        · rw [Comparison.holdsBetween_eq]
          exact Agrees.bind (gives_resolve hargs hnode) fun a =>
            Agrees.bind (gives_resolve hargs hnode') fun b => .ok _
        · cases b
          · exact .ok false
          · exact ih hothers ops

theorem gives_holds (hargs : s.params.length ≤ args.length) {c : Clause} {condition : Condition T}
    (h : s.resolveClause c = .ok condition) :
    (condition.holds args).Gives (c.holds s.library (s.params.zip args)) := by
  obtain ⟨hoperands, hcomparisons⟩ := resolveClause_eq_ok h
  unfold Run.Gives Clause.holds Clause.pairs
  rw [Condition.outcome_holds (links_ne_nil h), Condition.pairs, hcomparisons]
  exact agrees_compare hargs hoperands condition.comparisons

theorem gives_allHold (hargs : s.params.length ≤ args.length) {cs : List Clause}
    {conditions : List (Condition T)} (h : s.resolveClauses cs = .ok conditions) :
    (Condition.allHold args conditions).Gives
      (cs.allM (Clause.holds s.library (s.params.zip args))) := by
  induction cs generalizing conditions with
  | nil =>
    rw [resolveClauses] at h
    cases h
    exact .pure true
  | cons c cs ih =>
    obtain ⟨condition, others, hcondition, hothers, rfl⟩ := resolveClauses_cons h
    rw [Condition.allHold_cons, allM_cons]
    refine (gives_holds hargs hcondition).bind fun b => ?_
    cases b
    · exact .pure false
    · exact ih hothers

end Scope

theorem CompiledFunction.gives_call {l : Library T} {d : Declaration} {f : CompiledFunction T}
    (h : d.compile l = .ok f) {args : List T} (hargs : d.params.length ≤ args.length) :
    (f.call args).Gives (d.value l args) := by
  obtain ⟨rfl, hbody, hconditions⟩ := Declaration.compile_eq_ok h
  have hparams : f.declaration.paramNames.length ≤ args.length := by
    simpa [Declaration.paramNames] using hargs
  have harity : f.arity ≤ args.length := hparams
  rw [call_eq, Declaration.value, if_neg (Nat.not_lt.2 harity)]
  refine (Scope.gives_allHold hparams hconditions).bind fun b => ?_
  cases b with
  | false => exact .pure none
  | true => exact (Scope.gives_resolve hparams hbody).bind fun a => .pure (some a)

/-- A compiled function returns what its declaration means, at every list of enough arguments. -/
theorem compile_preserves_value {l : Library T} {d : Declaration} {f : CompiledFunction T}
    (h : d.compile l = .ok f) {args : List T} (hargs : d.params.length ≤ args.length) :
    ∃ y : Except MissingArgument (Option T),
      (f.call args).outcome = y.mapError .missingArgument ∧
        d.value l args = y.mapError .argument :=
  CompiledFunction.gives_call h hargs

/-- `f(x, y, x) = { y < x <= x } x - log_y(x) / y`, in which `x` is always the first parameter. -/
def differenceToFirst : Declaration :=
  let x : Expr := .literal { kind := .identifier, lexeme := "x", offset := 2 }
  let y : Expr := .literal { kind := .identifier, lexeme := "y", offset := 5 }
  { name := { kind := .identifier, lexeme := "f", offset := 0 }
    params := [{ kind := .identifier, lexeme := "x", offset := 2 },
      { kind := .identifier, lexeme := "y", offset := 5 },
      { kind := .identifier, lexeme := "x", offset := 8 }]
    body := .binary .sub x
      (.binary .div (.call { kind := .function, lexeme := "log", offset := 33 } (some y) [x]) y)
    clauses := [(Clause.compare y .less x).chain .lessEqual x] }

/-- At `4` and `2` both comparisons hold. With a quotient for `log_` the value is that of the body,
in which every operator has its operands in this order. -/
theorem compile_preserves_value_difference :
    let l : Library Float := Library.empty.addFunction "log_" 1 fun args =>
      .ok (args.headD 0 / args.getLastD 0)
    ∃ f, differenceToFirst.compile l = .ok f ∧
      differenceToFirst.value l [4, 2, 9] = .ok (some (4 - 4 / 2 / 2)) ∧
      (f.call [4, 2, 9]).outcome = .ok (some (4 - 4 / 2 / 2)) := by
  intro l
  have guard : differenceToFirst.clauses.allM
      (Clause.holds l (differenceToFirst.paramNames.zip [4, 2, 9])) = .ok true := by
    have hless : Number.lt (2 : Float) 4 = true := by with_unfolding_all rfl
    have hle : Number.le (4 : Float) 4 = true := by with_unfolding_all rfl
    -- one clause of two comparisons
    show [[Except.ok (Number.lt (2 : Float) 4), .ok (Number.le (4 : Float) 4)].allM id].allM id =
      Except.ok true
    rw [hless, hle]
    rfl
  have value : differenceToFirst.value l [4, 2, 9] = .ok (some (4 - 4 / 2 / 2)) := by
    rw [Declaration.value, guard]
    rfl
  obtain ⟨f, hf⟩ : ∃ f, differenceToFirst.compile l = .ok f := ⟨_, rfl⟩
  have hargs : differenceToFirst.params.length ≤ [4, 2, (9 : Float)].length := by decide
  obtain ⟨y, hcall, hvalue⟩ := compile_preserves_value hf hargs
  cases y with
  | error missing => cases value.symm.trans hvalue
  | ok y =>
    cases value.symm.trans hvalue
    exact ⟨f, hf, value, hcall⟩

end Formula

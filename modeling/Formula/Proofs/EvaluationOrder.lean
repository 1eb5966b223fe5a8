import Formula.Proofs.Preservation
import Formula.Proofs.Traversal

/-!
# The order of evaluation

Which library callables a compiled function invokes, in which order and with which arguments, can be
told from its declaration. The expressions that are evaluated are the operands of the clauses, up to
the first comparison that does not hold, and the body if all of them hold. In each of them the terms
are evaluated from left to right, operands before the operator and arguments before the call, and
each term that has its meaning from the library is one invocation. A library function that finds an
argument missing ends the evaluation.

## Main definitions

* `Expr.invocation?` — what a term invokes.
* `Declaration.evaluated` — the expressions that are evaluated at a list of arguments.

## Main statements

* `Scope.performs_resolve` — the invocations of an expression are those of its terms in order.
* `trace_call` — the invocations of a compiled function.
-/

namespace Formula

variable {T : Type}

/-! ## Invocations of terms -/

namespace Library

/-- What an operation on an operand invokes: its replacement, else a function of the same name if
there is one that fits. Negation has no such function. -/
def operationInvocation? (l : Library T) (op : UnaryOperation) (x : T) : Option (Invocation T) :=
  match l.unary op, op with
  | some _, _ => some (.unary op x)
  | none, .neg => none
  | none, .abs | none, .fac =>
    ((l.callee? op.name false).filter fun e =>
      e.function.arity == 0 || e.function.arity == 1).map fun e => .function e.name [x]

/-- What a binary operator invokes: its replacement if it has one. -/
def operatorInvocation? (l : Library T) (op : BinaryOp) (x y : T) : Option (Invocation T) :=
  (l.binary op).map fun _ => .binary op x y

end Library

variable [Number T]

namespace Expr

/-- The values of the arguments of a call, that of the subscript last. -/
def argumentValues (l : Library T) (env : List (String × T)) (args : List Expr)
    (subscript : Option Expr) : Except Undefined (List T) := do
  let xs ← values l env args
  let ys ← subscriptValue l env subscript
  return xs ++ ys

/-- What a term invokes, given the values of its operands. -/
def invocation? (l : Library T) (env : List (String × T)) : Expr → Option (Invocation T)
  | abs e => (e.value l env).toOption.bind (l.operationInvocation? .abs)
  | unary op e => (e.value l env).toOption.bind (l.operationInvocation? op.operation)
  | binary op left right => do
    let x ← (left.value l env).toOption
    let y ← (right.value l env).toOption
    l.operatorInvocation? op x y
  | call name subscript args => do
    let entry ← l.callee? name.lexeme subscript.isSome
    let xs ← (argumentValues l env args subscript).toOption
    return .function entry.name xs
  | _ => none

def isDefined (l : Library T) (env : List (String × T)) (e : Expr) : Bool :=
  (e.value l env).toOption.isSome

/-- The invocations of terms that are evaluated one after another. Nothing is evaluated after a term
that has no value. -/
def invocations (l : Library T) (env : List (String × T)) (es : List Expr) :
    List (Invocation T) :=
  (es.take (es.findIdx (fun e => !e.isDefined l env) + 1)).filterMap (invocation? l env)

end Expr

/-! ## Expressions that are evaluated -/

/-- Whether two operands of a clause compare as they should. -/
def Comparison.isMet (l : Library T) (env : List (String × T)) (p : Expr × Comparison × Expr) :
    Bool :=
  (Comparison.holdsBetween l env p).toOption.getD false

def Clause.isMet (l : Library T) (env : List (String × T)) (c : Clause) : Bool :=
  c.pairs.all (Comparison.isMet l env)

/-- The operands of a clause up to the right one of the first comparison that does not hold. -/
def Clause.evaluated (l : Library T) (env : List (String × T)) (c : Clause) : List Expr :=
  c.operands.take (c.pairs.findIdx (fun p => !Comparison.isMet l env p) + 2)

/-- The operands of the clauses up to the first that does not hold, and the body if all do. -/
def Declaration.evaluated (l : Library T) (env : List (String × T)) (d : Declaration) :
    List Expr :=
  (d.clauses.take (d.clauses.findIdx (fun c => !c.isMet l env) + 1)).flatMap
    (Clause.evaluated l env) ++ if d.clauses.all (Clause.isMet l env) then [d.body] else []

variable {l : Library T} {env : List (String × T)}

theorem Comparison.isMet_of_values {left right : Expr} {op : Comparison} {a b : T}
    (ha : left.value l env = .ok a) (hb : right.value l env = .ok b) :
    isMet l env (left, op, right) = op.holds a b := by
  rw [isMet, holdsBetween_eq, ha, hb]
  rfl

omit [Number T] in
/-- A test of all members succeeds if it does so on each of them. -/
theorem toOption_allM {ε α : Type} (p : α → Except ε Bool) (xs : List α) :
    (xs.allM p).toOption.getD false = xs.all fun x => (p x).toOption.getD false := by
  induction xs with
  | nil => rfl
  | cons x xs ih =>
    rw [allM_cons, List.all_cons, ← ih]
    rcases p x with _ | _ | _ <;> simp [bind, Except.bind, Except.toOption]

theorem Clause.isMet_eq (c : Clause) : c.isMet l env = (c.holds l env).toOption.getD false :=
  (toOption_allM (Comparison.holdsBetween l env) c.pairs).symm

theorem Clause.isMet_of_holds {c : Clause} {b : Bool} (h : c.holds l env = .ok b) :
    c.isMet l env = b := by
  rw [isMet_eq, h]
  rfl

theorem Clause.all_isMet {cs : List Clause} {b : Bool} (h : cs.allM (holds l env) = .ok b) :
    cs.all (isMet l env) = b := by
  have heq : isMet l env = fun c => (holds l env c).toOption.getD false := funext isMet_eq
  rw [heq, ← toOption_allM, h]
  rfl

/-! ## Runs and terms -/

namespace Expr

theorem invocations_cons (e : Expr) (es : List Expr) :
    invocations l env (e :: es) =
      (e.invocation? l env).toList ++ if e.isDefined l env then invocations l env es else [] := by
  cases h : e.isDefined l env <;> cases hi : e.invocation? l env <;>
    simp [invocations, List.findIdx_cons, h, hi]

theorem invocations_append (es es' : List Expr) :
    invocations l env (es ++ es') = invocations l env es ++
      if es.all (isDefined l env) then invocations l env es' else [] := by
  induction es with
  | nil => simp [invocations]
  | cons e es ih =>
    rw [List.cons_append, invocations_cons, invocations_cons, ih]
    cases h : e.isDefined l env <;> simp [h]

theorem invocations_singleton (e : Expr) :
    invocations l env [e] = (e.invocation? l env).toList := by
  rw [invocations_cons]
  simp [invocations]

end Expr

namespace Run

variable {α β : Type}

section Values

omit [Number T]

theorem Gives.eq_ok {r : Run T α} {x : Except Undefined α} (h : r.Gives x) {a : α}
    (ha : r.outcome = .ok a) : x = .ok a := by
  obtain ⟨z, hr, rfl⟩ := h
  rw [ha] at hr
  cases z with
  | ok b =>
    cases hr
    rfl
  | error m => cases hr

theorem Gives.exists_ok_iff {r : Run T α} {x : Except Undefined α} (h : r.Gives x) :
    (∃ a, r.outcome = .ok a) ↔ x.toOption.isSome = true := by
  obtain ⟨z, hr, rfl⟩ := h
  rw [hr]
  cases z with
  | ok a => exact ⟨fun _ => rfl, fun _ => ⟨a, rfl⟩⟩
  | error m =>
    constructor
    · rintro ⟨_, ⟨⟩⟩
    · rintro ⟨⟩

/-- One run after another, with both values. -/
def pair (r : Run T α) (r' : Run T β) : Run T (α × β) := do
  let a ← r
  let b ← r'
  return (a, b)

theorem outcome_pair {r : Run T α} {r' : Run T β} {p : α × β} (h : (r.pair r').outcome = .ok p) :
    r.outcome = .ok p.1 ∧ r'.outcome = .ok p.2 := by
  rw [pair, outcome_bind] at h
  obtain ⟨a, ha, h⟩ := bind_eq_ok.1 h
  rw [outcome_bind] at h
  obtain ⟨b, hb, h⟩ := bind_eq_ok.1 h
  cases h
  exact ⟨ha, hb⟩

end Values

/-- The run invokes what the terms invoke, and ends in a value if all of them have one. -/
structure Performs (l : Library T) (env : List (String × T)) (r : Run T α) (es : List Expr) :
    Prop where
  trace : r.trace = Expr.invocations l env es
  defined : (∃ a, r.outcome = .ok a) ↔ es.all (Expr.isDefined l env) = true

theorem Performs.pure (a : α) : (Pure.pure a : Run T α).Performs l env [] where
  trace := rfl
  defined := by simp

theorem Performs.bind {r : Run T α} {f : α → Run T β} {es es' : List Expr}
    (h : r.Performs l env es) (hf : ∀ a, r.outcome = .ok a → (f a).Performs l env es') :
    (r >>= f).Performs l env (es ++ es') := by
  cases ha : r.outcome with
  | ok a =>
    have hall := h.defined.1 ⟨a, ha⟩
    rw [bind_of_ok ha]
    refine ⟨?_, ?_⟩
    · rw [h.trace, (hf a ha).trace, Expr.invocations_append, hall, if_pos rfl]
    · rw [List.all_append, hall, Bool.true_and]
      exact (hf a ha).defined
  | error e =>
    have hall : es.all (Expr.isDefined l env) = false := by
      rw [← Bool.not_eq_true, ← h.defined, ha]
      simp
    rw [bind_of_error ha]
    -- one of the first terms has no value, so those after them do not count
    refine ⟨?_, ?_⟩
    · rw [h.trace, Expr.invocations_append, hall]
      simp
    · simp [List.all_append, hall]

theorem Performs.map {r : Run T α} {es : List Expr} (h : r.Performs l env es) (f : α → β) :
    (r >>= fun a => Pure.pure (f a)).Performs l env es := by
  rw [← List.append_nil es]
  exact h.bind fun a _ => .pure (f a)

theorem Performs.pair {r : Run T α} {r' : Run T β} {es es' : List Expr}
    (h : r.Performs l env es) (h' : r'.Performs l env es') :
    (r.pair r').Performs l env (es ++ es') :=
  h.bind fun a _ => h'.map (a, ·)

/-- A last step that gives the value of a term invokes what the term does. -/
theorem Performs.step {r : Run T α} {f : α → Run T T} {es : List Expr} {e : Expr}
    (h : r.Performs l env es) (hgives : (r >>= f).Gives (e.value l env))
    (htrace : ∀ a, r.outcome = .ok a → (f a).trace = (e.invocation? l env).toList) :
    (r >>= f).Performs l env (es ++ [e]) := by
  refine h.bind fun a ha => ⟨?_, ?_⟩
  · rw [htrace a ha, Expr.invocations_singleton]
  · rw [bind_of_ok ha] at hgives
    simpa [Expr.isDefined] using hgives.exists_ok_iff

end Run

/-! ## Names and operators -/

namespace Scope

variable {s : Scope T} {args : List T}

section Functions

omit [Number T]

variable (s)

theorem unaryFunction?_eq (word : String) :
    s.unaryFunction? word = (s.library.callee? word false).filter fun e =>
      e.function.arity == 0 || e.function.arity == 1 := by
  rw [unaryFunction?, plainFunction?_eq]
  rfl

end Functions

/-- Evaluating the second node is evaluating the first and then a step that invokes what the
operation does. -/
def Applies (l : Library T) (args : List T) (op : UnaryOperation) (node node' : Node T) : Prop :=
  ∃ f : T → Run T T, node'.eval args = node.eval args >>= f ∧
    ∀ a, (f a).trace = (l.operationInvocation? op a).toList

section Operations

variable {op : UnaryOperation} {node node' : Node T}

theorem applies_unary {apply : T → T} (hop : s.library.unary op = some apply) (node : Node T) :
    Applies s.library args op node (.unary op apply node) := by
  refine ⟨_, node.eval_unary args op apply, fun a => ?_⟩
  simp [Library.operationInvocation?, hop, Run.invoke]

theorem applies_call (hop : s.library.unary op = none) (hneg : op ≠ .neg)
    {entry : FunctionEntry T} (hentry : s.unaryFunction? op.name = some entry) (node : Node T) :
    Applies s.library args op node (.call entry [node]) := by
  refine ⟨_, eval_call_singleton entry node, fun a => ?_⟩
  rw [unaryFunction?_eq] at hentry
  cases op with
  | neg => exact absurd rfl hneg
  | abs | fac => simp [Library.operationInvocation?, hop, hentry, Run.invoke]

theorem applies_resolveAbs (s : Scope T) (args : List T) (node : Node T) :
    Applies s.library args .abs node (s.resolveAbs node) := by
  obtain ⟨apply, hop, hn⟩ | ⟨hop, entry, hentry, hn⟩ | ⟨hop, hentry, hn⟩ :=
    s.resolveAbs_cases node <;> rw [hn]
  · exact applies_unary hop node
  · exact applies_call hop (by decide) hentry node
  · refine ⟨_, node.eval_abs args, fun a => ?_⟩
    rw [unaryFunction?_eq] at hentry
    simp [Library.operationInvocation?, hop, UnaryOperation.name, hentry]

theorem applies_resolveUnary {op : UnaryOp} (h : s.resolveUnary op node = .ok node')
    (args : List T) :
    Applies s.library args op.operation node node' := by
  cases op with
  | negate =>
    cases h
    obtain ⟨apply, hop, hn⟩ | ⟨hop, hn⟩ := s.resolveNegate_cases node <;> rw [hn]
    · exact applies_unary hop node
    · refine ⟨_, node.eval_negate args, fun a => ?_⟩
      simp [Library.operationInvocation?, hop, UnaryOp.operation]
  | factorial =>
    obtain ⟨apply, hop, rfl⟩ | ⟨hop, entry, hentry, rfl⟩ := resolveFactorial_cases h
    · exact applies_unary hop node
    · exact applies_call hop (by decide) hentry node

theorem eval_resolveBinary (s : Scope T) (args : List T) (op : BinaryOp) (a b : Node T) :
    ∃ f : T × T → Run T T,
      (s.resolveBinary op a b).eval args = (a.eval args).pair (b.eval args) >>= f ∧
      ∀ p, (f p).trace = (s.library.operatorInvocation? op p.1 p.2).toList := by
  obtain ⟨apply, hop, hn⟩ | ⟨hop, hn⟩ := s.resolveBinary_cases op a b <;> rw [hn]
  · refine ⟨fun p => .invoke (.binary op p.1 p.2) (.ok (apply p.1 p.2)), ?_, fun p => ?_⟩
    · simp [Node.eval_binary, Run.pair]
    · simp [Library.operatorInvocation?, hop, Run.invoke]
  · refine ⟨fun p => pure (op.native p.1 p.2), ?_, fun p => ?_⟩
    · simp [Node.eval_native, Run.pair]
    · simp [Library.operatorInvocation?, hop]

end Operations

/-! ## Expressions -/

theorem trace_resolveLiteral {t : Token} {node : Node T} (h : s.resolveLiteral t = .ok node)
    (args : List T) : (node.eval args).trace = [] := by
  obtain ⟨-, i, -, rfl⟩ | ⟨-, v, -, rfl⟩ | ⟨-, v, -, rfl⟩ := resolveLiteral_cases h
  · rw [Node.eval_parameter]
    cases args[i]? <;> rfl
  · rfl
  · rfl

mutual

/-- Evaluating the node of an expression evaluates the terms of the expression, each once and in
order. -/
theorem performs_resolve (hargs : s.params.length ≤ args.length) : ∀ {e : Expr} {node : Node T},
    s.resolve e = .ok node →
      (node.eval args).Performs s.library (s.params.zip args) (e.subterms .after)
  | .literal t, node, h => by
    have hvalue := gives_resolve hargs h
    rw [resolve] at h
    rw [← pure_bind () fun _ => node.eval args] at hvalue ⊢
    exact (Run.Performs.pure ()).step hvalue fun _ _ => trace_resolveLiteral h args
  | .group e, node, h => by
    have hvalue := gives_resolve hargs h
    obtain ⟨inner, hinner, rfl⟩ := resolve_group h
    rw [Node.eval_group, ← bind_pure (inner.eval args)] at hvalue ⊢
    exact (performs_resolve hargs hinner).step hvalue fun _ _ => rfl
  | .abs e, node, h => by
    have hvalue := gives_resolve hargs h
    obtain ⟨inner, hinner, rfl⟩ := resolve_abs h
    obtain ⟨f, heval, htrace⟩ := s.applies_resolveAbs args inner
    rw [heval] at hvalue ⊢
    refine (performs_resolve hargs hinner).step hvalue fun a ha => ?_
    rw [htrace, Expr.invocation?, (gives_resolve hargs hinner).eq_ok ha]
    rfl
  | .call name variant es, node, h => by
    have hvalue := gives_resolve hargs h
    obtain ⟨entry, nodes, subscript, hentry, hnodes, hsubscript, rfl⟩ := resolve_call h
    have hoperands : (Node.evalAll args (nodes ++ subscript)).Performs s.library
        (s.params.zip args) (Expr.subtermsAll .after es ++ Expr.subtermsOption .after variant) := by
      rw [evalAll_append]
      exact (performs_resolveAll hargs hnodes).bind fun xs _ =>
        (performs_resolveOption hargs hsubscript).map (xs ++ ·)
    have hvalues : (Node.evalAll args (nodes ++ subscript)).Gives
        (Expr.argumentValues s.library (s.params.zip args) es variant) := by
      rw [evalAll_append]
      exact (gives_resolveAll hargs hnodes).bind fun xs =>
        (gives_resolveOption hargs hsubscript).bind fun ys => .pure (xs ++ ys)
    rw [Node.eval_call] at hvalue ⊢
    refine hoperands.step hvalue fun xs hxs => ?_
    rw [Expr.invocation?, callee?_of_function hentry, hvalues.eq_ok hxs]
    rfl
  | .unary op e, node, h => by
    have hvalue := gives_resolve hargs h
    obtain ⟨operand, hoperand, hnode⟩ := resolve_unary h
    obtain ⟨f, heval, htrace⟩ := applies_resolveUnary hnode args
    rw [heval] at hvalue ⊢
    refine (performs_resolve hargs hoperand).step hvalue fun a ha => ?_
    rw [htrace, Expr.invocation?, (gives_resolve hargs hoperand).eq_ok ha]
    rfl
  | .binary op left right, node, h => by
    have hvalue := gives_resolve hargs h
    obtain ⟨a, b, ha, hb, rfl⟩ := resolve_binary h
    obtain ⟨f, heval, htrace⟩ := s.eval_resolveBinary args op a b
    rw [heval] at hvalue ⊢
    refine ((performs_resolve hargs ha).pair (performs_resolve hargs hb)).step hvalue
      fun p hp => ?_
    obtain ⟨hx, hy⟩ := Run.outcome_pair hp
    rw [htrace, Expr.invocation?, (gives_resolve hargs ha).eq_ok hx,
      (gives_resolve hargs hb).eq_ok hy]
    rfl

theorem performs_resolveOption (hargs : s.params.length ≤ args.length) :
    ∀ {e : Option Expr} {nodes : List (Node T)}, s.resolveOption e = .ok nodes →
      (Node.evalAll args nodes).Performs s.library (s.params.zip args)
        (Expr.subtermsOption .after e)
  | none, nodes, h => by
    rw [resolveOption] at h
    cases h
    rw [Node.evalAll_nil, Expr.subtermsOption]
    exact .pure []
  | some e, nodes, h => by
    obtain ⟨node, hnode, rfl⟩ := resolveOption_some h
    rw [Node.evalAll_cons, Node.evalAll_nil, Expr.subtermsOption]
    exact (performs_resolve hargs hnode).map fun a => [a]

theorem performs_resolveAll (hargs : s.params.length ≤ args.length) :
    ∀ {es : List Expr} {nodes : List (Node T)}, s.resolveAll es = .ok nodes →
      (Node.evalAll args nodes).Performs s.library (s.params.zip args)
        (Expr.subtermsAll .after es)
  | [], nodes, h => by
    rw [resolveAll] at h
    cases h
    rw [Node.evalAll_nil, Expr.subtermsAll]
    exact .pure []
  | e :: es, nodes, h => by
    obtain ⟨node, others, hnode, hothers, rfl⟩ := resolveAll_cons h
    rw [Node.evalAll_cons, Expr.subtermsAll]
    exact (performs_resolve hargs hnode).bind fun a _ =>
      (performs_resolveAll hargs hothers).map (a :: ·)

end

/-! ## Clauses -/

/-- The links after an operand of a known value are evaluated up to the first that fails. -/
theorem performs_linksHold (hargs : s.params.length ≤ args.length) {e : Expr} {a : T}
    (ha : e.value s.library (s.params.zip args) = .ok a) {es : List Expr}
    {links : List (Comparison × Node T)} (h : s.resolveAll es = .ok (links.map Prod.snd)) :
    (Condition.linksHold args a links).Performs s.library (s.params.zip args)
      (Expr.subtermsAll .after
        (es.take ((((e :: es).zip ((links.map Prod.fst).zip es)).findIdx
          fun p => !Comparison.isMet s.library (s.params.zip args) p) + 1))) := by
  induction es generalizing e a links with
  | nil =>
    rw [resolveAll] at h
    cases links with
    | nil => exact .pure true
    | cons link links => cases h
  | cons e' es ih =>
    obtain ⟨node, others, hnode, hothers, hnodes⟩ := resolveAll_cons h
    obtain ⟨⟨op, node'⟩, links, rfl, rfl, rfl⟩ := List.map_eq_cons_iff.1 hnodes
    have hvalue := gives_resolve hargs hnode
    rw [Condition.linksHold_cons]
    simp only [List.map_cons, List.zip_cons_cons, List.findIdx_cons]
    cases hmet : Comparison.isMet s.library (s.params.zip args) (e, op, e') with
    | true =>
      simp only [Bool.not_true, cond_false, List.take_succ_cons, Expr.subtermsAll]
      refine (performs_resolve hargs hnode).bind fun b hb => ?_
      have hb' := hvalue.eq_ok hb
      rw [Comparison.isMet_of_values ha hb'] at hmet
      rw [if_pos hmet]
      exact ih hb' hothers
    | false =>
      -- the right operand has been evaluated by the time the comparison fails
      simp only [Bool.not_false, cond_true, List.take_succ_cons, List.take_zero, Expr.subtermsAll]
      refine (performs_resolve hargs hnode).bind fun b hb => ?_
      rw [Comparison.isMet_of_values ha (hvalue.eq_ok hb)] at hmet
      simp only [hmet]
      exact .pure false

theorem performs_holds (hargs : s.params.length ≤ args.length) {c : Clause}
    {condition : Condition T} (h : s.resolveClause c = .ok condition) :
    (condition.holds args).Performs s.library (s.params.zip args)
      (Expr.subtermsAll .after (c.evaluated s.library (s.params.zip args))) := by
  obtain ⟨hoperands, hcomparisons⟩ := resolveClause_eq_ok h
  rw [Clause.evaluated, Clause.pairs, hcomparisons]
  cases hes : c.operands with
  | nil =>
    rw [hes, resolveAll] at hoperands
    cases hoperands
  | cons e es =>
    rw [hes] at hoperands
    obtain ⟨node, others, hnode, hothers, hnodes⟩ := resolveAll_cons hoperands
    cases hnodes
    rw [List.take_succ_cons, Expr.subtermsAll]
    refine (performs_resolve hargs hnode).bind fun a ha => ?_
    exact performs_linksHold hargs ((gives_resolve hargs hnode).eq_ok ha) hothers

theorem performs_allHold (hargs : s.params.length ≤ args.length) {cs : List Clause}
    {conditions : List (Condition T)} (h : s.resolveClauses cs = .ok conditions) :
    (Condition.allHold args conditions).Performs s.library (s.params.zip args)
      (Expr.subtermsAll .after
        ((cs.take (cs.findIdx (fun c => !c.isMet s.library (s.params.zip args)) + 1)).flatMap
          (Clause.evaluated s.library (s.params.zip args)))) := by
  induction cs generalizing conditions with
  | nil =>
    rw [resolveClauses] at h
    cases h
    exact .pure true
  | cons c cs ih =>
    obtain ⟨condition, others, hcondition, hothers, rfl⟩ := resolveClauses_cons h
    have hvalue := gives_holds hargs hcondition
    rw [Condition.allHold_cons, List.take_succ_cons, List.flatMap_cons, Expr.subtermsAll_append]
    refine (performs_holds hargs hcondition).bind fun b hb => ?_
    have hmet := Clause.isMet_of_holds (hvalue.eq_ok hb)
    cases b with
    | true => simpa [List.findIdx_cons, hmet] using ih hothers
    | false => simpa [List.findIdx_cons, hmet] using .pure false

end Scope

theorem CompiledFunction.performs_call {d : Declaration} {f : CompiledFunction T}
    (h : d.compile l = .ok f) {args : List T} (hargs : d.params.length ≤ args.length) :
    (f.call args).Performs l (d.paramNames.zip args)
      (Expr.subtermsAll .after (d.evaluated l (d.paramNames.zip args))) := by
  obtain ⟨rfl, hbody, hconditions⟩ := Declaration.compile_eq_ok h
  have hparams : f.declaration.paramNames.length ≤ args.length := by
    simpa [Declaration.paramNames] using hargs
  rw [CompiledFunction.call_eq,
    if_neg (by simpa [CompiledFunction.arity, CompiledFunction.params] using hparams),
    Declaration.evaluated, Expr.subtermsAll_append]
  refine (Scope.performs_allHold hparams hconditions).bind fun b hb => ?_
  have hmet : f.declaration.clauses.all (Clause.isMet l (f.declaration.paramNames.zip args)) = b :=
    Clause.all_isMet ((Scope.gives_allHold hparams hconditions).eq_ok hb)
  rw [hmet]
  cases b with
  | true => simpa [Expr.subtermsAll] using (Scope.performs_resolve hparams hbody).map some
  | false => exact .pure none

/-- The library is invoked by the terms of the expressions that are evaluated, each once and in
order, and by nothing else. -/
theorem trace_call {d : Declaration} {f : CompiledFunction T} (h : d.compile l = .ok f)
    {args : List T} (hargs : d.params.length ≤ args.length) :
    (f.call args).trace = Expr.invocations l (d.paramNames.zip args)
      (Expr.subtermsAll .after (d.evaluated l (d.paramNames.zip args))) :=
  (CompiledFunction.performs_call h hargs).trace

/-- `f(x, y) = { x < g(y) <= g(y + x), g(x) < y } log_x(g(y))!` -/
def traced : Declaration :=
  let x : Token := { kind := .identifier, lexeme := "x", offset := 2 }
  let y : Token := { kind := .identifier, lexeme := "y", offset := 5 }
  let g : Expr → Expr := fun e => .call { kind := .function, lexeme := "g", offset := 16 } none [e]
  { name := { kind := .identifier, lexeme := "f", offset := 0 }
    params := [x, y]
    body := .unary .factorial (.call { kind := .function, lexeme := "log", offset := 47 }
      (some (.literal x)) [g (.literal y)])
    clauses := [.chain (.compare (.literal x) .less (g (.literal y))) .lessEqual
        (g (.binary .add (.literal y) (.literal x))),
      .compare (g (.literal x)) .less (.literal y)] }

/-- Callables that return their first argument. -/
def tracingLibrary : Library Float :=
  (((Library.empty.addFunction "g" 1 fun args => .ok (args.headD 0)).addFunction "log_" 1
    fun args => .ok (args.headD 0)).setUnary .fac id).setBinary .add fun x _ => x

theorem trace_call_short_circuit :
    ∃ f, traced.compile tracingLibrary = .ok f ∧
      (f.call [1, 2]).trace = [.function "g" [2], .binary .add 2 1, .function "g" [2],
        .function "g" [1], .function "g" [2], .function "log_" [2, 1], .unary .fac 2] ∧
      (f.call [2, 1]).trace = [.function "g" [1]] ∧
      ∀ x y, (f.call [x, y]).trace = Expr.invocations tracingLibrary [("x", x), ("y", y)]
        (Expr.subtermsAll .after (traced.evaluated tracingLibrary [("x", x), ("y", y)])) :=
  ⟨_, rfl, by with_unfolding_all rfl, by with_unfolding_all rfl, fun _ _ =>
    trace_call (d := traced) rfl (Nat.le_refl 2)⟩

end Formula

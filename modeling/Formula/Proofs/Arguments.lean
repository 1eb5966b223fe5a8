import Formula.Number.Float
import Formula.Proofs.Simulation
import Formula.Proofs.Traversal

/-!
# The arguments that a function reads

A compiled function has the positions of its parameters in place of their names. Each is the first
position of a name that is declared, so it is below the arity: the arguments after that have no
effect, neither on the result nor on what is invoked on the way, and no argument is missing. A
function that has no result at enough arguments has a library function to blame for it.

## Main definitions

* `CompiledFunction.parameters` — the parameters in a function, with their positions.
* `Declaration.identifiers` — the names of parameters in a declaration.
* `Run.FailsInLibrary` — runs that fail only where a library function does.

## Main statements

* `CompiledFunction.repeats_call` — a function reads no arguments but those of its parameters.
* `call_reads_declared_arguments` — the same with the positions it reads.
-/

namespace Formula

variable {T : Type}

/-! ## Parameters of nodes -/

namespace Node

mutual

/-- The parameters in a node and their positions, from left to right. -/
def parameters : Node T → List (String × Nat)
  | parameter name index => [(name, index)]
  | constant _ _ => []
  | number _ _ => []
  | group inner => inner.parameters
  | call _ args => parametersAll args
  | abs operand => operand.parameters
  | negate operand => operand.parameters
  | native _ left right => left.parameters ++ right.parameters
  | unary _ _ operand => operand.parameters
  | binary _ _ left right => left.parameters ++ right.parameters

def parametersAll : List (Node T) → List (String × Nat)
  | [] => []
  | node :: nodes => node.parameters ++ parametersAll nodes

end

theorem parametersAll_append (nodes nodes' : List (Node T)) :
    parametersAll (nodes ++ nodes') = parametersAll nodes ++ parametersAll nodes' := by
  induction nodes with
  | nil => rfl
  | cons node nodes ih => rw [List.cons_append, parametersAll, parametersAll, ih, List.append_assoc]

theorem mem_parametersAll {p : String × Nat} {nodes : List (Node T)} :
    p ∈ parametersAll nodes ↔ ∃ node ∈ nodes, p ∈ node.parameters := by
  induction nodes with
  | nil => simp [parametersAll]
  | cons node nodes ih => simp [parametersAll, ih]

end Node

/-- The parameters in the body and the conditions of a function, with their positions. -/
def CompiledFunction.parameters (f : CompiledFunction T) : List (String × Nat) :=
  Node.parametersAll (f.body :: f.conditions.flatMap Condition.operands)

/-- The name of a term that is a parameter. -/
def Expr.identifier? : Expr → Option String
  | literal t => if t.kind = .identifier then some t.lexeme else none
  | _ => none

/-- The names of the parameters among some terms. -/
def Expr.identifiers (es : List Expr) : List String :=
  es.filterMap identifier?

/-- The parameters that the body and the clauses of a declaration name, from left to right. -/
def Declaration.identifiers (d : Declaration) : List String :=
  Expr.identifiers (Expr.subtermsAll .after d.expressions)

namespace Expr

theorem identifiers_append (es es' : List Expr) :
    identifiers (es ++ es') = identifiers es ++ identifiers es' :=
  List.filterMap_append

theorem identifiers_snoc {e : Expr} (h : e.identifier? = none) (es : List Expr) :
    identifiers (es ++ [e]) = identifiers es := by
  simp [identifiers, h]

end Expr

/-! ## Positions of parameters -/

namespace Scope

variable {s : Scope T}

theorem parameters_resolveAbs (s : Scope T) (node : Node T) :
    (s.resolveAbs node).parameters = node.parameters := by
  obtain ⟨apply, -, hn⟩ | ⟨-, entry, -, hn⟩ | ⟨-, -, hn⟩ := s.resolveAbs_cases node <;> rw [hn] <;>
    simp [Node.parameters, Node.parametersAll]

theorem parameters_resolveUnary {op : UnaryOp} {node node' : Node T}
    (h : s.resolveUnary op node = .ok node') : node'.parameters = node.parameters := by
  cases op with
  | negate =>
    cases h
    obtain ⟨apply, -, hn⟩ | ⟨-, hn⟩ := s.resolveNegate_cases node <;> rw [hn, Node.parameters]
  | factorial =>
    obtain ⟨apply, -, rfl⟩ | ⟨-, entry, -, rfl⟩ := resolveFactorial_cases h <;>
      simp [Node.parameters, Node.parametersAll]

theorem parameters_resolveBinary (s : Scope T) (op : BinaryOp) (left right : Node T) :
    (s.resolveBinary op left right).parameters = left.parameters ++ right.parameters := by
  obtain ⟨apply, -, hn⟩ | ⟨-, hn⟩ := s.resolveBinary_cases op left right <;>
    rw [hn, Node.parameters]

variable [Number T]

/-- Every parameter in a resolved node is one of the scope. -/
theorem Resolved.parameter_of_mem {node : Node T} (h : s.Resolved node) :
    ∀ p ∈ node.parameters, s.parameter p.1 = .ok p.2 := by
  induction h with
  | parameter found => simpa [Node.parameters] using found
  | constant | number => simp [Node.parameters]
  | group _ ih | abs _ ih | negate _ ih | unary _ _ ih => simpa [Node.parameters] using ih
  | native _ _ ihl ihr | binary _ _ _ ihl ihr =>
    rw [Node.parameters]
    exact List.forall_mem_append.2 ⟨ihl, ihr⟩
  | call _ _ _ ih =>
    intro p hp
    rw [Node.parameters, Node.mem_parametersAll] at hp
    obtain ⟨node, hnode, hp⟩ := hp
    exact ih node hnode p hp

mutual

/-- A node has the parameters that its expression names. -/
theorem parameters_resolve : ∀ {e : Expr} {node : Node T}, s.resolve e = .ok node →
    node.parameters.map Prod.fst = Expr.identifiers (e.subterms .after)
  | .literal t, node, h => by
    rw [resolve] at h
    obtain ⟨hk, i, -, rfl⟩ | ⟨hk, v, -, rfl⟩ | ⟨hk, v, -, rfl⟩ := resolveLiteral_cases h <;>
      simp [Node.parameters, Expr.subterms, Expr.identifiers, Expr.identifier?, hk]
  | .group e, node, h => by
    obtain ⟨inner, hinner, rfl⟩ := resolve_group h
    rw [Node.parameters, Expr.subterms, Expr.identifiers_snoc rfl]
    exact parameters_resolve hinner
  | .abs e, node, h => by
    obtain ⟨inner, hinner, rfl⟩ := resolve_abs h
    rw [parameters_resolveAbs, Expr.subterms, Expr.identifiers_snoc rfl]
    exact parameters_resolve hinner
  | .call name variant es, node, h => by
    obtain ⟨entry, nodes, subscript, -, hnodes, hsubscript, rfl⟩ := resolve_call h
    rw [Node.parameters, Node.parametersAll_append, List.map_append, parameters_resolveAll hnodes,
      parameters_resolveOption hsubscript, Expr.subterms, CallPlace.arrange,
      Expr.identifiers_snoc rfl, Expr.identifiers_append]
  | .unary op e, node, h => by
    obtain ⟨operand, hoperand, hnode⟩ := resolve_unary h
    rw [parameters_resolveUnary hnode, Expr.subterms, Expr.identifiers_snoc rfl]
    exact parameters_resolve hoperand
  | .binary op left right, node, h => by
    obtain ⟨a, b, ha, hb, rfl⟩ := resolve_binary h
    rw [parameters_resolveBinary, List.map_append, parameters_resolve ha, parameters_resolve hb,
      Expr.subterms, Expr.identifiers_snoc rfl, Expr.identifiers_append]

theorem parameters_resolveOption : ∀ {e : Option Expr} {nodes : List (Node T)},
    s.resolveOption e = .ok nodes → (Node.parametersAll nodes).map Prod.fst =
      Expr.identifiers (Expr.subtermsOption .after e)
  | none, nodes, h => by
    rw [resolveOption] at h
    cases h
    rfl
  | some e, nodes, h => by
    obtain ⟨node, hnode, rfl⟩ := resolveOption_some h
    rw [Node.parametersAll, Node.parametersAll, List.append_nil]
    exact parameters_resolve hnode

theorem parameters_resolveAll : ∀ {es : List Expr} {nodes : List (Node T)},
    s.resolveAll es = .ok nodes → (Node.parametersAll nodes).map Prod.fst =
      Expr.identifiers (Expr.subtermsAll .after es)
  | [], nodes, h => by
    rw [resolveAll] at h
    cases h
    rfl
  | e :: es, nodes, h => by
    obtain ⟨node, others, hnode, hothers, rfl⟩ := resolveAll_cons h
    rw [Node.parametersAll, List.map_append, parameters_resolve hnode,
      parameters_resolveAll hothers, Expr.subtermsAll, Expr.identifiers_append]

end

theorem resolveAll_flatMap_operands {cs : List Clause} {conditions : List (Condition T)}
    (h : s.resolveClauses cs = .ok conditions) :
    s.resolveAll (cs.flatMap Clause.operands) = .ok (conditions.flatMap Condition.operands) := by
  induction cs generalizing conditions with
  | nil =>
    rw [resolveClauses] at h
    cases h
    exact resolveAll.eq_1 s
  | cons c cs ih =>
    obtain ⟨first, others, hfirst, hothers, rfl⟩ := resolveClauses_cons h
    rw [List.flatMap_cons, List.flatMap_cons, resolveAll_append, (resolveClause_eq_ok hfirst).1,
      ih hothers]
    rfl

end Scope

/-! ## Runs -/

namespace Run

variable {α β : Type} {l : Library T}

/-- Where the run has no value, the last thing it did was to invoke a library function, and that
function has no value at the arguments it was given. -/
def FailsInLibrary (l : Library T) (r : Run T α) : Prop :=
  ∀ error, r.outcome = .error error → ∃ name values function missing,
    r.trace.getLast? = some (.function name values) ∧ l.function? name = some function ∧
      function.apply values = .error missing ∧ error = .missingArgument missing

/-- The runs are one and the same. They fail in the library only, and a value that they have has the
property. -/
structure Repeats (l : Library T) (post : α → Prop) (r r' : Run T α) : Prop where
  eq : r = r'
  value : ∀ a, r.outcome = .ok a → post a
  fails : r.FailsInLibrary l

theorem Repeats.pure {post : α → Prop} {a : α} (h : post a) :
    Repeats l post (Pure.pure a : Run T α) (Pure.pure a) where
  eq := rfl
  value _ ha := Except.ok.inj ha ▸ h
  fails := nofun

theorem Repeats.bind {post : α → Prop} {post' : β → Prop} {r r' : Run T α} {f f' : α → Run T β}
    (h : Repeats l post r r') (hf : ∀ a, post a → Repeats l post' (f a) (f' a)) :
    Repeats l post' (r >>= f) (r' >>= f') := by
  obtain rfl := h.eq
  cases hr : r.outcome with
  | error e =>
    rw [bind_of_error hr, bind_of_error hr]
    refine ⟨rfl, nofun, fun error herror => ?_⟩
    cases herror
    exact h.fails _ hr
  | ok a =>
    obtain ⟨heq, hvalue, hfails⟩ := hf a (h.value a hr)
    rw [bind_of_ok hr, bind_of_ok hr, ← heq]
    refine ⟨rfl, hvalue, fun error herror => ?_⟩
    obtain ⟨name, values, function, missing, hlast, hfails⟩ := hfails error herror
    exact ⟨name, values, function, missing, by simp [hlast], hfails⟩

theorem Repeats.invoke_ok (i : Invocation T) (a : α) :
    Repeats l (fun _ => True) (Run.invoke i (.ok a)) (Run.invoke i (.ok a)) :=
  ⟨rfl, fun _ _ => trivial, nofun⟩

theorem Repeats.invoke_function {name : String} {function : LibraryFunction T}
    (found : l.function? name = some function) (values : List T) :
    Repeats l (fun _ => True) (Run.invoke (.function name values) (function.apply values))
      (Run.invoke (.function name values) (function.apply values)) := by
  refine ⟨rfl, fun _ _ => trivial, fun error herror => ?_⟩
  obtain ⟨missing, hmissing, rfl⟩ := mapError_eq_error.1 herror
  exact ⟨name, values, function, missing, rfl, found, hmissing, rfl⟩

def repeats (l : Library T) : Simulation l (Run T) (Run T) where
  Rel := Repeats l
  pure := .pure
  bind := .bind
  function found _ := .invoke_function found _
  unary op x y := .invoke_ok (.unary op x) y
  binary op x y z := .invoke_ok (.binary op x y) z

end Run

/-! ## Compiled functions -/

variable [Number T] {l : Library T} {args args' : List T}

namespace CompiledFunction

variable {d : Declaration} {f : CompiledFunction T}

/-- A compiled function has the same run at argument lists that begin alike. -/
theorem repeats_call (h : d.compile l = .ok f) (hargs : f.arity ≤ args.length)
    (hargs' : f.arity ≤ args'.length) (htake : args.take f.arity = args'.take f.arity) :
    (f.call args).Repeats l (fun _ => True) (f.call args') :=
  (Run.repeats l).call (Declaration.resolved_compile h) hargs hargs' htake

theorem parameter_of_mem (h : d.compile l = .ok f) {p : String × Nat} (hp : p ∈ f.parameters) :
    p.2 = f.params.idxOf p.1 ∧ p.2 < f.arity := by
  obtain ⟨node, hnode, hp⟩ := Node.mem_parametersAll.1 hp
  have resolved := (Declaration.resolved_compile h).node hnode
  exact Scope.parameter_eq_ok (resolved.parameter_of_mem p hp)

theorem map_fst_parameters (h : d.compile l = .ok f) :
    f.parameters.map Prod.fst = d.identifiers := by
  obtain ⟨-, hbody, hconditions⟩ := Declaration.compile_eq_ok h
  rw [parameters, Node.parametersAll, List.map_append, Scope.parameters_resolve hbody,
    Scope.parameters_resolveAll (Scope.resolveAll_flatMap_operands hconditions),
    Declaration.identifiers, Declaration.expressions, Expr.subtermsAll, Expr.identifiers_append]

end CompiledFunction

/-- The parameters in a compiled function are those that its declaration names, each with the first
position of its name, which is below the arity. Argument lists that agree up to the arity have one
and the same run, its result and its invocations. Every argument that is looked up is there, and a
run without a result ends at a library function that has none. -/
theorem call_reads_declared_arguments {d : Declaration} {f : CompiledFunction T}
    (h : d.compile l = .ok f) :
    f.parameters.map Prod.fst = d.identifiers ∧
    (∀ p ∈ f.parameters, p.2 = f.params.idxOf p.1 ∧ p.2 < f.arity) ∧
    (∀ args args' : List T, f.arity ≤ args.length → f.arity ≤ args'.length →
      args.take f.arity = args'.take f.arity → f.call args = f.call args') ∧
    ∀ args : List T, f.arity ≤ args.length →
      (∀ p ∈ f.parameters, ∃ a, args[p.2]? = some a) ∧ (f.call args).FailsInLibrary l := by
  refine ⟨CompiledFunction.map_fst_parameters h, fun p => CompiledFunction.parameter_of_mem h,
    fun args args' hargs hargs' htake => (f.repeats_call h hargs hargs' htake).eq,
    fun args hargs => ⟨fun p hp => ?_, (f.repeats_call h hargs hargs rfl).fails⟩⟩
  have hlt := (CompiledFunction.parameter_of_mem h hp).2
  exact ⟨args[p.2], List.getElem?_eq_getElem (by omega)⟩

/-- `f(x, y, x) = { y <= x } log_y(x)`, in which `x` is the first parameter and never the third. -/
def logarithmToSecond : Declaration :=
  let x : Token := { kind := .identifier, lexeme := "x", offset := 2 }
  let y : Token := { kind := .identifier, lexeme := "y", offset := 5 }
  { name := { kind := .identifier, lexeme := "f", offset := 0 }
    params := [x, y, { x with offset := 8 }]
    body := .call { kind := .function, lexeme := "log", offset := 25 } (some (.literal y))
      [.literal x]
    clauses := [.compare (.literal y) .lessEqual (.literal x)] }

theorem call_reads_declared_arguments_logarithm :
    let l : Library Float := Library.empty.addFunction "log_" 1 fun args =>
      .error { index := 2, supplied := args.length }
    ∃ f, logarithmToSecond.compile l = .ok f ∧ f.arity = 3 ∧
      f.parameters = [("x", 0), ("y", 1), ("y", 1), ("x", 0)] ∧
      f.call [4, 2, 1] = f.call [4, 2, 1, 0] ∧
      (f.call [4, 2, 1]).outcome = .error (.missingArgument { index := 2, supplied := 2 }) ∧
      (f.call [4, 2, 1]).FailsInLibrary l := by
  intro l
  obtain ⟨-, -, hargs, hfails⟩ :=
    call_reads_declared_arguments (l := l) (d := logarithmToSecond) rfl
  exact ⟨_, rfl, rfl, rfl, hargs _ _ (by decide) (by decide) rfl, by with_unfolding_all rfl,
    (hfails _ (by decide)).2⟩

end Formula

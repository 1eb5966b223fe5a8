import Formula.Proofs.Rendering.Source

/-!
# Evaluations side by side

To evaluate a node is to return values, to go on with them and to invoke callables of the library.
What is kept by each of these holds between whole evaluations, of a node as of a compiled function.
The two evaluations may be of different kinds, and their arguments may differ where no parameter
stands for them.

## Main definitions

* `Simulation` — a relation between evaluations that is kept step by step.

## Main statements

* `Simulation.node` — it holds between the evaluations of a node.
* `Simulation.call` — it holds between the calls of a compiled function.
-/

namespace Formula

variable {T : Type}

/-- The position of a parameter is the first one of its name. -/
theorem Scope.parameter_eq_ok {s : Scope T} {name : String} {index : Nat}
    (h : s.parameter name = .ok index) :
    index = s.params.idxOf name ∧ index < s.params.length := by
  unfold parameter at h
  split at h
  · next i hi =>
    cases h
    obtain ⟨hlt, heq⟩ := List.findIdx?_eq_some_iff_findIdx_eq.1 hi
    exact ⟨heq.symm, hlt⟩
  · cases h

/-- A relation between evaluations that have the same value, one with a given property, whenever
they have one. It is kept when the evaluations go on with that value, and holds between invocations
of the same callable, functions being given as many arguments as they declare. -/
structure Simulation (l : Library T) (m m' : Type → Type) [Monad m] [Invokes T m] [Monad m']
    [Invokes T m'] where
  Rel {α : Type} : (α → Prop) → m α → m' α → Prop
  pure {α : Type} {post : α → Prop} {a : α} (h : post a) : Rel post (Pure.pure a) (Pure.pure a)
  bind {α β : Type} {post : α → Prop} {post' : β → Prop} {r : m α} {r' : m' α} {f : α → m β}
    {f' : α → m' β} (h : Rel post r r') (hf : ∀ a, post a → Rel post' (f a) (f' a)) :
    Rel post' (r >>= f) (r' >>= f')
  function {name : String} {g : LibraryFunction T} {values : List T}
    (found : l.function? name = some g) (fits : g.Admits name values.length) :
    Rel (fun _ => True) (Invokes.invoke (.function name values) (g.apply values))
      (Invokes.invoke (.function name values) (g.apply values))
  unary (op : UnaryOperation) (x y : T) :
    Rel (fun _ => True) (Invokes.invoke (.unary op x) (.ok y))
      (Invokes.invoke (.unary op x) (.ok y))
  binary (op : BinaryOp) (x y z : T) :
    Rel (fun _ => True) (Invokes.invoke (.binary op x y) (.ok z))
      (Invokes.invoke (.binary op x y) (.ok z))

namespace Simulation

variable {m m' : Type → Type} [Monad m] [Invokes T m] [Monad m'] [Invokes T m'] [Number T]

/-- The evaluations have a number, about which nothing is said. -/
abbrev Evals {l : Library T} (S : Simulation l m m') (args args' : List T) (node : Node T) : Prop :=
  S.Rel (fun _ => True) (node.evalIn args) (node.evalIn args')

variable {args args' : List T}

theorem nodes {l : Library T} (S : Simulation l m m') {nodes : List (Node T)}
    (h : ∀ node ∈ nodes, S.Evals args args' node) :
    S.Rel (fun values => values.length = nodes.length) (Node.evalAllIn args nodes)
      (Node.evalAllIn args' nodes) := by
  induction nodes with
  | nil =>
    rw [Node.evalAllIn, Node.evalAllIn]
    exact S.pure rfl
  | cons node nodes ih =>
    obtain ⟨hnode, hnodes⟩ := List.forall_mem_cons.1 h
    rw [Node.evalAllIn, Node.evalAllIn]
    exact S.bind hnode fun value _ => S.bind (ih hnodes) fun values hvalues =>
      S.pure (congrArg (· + 1) hvalues)

/-- A resolved node, at argument lists that have the same arguments for the parameters of its
scope. -/
theorem node {s : Scope T} (S : Simulation s.library m m') {node : Node T} (h : s.Resolved node)
    (hargs : ∀ i < s.params.length, ∃ a, args[i]? = some a ∧ args'[i]? = some a) :
    S.Evals args args' node := by
  unfold Evals
  induction h with
  | parameter found =>
    obtain ⟨a, ha, ha'⟩ := hargs _ (Scope.parameter_eq_ok found).2
    rw [Node.evalIn, Node.evalIn, ha, ha']
    exact S.pure trivial
  | constant | number =>
    rw [Node.evalIn, Node.evalIn]
    exact S.pure trivial
  | group _ ih =>
    rw [Node.evalIn, Node.evalIn]
    exact ih
  | abs _ ih | negate _ ih =>
    rw [Node.evalIn, Node.evalIn]
    exact S.bind ih fun a _ => S.pure trivial
  | native _ _ ihl ihr =>
    rw [Node.evalIn, Node.evalIn]
    exact S.bind ihl fun a _ => S.bind ihr fun b _ => S.pure trivial
  | unary _ _ ih =>
    rw [Node.evalIn, Node.evalIn]
    exact S.bind ih fun a _ => S.unary _ a _
  | binary _ _ _ ihl ihr =>
    rw [Node.evalIn, Node.evalIn]
    exact S.bind ihl fun a _ => S.bind ihr fun b _ => S.binary _ a b _
  | call found fits _ ih =>
    rw [Node.evalIn, Node.evalIn]
    exact S.bind (S.nodes ih) fun values hvalues => S.function found (hvalues ▸ fits)

section Conditions

variable {l : Library T} (S : Simulation l m m')

theorem links {links : List (Comparison × Node T)}
    (h : ∀ node ∈ links.map Prod.snd, S.Evals args args' node) (left : T) :
    S.Rel (fun _ => True) (Condition.linksHoldIn args left links)
      (Condition.linksHoldIn args' left links) := by
  induction links generalizing left with
  | nil => exact S.pure trivial
  | cons link links ih =>
    obtain ⟨hnode, hlinks⟩ := List.forall_mem_cons.1 h
    rw [Condition.linksHoldIn, Condition.linksHoldIn]
    refine S.bind hnode fun right _ => ?_
    split
    · exact ih hlinks right
    · exact S.pure trivial

theorem condition {c : Condition T} (h : ∀ node ∈ c.operands, S.Evals args args' node) :
    S.Rel (fun _ => True) (c.holdsIn args) (c.holdsIn args') := by
  obtain ⟨hfirst, hlinks⟩ := List.forall_mem_cons.1 h
  exact S.bind hfirst fun left _ => S.links hlinks left

theorem conditions {cs : List (Condition T)}
    (h : ∀ c ∈ cs, ∀ node ∈ c.operands, S.Evals args args' node) :
    S.Rel (fun _ => True) (Condition.allHoldIn args cs) (Condition.allHoldIn args' cs) := by
  induction cs with
  | nil => exact S.pure trivial
  | cons c cs ih =>
    obtain ⟨hc, hcs⟩ := List.forall_mem_cons.1 h
    rw [Condition.allHoldIn, Condition.allHoldIn]
    refine S.bind (S.condition hc) fun b _ => ?_
    split
    · exact ih hcs
    · exact S.pure trivial

/-- A compiled function, at argument lists that begin alike. -/
theorem call {f : CompiledFunction T} (resolved : f.Resolved l) (hargs : f.arity ≤ args.length)
    (hargs' : f.arity ≤ args'.length) (htake : args.take f.arity = args'.take f.arity) :
    S.Rel (fun _ => True) (f.callIn args) (f.callIn args') := by
  have hvalues : ∀ i < f.arity, ∃ a, args[i]? = some a ∧ args'[i]? = some a := by
    intro i hi
    have hlt : i < args.length := by omega
    refine ⟨args[i], List.getElem?_eq_getElem hlt, ?_⟩
    rw [← List.getElem?_take_of_lt hi, ← htake, List.getElem?_take_of_lt hi,
      List.getElem?_eq_getElem hlt]
  rw [CompiledFunction.callIn, CompiledFunction.callIn, if_neg (Nat.not_lt.2 hargs),
    if_neg (Nat.not_lt.2 hargs')]
  refine S.bind (S.conditions fun c hc node hnode => ?_) fun b _ => ?_
  · exact S.node (resolved.operand c hc node hnode) hvalues
  · split
    · exact S.bind (S.node resolved.body hvalues) fun value _ => S.pure trivial
    · exact S.pure trivial

end Conditions

end Simulation

end Formula

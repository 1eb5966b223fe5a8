import Formula.Number
import Formula.Run
import Formula.Scope

/-!
# Resolved expressions

A node is an expression in which every name has been looked up: parameters by position, constants
and numbers by value, functions by their entry in the library, and operators either with their
native meaning or with the one a library gives them. A node can be rendered as text and evaluated.

## Main definitions

* `Node.source` — the text of a node.
* `Node.evalIn` — the evaluation of a node, whatever an invocation does.
* `Node.eval` — the evaluation that records its invocations.
-/

namespace Formula

inductive Node (T : Type) where
  | parameter (name : String) (index : Nat)
  | constant (name : String) (value : T)
  | number (lexeme : String) (value : T)
  | group (inner : Node T)
  | call (entry : FunctionEntry T) (args : List (Node T))
  /-- The native absolute value. -/
  | abs (operand : Node T)
  /-- The native negation. -/
  | negate (operand : Node T)
  /-- An operator with its native meaning. -/
  | native (op : BinaryOp) (left right : Node T)
  /-- An operation with the meaning given by a library. -/
  | unary (op : UnaryOperation) (apply : T → T) (operand : Node T)
  | binary (op : BinaryOp) (apply : T → T → T) (left right : Node T)

/-- How a native operator is rendered. -/
def BinaryOp.rendered : BinaryOp → String
  | .pow => "**"
  | op => op.symbol

namespace Node

variable {T : Type}

mutual

/-- The text of a node. Native operators are written between their operands without further
parentheses; those of the source are kept. -/
def source : Node T → String
  | parameter name _ => name
  | constant name _ => "constants." ++ name
  | number lexeme _ => lexeme
  | group inner => "(" ++ inner.source ++ ")"
  | call entry args => "functions." ++ entry.name ++ "(" ++ ", ".intercalate (sources args) ++ ")"
  | abs operand => "abs(" ++ operand.source ++ ")"
  | negate operand => "(-" ++ operand.source ++ ")"
  | native op left right => left.source ++ " " ++ op.rendered ++ " " ++ right.source
  | unary op _ operand => "operations." ++ op.name ++ "(" ++ operand.source ++ ")"
  | binary op _ left right =>
    "operations." ++ op.name ++ "(" ++ left.source ++ ", " ++ right.source ++ ")"

def sources : List (Node T) → List String
  | [] => []
  | node :: nodes => node.source :: sources nodes

end

variable [Number T]

section

variable {m : Type → Type} [Monad m] [Invokes T m]

mutual

/-- The value of a node. Operands are evaluated from left to right, each once. -/
def evalIn (args : List T) : Node T → m T
  | parameter _ index =>
    match args[index]? with
    | some value => pure value
    | none => Invokes.fail (.missingArgument { index, supplied := args.length })
  | constant _ value => pure value
  | number _ value => pure value
  | group inner => inner.evalIn args
  | call entry nodes => do
    let values ← evalAllIn args nodes
    Invokes.invoke (.function entry.name values) (entry.function.apply values)
  | abs operand => do
    let value ← operand.evalIn args
    return Number.abs value
  | negate operand => do
    let value ← operand.evalIn args
    return -value
  | native op left right => do
    let a ← left.evalIn args
    let b ← right.evalIn args
    return op.native a b
  | unary op apply operand => do
    let value ← operand.evalIn args
    Invokes.invoke (.unary op value) (.ok (apply value))
  | binary op apply left right => do
    let a ← left.evalIn args
    let b ← right.evalIn args
    Invokes.invoke (.binary op a b) (.ok (apply a b))

def evalAllIn (args : List T) : List (Node T) → m (List T)
  | [] => pure []
  | node :: nodes => do
    let value ← node.evalIn args
    let values ← evalAllIn args nodes
    return value :: values

end

end

def eval (args : List T) (node : Node T) : Run T T :=
  node.evalIn args

def evalAll (args : List T) (nodes : List (Node T)) : Run T (List T) :=
  evalAllIn args nodes

section

variable (args : List T) (node left right : Node T)

theorem eval_parameter (name : String) (index : Nat) : (parameter name index).eval args =
    match args[index]? with
    | some value => pure value
    | none => .fail (.missingArgument { index, supplied := args.length }) :=
  rfl

theorem eval_constant (name : String) (value : T) : (constant name value).eval args = pure value :=
  rfl

theorem eval_number (lexeme : String) (value : T) : (number lexeme value).eval args = pure value :=
  rfl

theorem eval_group : node.group.eval args = node.eval args :=
  rfl

theorem eval_call (entry : FunctionEntry T) (nodes : List (Node T)) :
    (call entry nodes).eval args = evalAll args nodes >>= fun values =>
      .invoke (.function entry.name values) (entry.function.apply values) :=
  rfl

theorem eval_abs : node.abs.eval args = node.eval args >>= fun value => pure (Number.abs value) :=
  rfl

theorem eval_negate : node.negate.eval args = node.eval args >>= fun value => pure (-value) :=
  rfl

theorem eval_native (op : BinaryOp) : (native op left right).eval args =
    left.eval args >>= fun a => right.eval args >>= fun b => pure (op.native a b) :=
  rfl

theorem eval_unary (op : UnaryOperation) (apply : T → T) : (unary op apply node).eval args =
    node.eval args >>= fun value => .invoke (.unary op value) (.ok (apply value)) :=
  rfl

theorem eval_binary (op : BinaryOp) (apply : T → T → T) : (binary op apply left right).eval args =
    left.eval args >>= fun a => right.eval args >>= fun b =>
      .invoke (.binary op a b) (.ok (apply a b)) :=
  rfl

theorem evalAll_nil : evalAll args [] = pure [] :=
  rfl

theorem evalAll_cons (nodes : List (Node T)) : evalAll args (node :: nodes) =
    node.eval args >>= fun value => evalAll args nodes >>= fun values => pure (value :: values) :=
  rfl

end

end Node

end Formula

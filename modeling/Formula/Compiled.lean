import Formula.Declaration
import Formula.Node

/-!
# Compiled functions

A compiled function is a declaration whose body and clauses have been resolved. It can be called on
a list of numbers, is undefined where a clause fails, and has a text that shows how every name was
resolved.

## Main definitions

* `CompiledFunction.source` — the text of a compiled function.
* `CompiledFunction.callIn` — its value at a list of arguments, whatever an invocation does.
* `CompiledFunction.call` — the call that records its invocations.
-/

namespace Formula

variable {T : Type}

/-- A resolved clause: its first operand, and each comparison with the operand after it. -/
structure Condition (T : Type) where
  first : Node T
  links : List (Comparison × Node T)

namespace Condition

def operands (c : Condition T) : List (Node T) :=
  c.first :: c.links.map Prod.snd

def comparisons (c : Condition T) : List Comparison :=
  c.links.map Prod.fst

/-- One comparison after another, each with the source of the operand before it. -/
def linkSources (left : String) : List (Comparison × Node T) → List String
  | [] => []
  | (op, node) :: links =>
    (left ++ " " ++ op.symbol ++ " " ++ node.source) :: linkSources node.source links

def source (c : Condition T) : String :=
  " && ".intercalate (linkSources c.first.source c.links)

variable [Number T]

section

variable {m : Type → Type} [Monad m] [Invokes T m]

/-- Whether the links hold after an operand of the given value. Nothing is evaluated after a link
that fails. -/
def linksHoldIn (args : List T) (left : T) : List (Comparison × Node T) → m Bool
  | [] => pure true
  | (op, node) :: links => do
    let right ← node.evalIn args
    if op.holds left right then linksHoldIn args right links else return false

def holdsIn (args : List T) (c : Condition T) : m Bool := do
  let left ← c.first.evalIn args
  linksHoldIn args left c.links

/-- Whether all conditions hold. Nothing is evaluated after one that fails. -/
def allHoldIn (args : List T) : List (Condition T) → m Bool
  | [] => pure true
  | c :: cs => do
    if ← c.holdsIn args then allHoldIn args cs else return false

end

def linksHold (args : List T) (left : T) (links : List (Comparison × Node T)) : Run T Bool :=
  linksHoldIn args left links

def holds (args : List T) (c : Condition T) : Run T Bool :=
  c.holdsIn args

def allHold (args : List T) (cs : List (Condition T)) : Run T Bool :=
  allHoldIn args cs

section

variable (args : List T)

theorem linksHold_cons (left : T) (op : Comparison) (node : Node T)
    (links : List (Comparison × Node T)) : linksHold args left ((op, node) :: links) =
      node.eval args >>= fun right =>
        if op.holds left right then linksHold args right links else pure false :=
  rfl

theorem holds_eq (c : Condition T) : c.holds args =
    c.first.eval args >>= fun left => linksHold args left c.links :=
  rfl

theorem allHold_cons (c : Condition T) (cs : List (Condition T)) : allHold args (c :: cs) =
    c.holds args >>= fun b => if b then allHold args cs else pure false :=
  rfl

end

end Condition

structure CompiledFunction (T : Type) where
  declaration : Declaration
  body : Node T
  conditions : List (Condition T)

namespace CompiledFunction

def name (f : CompiledFunction T) : String :=
  f.declaration.name.lexeme

def params (f : CompiledFunction T) : List String :=
  f.declaration.paramNames

def arity (f : CompiledFunction T) : Nat :=
  f.params.length

def source (f : CompiledFunction T) : String :=
  let head := "|" ++ ", ".intercalate f.params ++ "| "
  let value := "Some(" ++ f.body.source ++ ")"
  if f.conditions.isEmpty then head ++ value
  else
    head ++ "if " ++ " && ".intercalate (f.conditions.map Condition.source) ++ " \x7b " ++ value ++
      " \x7d else \x7b None \x7d"

variable [Number T]

/-- The value at a list of arguments, or nothing where a condition fails. Arguments beyond the
arity are ignored; with fewer, nothing is evaluated. -/
def callIn {m : Type → Type} [Monad m] [Invokes T m] (f : CompiledFunction T) (args : List T) :
    m (Option T) :=
  if args.length < f.arity then Invokes.fail (.tooFewArguments f.name f.arity args.length)
  else do
    if ← Condition.allHoldIn args f.conditions then
      let value ← f.body.evalIn args
      return some value
    else return none

def call (f : CompiledFunction T) (args : List T) : Run T (Option T) :=
  f.callIn args

theorem call_eq (f : CompiledFunction T) (args : List T) : f.call args =
    if args.length < f.arity then .fail (.tooFewArguments f.name f.arity args.length)
    else Condition.allHold args f.conditions >>= fun b =>
      if b then f.body.eval args >>= fun value => pure (some value) else pure none :=
  rfl

end CompiledFunction

end Formula

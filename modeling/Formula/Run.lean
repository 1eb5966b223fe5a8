import Formula.Library

/-!
# Runs

A run is the result of an evaluation: a value or the reason why there is none, and the library
callables that were invoked, in order, with their arguments. The invocations before a failure are
kept.

## Main definitions

* `Invokes` — what an evaluation does beyond computing.
* `Run` — evaluations that record their invocations.
-/

namespace Formula

/-- A library callable and the arguments it was given. -/
inductive Invocation (T : Type) where
  | function (name : String) (args : List T)
  | unary (op : UnaryOperation) (operand : T)
  | binary (op : BinaryOp) (left right : T)

inductive EvalError where
  | tooFewArguments (function : String) (arity supplied : Nat)
  | missingArgument (argument : MissingArgument)
deriving DecidableEq, Repr

def EvalError.message : EvalError → String
  | tooFewArguments function arity supplied =>
    "`" ++ function ++ "` takes " ++ arity.repr ++ " argument(s) but " ++ supplied.repr ++
      " were supplied"
  | missingArgument argument =>
    "index out of bounds: the len is " ++ argument.supplied.repr ++ " but the index is " ++
      argument.index.repr

/-- Evaluations over `T` may fail, and they invoke the callables of a library. An invocation comes
with the result that the callable computes from its arguments. -/
class Invokes (T : outParam Type) (m : Type → Type) where
  fail {α : Type} : EvalError → m α
  invoke : Invocation T → Except MissingArgument T → m T

structure Run (T α : Type) where
  outcome : Except EvalError α
  trace : List (Invocation T)

namespace Run

variable {T α β : Type}

def fail (error : EvalError) : Run T α :=
  { outcome := .error error, trace := [] }

def bind (r : Run T α) (f : α → Run T β) : Run T β :=
  match r.outcome with
  | .ok value => { outcome := (f value).outcome, trace := r.trace ++ (f value).trace }
  | .error error => { outcome := .error error, trace := r.trace }

instance : Monad (Run T) where
  pure value := { outcome := .ok value, trace := [] }
  bind := bind

/-- Records an invocation and takes its result. -/
def invoke (invocation : Invocation T) (result : Except MissingArgument α) : Run T α :=
  { outcome := result.mapError .missingArgument, trace := [invocation] }

instance : Invokes T (Run T) where
  fail := fail
  invoke := invoke

@[simp] theorem outcome_pure (value : α) : (pure value : Run T α).outcome = .ok value := rfl

@[simp] theorem trace_pure (value : α) : (pure value : Run T α).trace = [] := rfl

theorem bind_of_ok {r : Run T α} {value : α} (h : r.outcome = .ok value) (f : α → Run T β) :
    r >>= f = { outcome := (f value).outcome, trace := r.trace ++ (f value).trace } := by
  show r.bind f = _
  simp [bind, h]

theorem bind_of_error {r : Run T α} {error : EvalError} (h : r.outcome = .error error)
    (f : α → Run T β) : r >>= f = { outcome := .error error, trace := r.trace } := by
  show r.bind f = _
  simp [bind, h]

theorem map_id_eq (r : Run T α) : id <$> r = r := by
  show r.bind (fun value => pure value) = r
  obtain ⟨outcome, trace⟩ := r
  cases outcome <;> simp [bind]

theorem pure_bind_eq (value : α) (f : α → Run T β) : pure value >>= f = f value := by
  show bind (pure value) f = f value
  simp [bind]

theorem bind_bind_eq {γ : Type} (r : Run T α) (f : α → Run T β) (g : β → Run T γ) :
    r >>= f >>= g = r >>= fun value => f value >>= g := by
  show (r.bind f).bind g = r.bind fun value => (f value).bind g
  obtain ⟨outcome, trace⟩ := r
  cases outcome with
  | error error => rfl
  | ok value => cases h : (f value).outcome <;> simp [bind, h]

instance : LawfulMonad (Run T) :=
  LawfulMonad.mk' (Run T) map_id_eq pure_bind_eq bind_bind_eq

end Run

end Formula

import Formula.Compiled

/-!
# Conditions as comparisons

A condition holds if all its consecutive operands compare as they should. It does not matter that
each operand is evaluated once only and that the value of one is kept for the next link, nor how the
comparisons are grouped into conditions.

## Main statements

* `Condition.outcome_allHold` — the outcome of a list of conditions, comparison by comparison.
* `CompiledFunction.outcome_call` — the outcome of a call.
-/

namespace Formula

variable {T : Type}

theorem Run.outcome_bind {α β : Type} (r : Run T α) (f : α → Run T β) :
    (r >>= f).outcome = r.outcome >>= fun a => (f a).outcome := by
  cases h : r.outcome with
  | error e =>
    rw [Run.bind_of_error h]
    rfl
  | ok a =>
    rw [Run.bind_of_ok h]
    rfl

theorem allM_cons {ε α : Type} (p : α → Except ε Bool) (x : α) (xs : List α) :
    (x :: xs).allM p = p x >>= fun b => if b then xs.allM p else .ok false := by
  rw [List.allM]
  congr 1
  funext b
  cases b <;> rfl

theorem allM_append {ε α : Type} (p : α → Except ε Bool) (xs ys : List α) :
    (xs ++ ys).allM p = xs.allM p >>= fun b => if b then ys.allM p else .ok false := by
  induction xs with
  | nil => rfl
  | cons x xs ih =>
    rw [List.cons_append, allM_cons, allM_cons, ih, bind_assoc]
    congr 1
    funext b
    cases b <;> rfl

namespace Condition

/-- The consecutive operands of a condition, with the comparison between them. -/
def pairs (c : Condition T) : List (Node T × Comparison × Node T) :=
  c.operands.zip (c.comparisons.zip c.operands.tail)

variable [Number T] {args : List T}

/-- Whether two operands compare as they should. -/
def compare (args : List T) : Node T × Comparison × Node T → Except EvalError Bool
  | (left, op, right) => do
    let x ← (left.eval args).outcome
    let y ← (right.eval args).outcome
    return op.holds x y

theorem compare_of_left {left right : Node T} {op : Comparison} {a : T}
    (h : (left.eval args).outcome = .ok a) :
    compare args (left, op, right) = (right.eval args).outcome >>= fun b => .ok (op.holds a b) := by
  rw [compare, h]
  rfl

/-- The links after an operand of a known value. -/
theorem outcome_linksHold {left : Node T} {a : T} (ha : (left.eval args).outcome = .ok a)
    (links : List (Comparison × Node T)) :
    (linksHold args a links).outcome =
      ((left :: links.map Prod.snd).zip
        ((links.map Prod.fst).zip (links.map Prod.snd))).allM (compare args) := by
  induction links generalizing left a with
  | nil => rfl
  | cons link links ih =>
    obtain ⟨op, node⟩ := link
    rw [linksHold_cons, Run.outcome_bind, List.map_cons, List.map_cons, List.zip_cons_cons,
      List.zip_cons_cons, allM_cons, compare_of_left ha, bind_assoc]
    cases hb : (node.eval args).outcome with
    | error e => rfl
    | ok b =>
      show (if op.holds a b then linksHold args b links else pure false).outcome =
        if op.holds a b then _ else _
      split
      · exact ih hb
      · rfl

/-- A condition of at least one link holds if all its comparisons do. -/
theorem outcome_holds {c : Condition T} (hc : c.links ≠ []) :
    (c.holds args).outcome = c.pairs.allM (compare args) := by
  obtain ⟨first, links⟩ := c
  rw [holds_eq, Run.outcome_bind]
  cases hfirst : (first.eval args).outcome with
  | ok a => exact outcome_linksHold hfirst links
  | error e =>
    -- the first comparison already fails
    obtain ⟨⟨op, node⟩, links, rfl⟩ := List.exists_cons_of_ne_nil hc
    show Except.error e = (_ :: _ : List (Node T × Comparison × Node T)).allM _
    rw [allM_cons, compare, hfirst]
    rfl

theorem outcome_allHold {cs : List (Condition T)} (hcs : ∀ c ∈ cs, c.links ≠ []) :
    (allHold args cs).outcome = (cs.flatMap pairs).allM (compare args) := by
  induction cs with
  | nil => rfl
  | cons c cs ih =>
    rw [allHold_cons, Run.outcome_bind, outcome_holds (hcs c (by simp)), List.flatMap_cons,
      allM_append]
    congr 1
    funext b
    cases b with
    | false => rfl
    | true => exact ih fun c' hc' => hcs c' (List.mem_cons_of_mem c hc')

end Condition

/-- With enough arguments the outcome of a call depends on the comparisons and the body only. -/
theorem CompiledFunction.outcome_call [Number T] {f : CompiledFunction T} {args : List T}
    (hargs : f.arity ≤ args.length) (hlinks : ∀ c ∈ f.conditions, c.links ≠ []) :
    (f.call args).outcome =
      (f.conditions.flatMap Condition.pairs).allM (Condition.compare args) >>= fun b =>
        if b then (f.body.eval args).outcome.map some else .ok none := by
  rw [call_eq, if_neg (Nat.not_lt.2 hargs), Run.outcome_bind, Condition.outcome_allHold hlinks]
  congr 1
  funext b
  cases b with
  | false => rfl
  | true =>
    show (f.body.eval args >>= fun value => pure (some value)).outcome = _
    rw [Run.outcome_bind]
    cases (f.body.eval args).outcome <;> rfl

end Formula

import Formula.Expr

/-!
# Guard clauses

A clause is a chain of comparisons, `0 <= x < 10`. Later links hold the earlier ones on their
left. The chain is also seen as its operands and the comparisons between them, one fewer.
-/

namespace Formula

inductive Clause where
  | compare (left : Expr) (op : Comparison) (right : Expr)
  | chain (previous : Clause) (op : Comparison) (right : Expr)
deriving DecidableEq, Repr

namespace Clause

/-- The operands from left to right. -/
def operands : Clause → List Expr
  | compare left _ right => [left, right]
  | chain previous _ right => previous.operands ++ [right]

/-- The comparisons from left to right. -/
def comparisons : Clause → List Comparison
  | compare _ op _ => [op]
  | chain previous op _ => previous.comparisons ++ [op]

/-- The clause with further links after it. -/
def extend (c : Clause) : List (Comparison × Expr) → Clause
  | [] => c
  | (op, right) :: links => (chain c op right).extend links

theorem length_operands (c : Clause) : c.operands.length = c.comparisons.length + 1 := by
  induction c with
  | compare => rfl
  | chain previous op right ih => simp [operands, comparisons, ih]

@[simp] theorem operands_extend (c : Clause) (links : List (Comparison × Expr)) :
    (c.extend links).operands = c.operands ++ links.map Prod.snd := by
  induction links generalizing c with
  | nil => simp [extend]
  | cons link links ih => simp [extend, ih, operands]

@[simp] theorem comparisons_extend (c : Clause) (links : List (Comparison × Expr)) :
    (c.extend links).comparisons = c.comparisons ++ links.map Prod.fst := by
  induction links generalizing c with
  | nil => simp [extend]
  | cons link links ih => simp [extend, ih, comparisons]

end Clause

end Formula

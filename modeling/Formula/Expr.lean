import Formula.Operator

/-!
# Expressions

The tree of an expression as it was written. Parentheses are kept, since they are rendered again;
implicit and explicit multiplication give the same node.
-/

namespace Formula

inductive Expr where
  /-- A number, a parameter or a constant. -/
  | literal (token : Token)
  /-- An expression in parentheses. -/
  | group (inner : Expr)
  /-- An expression between pipes. -/
  | abs (inner : Expr)
  /-- A call of a library function, with the subscript that selects a variant if there is one. -/
  | call (name : Token) (variant : Option Expr) (args : List Expr)
  | unary (op : UnaryOp) (operand : Expr)
  | binary (op : BinaryOp) (left right : Expr)
deriving Repr

namespace Expr

mutual

/-- Equality of expressions, tokens compared with their offsets. -/
def beq : Expr → Expr → Bool
  | literal s, literal t => s == t
  | group a, group b => beq a b
  | abs a, abs b => beq a b
  | call s v as, call t w bs => s == t && beqOption v w && beqList as bs
  | unary o a, unary p b => o == p && beq a b
  | binary o a b, binary p c d => o == p && beq a c && beq b d
  | _, _ => false

def beqOption : Option Expr → Option Expr → Bool
  | none, none => true
  | some a, some b => beq a b
  | _, _ => false

def beqList : List Expr → List Expr → Bool
  | [], [] => true
  | a :: as, b :: bs => beq a b && beqList as bs
  | _, _ => false

end

mutual

theorem beq_iff : ∀ a b : Expr, beq a b = true ↔ a = b
  | literal s, b => by cases b <;> simp [beq]
  | group a, b => by cases b <;> simp [beq, beq_iff a]
  | abs a, b => by cases b <;> simp [beq, beq_iff a]
  | call s v as, b => by
    cases b <;> simp [beq, beqOption_iff v, beqList_iff as, and_assoc]
  | unary o a, b => by cases b <;> simp [beq, beq_iff a]
  | binary o a c, b => by cases b <;> simp [beq, beq_iff a, beq_iff c, and_assoc]

theorem beqOption_iff : ∀ a b : Option Expr, beqOption a b = true ↔ a = b
  | none, b => by cases b <;> simp [beqOption]
  | some a, b => by cases b <;> simp [beqOption, beq_iff a]

theorem beqList_iff : ∀ as bs : List Expr, beqList as bs = true ↔ as = bs
  | [], bs => by cases bs <;> simp [beqList]
  | a :: as, bs => by cases bs <;> simp [beqList, beq_iff a, beqList_iff as]

end

instance : DecidableEq Expr :=
  fun a b => decidable_of_iff _ (beq_iff a b)

end Expr

end Formula

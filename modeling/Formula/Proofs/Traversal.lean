import Formula.Declaration

/-!
# Subterms in order

The subterms of an expression from left to right, operands before the operator between or around
them. A call is the one term whose place differs: it is looked up before its arguments and invoked
after them, its subscript being the last argument in both orders.

## Main definitions

* `Expr.subterms` — the subterms of an expression, the expression itself included.
* `Expr.operands` — the terms right inside a term.
* `Declaration.expressions` — the expressions of a declaration, its body first.
-/

namespace Formula

/-- Whether a call comes before its arguments or after them. -/
inductive CallPlace where
  | before
  | after
deriving DecidableEq, Repr

/-- The call and the subterms of its arguments, in order. -/
def CallPlace.arrange (place : CallPlace) (call : Expr) (arguments : List Expr) : List Expr :=
  match place with
  | before => call :: arguments
  | after => arguments ++ [call]

namespace Expr

mutual

/-- The subterms of an expression in order, the expression itself included. -/
def subterms (place : CallPlace) : Expr → List Expr
  | literal t => [literal t]
  | group e => e.subterms place ++ [group e]
  | abs e => e.subterms place ++ [abs e]
  | call name variant args =>
    place.arrange (call name variant args)
      (subtermsAll place args ++ subtermsOption place variant)
  | unary op e => e.subterms place ++ [unary op e]
  | binary op left right => left.subterms place ++ right.subterms place ++ [binary op left right]

def subtermsOption (place : CallPlace) : Option Expr → List Expr
  | none => []
  | some e => e.subterms place

def subtermsAll (place : CallPlace) : List Expr → List Expr
  | [] => []
  | e :: es => e.subterms place ++ subtermsAll place es

end

theorem subtermsAll_append (place : CallPlace) (es es' : List Expr) :
    subtermsAll place (es ++ es') = subtermsAll place es ++ subtermsAll place es' := by
  induction es with
  | nil => rfl
  | cons e es ih => rw [List.cons_append, subtermsAll, subtermsAll, ih, List.append_assoc]

theorem mem_subtermsAll {place : CallPlace} {e : Expr} {es : List Expr} :
    e ∈ subtermsAll place es ↔ ∃ e' ∈ es, e ∈ e'.subterms place := by
  induction es with
  | nil => simp [subtermsAll]
  | cons e' es ih => simp [subtermsAll, ih]

/-! ## Operands -/

/-- The terms right inside a term, the subscript of a call last. -/
def operands : Expr → List Expr
  | literal _ => []
  | group e => [e]
  | abs e => [e]
  | call _ variant args => args ++ variant.toList
  | unary _ e => [e]
  | binary _ left right => [left, right]

theorem sizeOf_lt_of_mem_operands {e e' : Expr} (h : e' ∈ e.operands) : sizeOf e' < sizeOf e := by
  cases e with
  | literal => cases h
  | group e =>
    cases List.mem_singleton.1 h
    rw [group.sizeOf_spec]
    omega
  | abs e =>
    cases List.mem_singleton.1 h
    rw [abs.sizeOf_spec]
    omega
  | unary op e =>
    cases List.mem_singleton.1 h
    rw [unary.sizeOf_spec]
    omega
  | call name variant args =>
    rw [call.sizeOf_spec]
    rcases List.mem_append.1 h with h | h
    · have := List.sizeOf_lt_of_mem h
      omega
    · obtain rfl := Option.mem_toList.1 h
      rw [Option.some.sizeOf_spec]
      omega
  | binary op left right =>
    rw [binary.sizeOf_spec]
    simp only [operands, List.mem_cons, List.not_mem_nil, or_false] at h
    rcases h with rfl | rfl <;> omega

/-- What holds of a term if it holds of its operands holds of all terms. -/
theorem induction_on_operands {P : Expr → Prop} (step : ∀ e, (∀ e' ∈ e.operands, P e') → P e)
    (e : Expr) : P e :=
  step e fun e' h =>
    have := sizeOf_lt_of_mem_operands h
    induction_on_operands step e'
termination_by sizeOf e

theorem mem_subterms {place : CallPlace} {e t : Expr} :
    t ∈ e.subterms place ↔ t = e ∨ ∃ e' ∈ e.operands, t ∈ e'.subterms place := by
  cases e with
  | call name variant args =>
    cases place <;> cases variant <;>
      grind [subterms, operands, CallPlace.arrange, mem_subtermsAll, subtermsOption]
  | _ => grind [subterms, operands]

/-- The order of the subterms has no say in which they are. -/
theorem mem_subterms_iff (place place' : CallPlace) {e t : Expr} :
    t ∈ e.subterms place ↔ t ∈ e.subterms place' := by
  induction e using induction_on_operands with
  | step e ih => grind [mem_subterms]

end Expr

/-- The body of a declaration and the operands of its clauses from left to right. -/
def Declaration.expressions (d : Declaration) : List Expr :=
  d.body :: d.clauses.flatMap Clause.operands

end Formula

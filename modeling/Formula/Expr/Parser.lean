import Formula.Expr
import Formula.Cursor.Step

/-!
# Reading expressions

The grammar of expressions, from the weakest to the strongest binding:

    sum       := product (("+" | "-") product)*
    product   := power (("*" | "/" | "%") power | power)*
    power     := negation ("^" power)?
    negation  := "-" negation | factorial
    factorial := primary "!"*
    primary   := number | identifier | constant | "(" sum ")" | "|" sum "|"
               | function ("_" primary)? "(" (sum ("," sum)*)? ")"

What stands in parentheses, in a subscript, after "^" and after an explicit "*", "/" or "%" is read
one nesting level deeper. While an absolute value is open on a level, a pipe closes it there;
otherwise a pipe after an operand opens a new factor.
-/

namespace Formula.Cursor

/-- The factorial marks after an operand. -/
def bangs {n : Nat} (operand : Expr) (c : Cursor) (h : c.remaining < n) : Step n Expr :=
  match c.accept? .bang with
  | some t => bangs (.unary .factorial operand) t.rest (Nat.lt_trans t.shorter h)
  | none => .done operand c h
termination_by c.remaining
decreasing_by exact t.shorter

/-- Whether an absolute value may be opened inside one that is open on the same level: only where
the pipe cannot be a closing one. -/
def mayOpenAbs (c : Cursor) : Bool :=
  !c.absOpen || c.previous?.any fun t => t.kind == .pipe || t.kind == .plus || t.kind == .minus

mutual

def sum (c : Cursor) : Step c.remaining Expr :=
  (product c).bind fun left rest h => sumTail left rest h
termination_by 8 * c.remaining + 7
decreasing_by all_goals simp; try omega

/-- The terms after the first. -/
def sumTail {n : Nat} (left : Expr) (c : Cursor) (h : c.remaining < n) : Step n Expr :=
  match c.next? with
  | none => .done left c h
  | some t =>
    match BinaryOp.ofAdditive? t.token.kind with
    | none => .done left c h
    | some op =>
      ((product t.rest).bind fun right rest hr => sumTail (.binary op left right) rest hr).widen
        (by have := t.shorter; omega)
termination_by 8 * c.remaining + 6
decreasing_by
  all_goals have := t.shorter
  all_goals omega

def product (c : Cursor) : Step c.remaining Expr :=
  (power c).bind fun left rest h => productTail left rest h
termination_by 8 * c.remaining + 5
decreasing_by all_goals simp; try omega

/-- The factors after the first. -/
def productTail {n : Nat} (left : Expr) (c : Cursor) (h : c.remaining < n) : Step n Expr :=
  match c.next? with
  | none => .done left c h
  | some t =>
    match BinaryOp.ofMultiplicative? t.token.kind with
    | some op =>
      ((power t.rest.enter).leave.bind fun right rest hr =>
        productTail (.binary op left right) rest hr).widen (by have := t.shorter; simp; omega)
    | none =>
      if t.token.kind.startsImplicitOperand && c.absOpen && c.justClosedAbs then
        .faultAfter (.ambiguousAbs t.token) c h
      else if t.token.kind.startsImplicitOperand || t.token.kind == .pipe && !c.absOpen then
        ((power c).bind fun right rest hr =>
          productTail (.binary .mul left right) rest hr).widen (Nat.le_of_lt h)
      else .done left c h
termination_by 8 * c.remaining + 4
decreasing_by
  all_goals have := t.shorter
  all_goals simp_all
  all_goals try omega

def power (c : Cursor) : Step c.remaining Expr :=
  (negation c).bind fun base rest h =>
    match rest.accept? .caret with
    | none => .done base rest h
    | some t =>
      ((power t.rest.enter).leave.map (Expr.binary .pow base)).widen
        (by have := t.shorter; simp; omega)
termination_by 8 * c.remaining + 3
decreasing_by
  · omega
  · have := t.shorter; simp; omega

def negation (c : Cursor) : Step c.remaining Expr :=
  match c.accept? .minus with
  | some t => ((negation t.rest).map (Expr.unary .negate)).widen t.within
  | none => factorial c
termination_by 8 * c.remaining + 2
decreasing_by
  · have := t.shorter; omega
  · omega

def factorial (c : Cursor) : Step c.remaining Expr :=
  (primary c).bind fun operand rest h => bangs operand rest h
termination_by 8 * c.remaining + 1
decreasing_by omega

def primary (c : Cursor) : Step c.remaining Expr :=
  match c.next? with
  | none => .faultAt (.unexpectedEnd .operand) c
  | some t =>
    match t.token.kind with
    | .number | .identifier | .constant => .done (.literal t.token) t.rest t.shorter
    | .parenOpen =>
      ((sum t.rest.enter).leave.andThen fun inner rest _ =>
        (rest.expect .parenClose).map fun _ => Expr.group inner).widen
          t.within
    | .pipe =>
      if c.mayOpenAbs then
        (((sum (t.rest.setAbsOpen true)).setAbsOpen c.absOpen).andThen fun inner rest _ =>
          rest.closeAbs.map fun _ => Expr.abs inner).widen t.within
      else .faultAt (.ambiguousAbs t.token) c
    | .function =>
      (match t.rest.accept? .underscore with
        | some u =>
          ((primary u.rest.enter).leave.andThen fun variant rest _ =>
            callArguments t.token (some variant) rest).widen u.within
        | none => callArguments t.token none t.rest).widen t.within
    | _ => .faultAt (.unexpectedToken t.token .operand) c
termination_by 8 * c.remaining
decreasing_by
  all_goals have := t.shorter
  · simp; omega
  · simp; omega
  · have := u.shorter; simp; omega
  · have := u.shorter; simp_all; omega
  · omega

/-- The arguments of a call, in parentheses. -/
def callArguments (name : Token) (variant : Option Expr) (c : Cursor) : Step c.remaining Expr :=
  (c.expect .parenOpen).andThen fun _ rest _ =>
    (commaList (fun c' _ => (sum c'.enter).leave) .parenClose rest (Nat.le_refl _)).map
      (Expr.call name variant)
termination_by 8 * c.remaining
decreasing_by simp; omega

end

end Formula.Cursor

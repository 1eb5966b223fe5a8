import Formula.Expr.Parser
import Formula.Proofs.Grammar
import Formula.Proofs.Reader.Basic

/-!
# Readers of expressions

The parsers of expressions without their bounds. A loop of the grammar is a reader that takes the
tree read so far and goes on from there, such as `Reader.sumRest`.
-/

namespace Formula.Reader

variable {c : Cursor} {t : Token} {rest : List Token}

def sum : Reader Expr := ofParser (·.sum)
def product : Reader Expr := ofParser (·.product)
def power : Reader Expr := ofParser (·.power)
def negation : Reader Expr := ofParser (·.negation)
def factorial : Reader Expr := ofParser (·.factorial)
def primary : Reader Expr := ofParser (·.primary)

/-- The terms after a sum that has been read. -/
def sumRest (left : Expr) : Reader Expr :=
  fun c => (c.sumTail (n := c.remaining + 1) left c.remaining_lt_succ).result

/-- The factors after a product that has been read. -/
def productRest (left : Expr) : Reader Expr :=
  fun c => (c.productTail (n := c.remaining + 1) left c.remaining_lt_succ).result

/-- The factorial marks after an operand that has been read. -/
def bangs (operand : Expr) : Reader Expr :=
  fun c => (c.bangs (n := c.remaining + 1) operand c.remaining_lt_succ).result

/-- The arguments of a call, in parentheses. -/
def callArguments (name : Token) (variant : Option Expr) : Reader Expr :=
  ofParser (·.callArguments name variant)

theorem result_sumTail {n : Nat} (left : Expr) (c : Cursor) (h : c.remaining < n) :
    (c.sumTail left h).result = sumRest left c := by
  unfold sumRest Cursor.sumTail
  split
  · rfl
  · split <;> simp

theorem sum_eq : sum = product.andThen sumRest := by
  funext c
  rw [sum, ofParser, Cursor.sum]
  exact Step.result_bind sumRest result_sumTail

theorem sumRest_of_additive {op : BinaryOp} (left : Expr) (h : c.ahead = t :: rest)
    (ht : BinaryOp.ofAdditive? t.kind = some op) :
    sumRest left c =
      product.andThen (fun right => sumRest (.binary op left right)) (c.read t rest) := by
  rw [sumRest, Cursor.sumTail, Cursor.next?_cons h]
  simp only [ht, Step.result_widen]
  exact Step.result_bind _ fun right => result_sumTail (.binary op left right)

theorem sumRest_of_not (left : Expr) (h : ∀ t ∈ c.ahead.head?, BinaryOp.ofAdditive? t.kind = none) :
    sumRest left c = .ok (left, c) := by
  rw [sumRest, Cursor.sumTail]
  cases hc : c.ahead with
  | nil => simp [Cursor.next?_nil hc]
  | cons t rest =>
    have ht := h t (by simp [hc])
    simp [Cursor.next?_cons hc, ht]

theorem result_productTail {n : Nat} (left : Expr) (c : Cursor) (h : c.remaining < n) :
    (c.productTail left h).result = productRest left c := by
  unfold productRest Cursor.productTail
  split
  · rfl
  · split
    · exact (Step.result_widen _ _).trans (Step.result_widen _ _).symm
    · split
      · rfl
      · split <;> simp

theorem product_eq : product = power.andThen productRest := by
  funext c
  rw [product, ofParser, Cursor.product]
  exact Step.result_bind productRest result_productTail

theorem productRest_of_multiplicative {op : BinaryOp} (left : Expr) (h : c.ahead = t :: rest)
    (ht : BinaryOp.ofMultiplicative? t.kind = some op) :
    productRest left c =
      power.nested.andThen (fun right => productRest (.binary op left right)) (c.read t rest) := by
  rw [productRest, Cursor.productTail, Cursor.next?_cons h]
  simp only [ht, Step.result_widen]
  refine (Step.result_bind _ fun right => result_productTail (.binary op left right)).trans ?_
  rw [Step.result_leave]
  rfl

theorem ofMultiplicative?_of_operand {kind : TokenKind}
    (h : kind.startsImplicitOperand = true ∨ kind = .pipe) :
    BinaryOp.ofMultiplicative? kind = none := by
  cases kind <;>
    simp_all [TokenKind.startsImplicitOperand, BinaryOp.ofMultiplicative?, BinaryOp.ofKind?]

theorem productRest_of_ambiguous (left : Expr) (h : c.ahead = t :: rest)
    (ht : t.kind.startsImplicitOperand = true) (ho : c.absOpen = true)
    (hj : c.justClosedAbs = true) : productRest left c = .error (.ambiguousAbs t) := by
  rw [productRest, Cursor.productTail, Cursor.next?_cons h]
  simp [ofMultiplicative?_of_operand (.inl ht), ht, ho, hj]

theorem productRest_of_operand (left : Expr) (h : c.ahead = t :: rest)
    (ht : t.kind.startsImplicitOperand = true ∨ t.kind = .pipe ∧ c.absOpen = false)
    (hj : c.absOpen = true → c.justClosedAbs = false) :
    productRest left c = power.andThen (fun right => productRest (.binary .mul left right)) c := by
  have hm := ofMultiplicative?_of_operand (ht.imp_right And.left)
  have ambiguous : (t.kind.startsImplicitOperand && c.absOpen && c.justClosedAbs) = false := by
    cases ho : c.absOpen <;> simp_all
  have operand : (t.kind.startsImplicitOperand || t.kind == .pipe && !c.absOpen) = true := by
    rcases ht with ht | ⟨ht, ho⟩ <;> simp [*]
  rw [productRest, Cursor.productTail, Cursor.next?_cons h]
  simp only [hm, ambiguous, operand, Step.result_widen, Bool.false_eq_true, if_false, if_true]
  exact Step.result_bind _ fun right => result_productTail (.binary .mul left right)

theorem productRest_of_not (left : Expr)
    (h : ∀ t ∈ c.ahead.head?, BinaryOp.ofMultiplicative? t.kind = none ∧
      t.kind.startsImplicitOperand = false ∧ (t.kind = .pipe → c.absOpen = true)) :
    productRest left c = .ok (left, c) := by
  rw [productRest, Cursor.productTail]
  cases hc : c.ahead with
  | nil => simp [Cursor.next?_nil hc]
  | cons t rest =>
    obtain ⟨hm, hi, hp⟩ := h t (by simp [hc])
    simp [Cursor.next?_cons hc, hm, hi]
    split <;> simp_all

/-- What follows the base of a power that has been read. -/
def powerRest (base : Expr) : Reader Expr := fun c =>
  match c.accept? .caret with
  | none => .ok (base, c)
  | some t => power.nested.map (.binary .pow base) t.rest

theorem power_eq : power = negation.andThen powerRest := by
  funext c
  rw [power, ofParser, Cursor.power]
  refine Step.result_bind powerRest fun base c' hc => ?_
  unfold powerRest
  cases c'.accept? .caret with
  | none => rfl
  | some t =>
    refine (Step.result_widen _ _).trans ?_
    rw [Step.result_map, Step.result_leave]
    rfl

theorem powerRest_of_caret (base : Expr) (h : c.ahead = t :: rest) (ht : t.kind = .caret) :
    powerRest base c = power.nested.map (.binary .pow base) (c.read t rest) := by
  rw [powerRest, Cursor.accept?_cons h ht]

theorem powerRest_of_ne (base : Expr) (h : c.peekKind? ≠ some .caret) :
    powerRest base c = .ok (base, c) := by
  rw [powerRest, Cursor.accept?_ne h]

theorem negation_of_minus (h : c.ahead = t :: rest) (ht : t.kind = .minus) :
    negation c = negation.map (.unary .negate) (c.read t rest) := by
  rw [negation, ofParser, Cursor.negation, Cursor.accept?_cons h ht]
  simp only [Step.result_widen, Step.result_map]
  rfl

theorem negation_of_ne (h : c.peekKind? ≠ some .minus) : negation c = factorial c := by
  rw [negation, ofParser, Cursor.negation, Cursor.accept?_ne h]
  rfl

theorem result_bangs {n : Nat} (operand : Expr) (c : Cursor) (h : c.remaining < n) :
    (c.bangs operand h).result = bangs operand c := by
  unfold bangs Cursor.bangs
  split
  · next t _ =>
    have := t.shorter
    rw [result_bangs _ t.rest, result_bangs _ t.rest]
  · rfl
termination_by c.remaining

theorem factorial_eq : factorial = primary.andThen bangs := by
  funext c
  rw [factorial, ofParser, Cursor.factorial]
  exact Step.result_bind bangs result_bangs

theorem bangs_of_bang (operand : Expr) (h : c.ahead = t :: rest) (ht : t.kind = .bang) :
    bangs operand c = bangs (.unary .factorial operand) (c.read t rest) := by
  rw [bangs, Cursor.bangs, Cursor.accept?_cons h ht]
  exact result_bangs _ _ _

theorem bangs_of_ne (operand : Expr) (h : c.peekKind? ≠ some .bang) :
    bangs operand c = .ok (operand, c) := by
  rw [bangs, Cursor.bangs, Cursor.accept?_ne h]
  rfl

theorem primary_of_nil (h : c.ahead = []) : primary c = .error (.unexpectedEnd .operand) := by
  rw [primary, ofParser, Cursor.primary, Cursor.next?_nil h]
  rfl

theorem primary_of_literal (h : c.ahead = t :: rest)
    (ht : t.kind = .number ∨ t.kind = .identifier ∨ t.kind = .constant) :
    primary c = .ok (.literal t, c.read t rest) := by
  rw [primary, ofParser, Cursor.primary, Cursor.next?_cons h]
  rcases ht with ht | ht | ht <;> simp [ht]

theorem primary_of_parenOpen (h : c.ahead = t :: rest) (ht : t.kind = .parenOpen) :
    primary c =
      sum.nested.andThen (fun e => (expect .parenClose).map fun _ => .group e)
        (c.read t rest) := by
  rw [primary, ofParser, Cursor.primary, Cursor.next?_cons h]
  simp only [ht]
  refine (Step.result_widen _ _).trans ((Step.result_andThen
    (fun e => (expect .parenClose).map fun _ => Expr.group e)
    fun e c' _ => Step.result_map _ (c'.expect .parenClose)).trans ?_)
  exact congrArg (Except.bind · _) (Step.result_leave _)

theorem primary_of_pipe (h : c.ahead = t :: rest) (ht : t.kind = .pipe)
    (hm : c.mayOpenAbs = true) :
    primary c = sum.insideAbs.andThen (fun e => closeAbs.map fun _ => .abs e) (c.read t rest) := by
  rw [primary, ofParser, Cursor.primary, Cursor.next?_cons h]
  simp only [ht, hm, if_true]
  refine (Step.result_widen _ _).trans ((Step.result_andThen
    (fun e => closeAbs.map fun _ => Expr.abs e)
    fun e c' _ => Step.result_map _ c'.closeAbs).trans ?_)
  exact congrArg (Except.bind · _) (Step.result_setAbsOpen _ _)

/-- A pipe where no absolute value may be opened. -/
theorem primary_of_ambiguous (h : c.ahead = t :: rest) (ht : t.kind = .pipe)
    (hm : c.mayOpenAbs = false) : primary c = .error (.ambiguousAbs t) := by
  rw [primary, ofParser, Cursor.primary, Cursor.next?_cons h]
  simp [ht, hm]

/-- What follows the name of a function that has been read. -/
def callRest (name : Token) : Reader Expr := fun c =>
  match c.accept? .underscore with
  | some u => primary.nested.andThen (fun variant => callArguments name (some variant)) u.rest
  | none => callArguments name none c

theorem primary_of_function (h : c.ahead = t :: rest) (ht : t.kind = .function) :
    primary c = callRest t (c.read t rest) := by
  rw [primary, ofParser, Cursor.primary, Cursor.next?_cons h]
  simp only [ht, Step.result_widen, callRest]
  cases (c.read t rest).accept? .underscore with
  | none => rfl
  | some u =>
    refine (Step.result_widen _ _).trans ((Step.result_andThen
      (fun variant => callArguments t (some variant)) fun _ _ _ => rfl).trans ?_)
    exact congrArg (Except.bind · _) (Step.result_leave _)

theorem callRest_of_underscore (name : Token) (h : c.ahead = t :: rest)
    (ht : t.kind = .underscore) :
    callRest name c =
      primary.nested.andThen (fun variant => callArguments name (some variant))
        (c.read t rest) := by
  rw [callRest, Cursor.accept?_cons h ht]

theorem callRest_of_ne (name : Token) (h : c.peekKind? ≠ some .underscore) :
    callRest name c = callArguments name none c := by
  rw [callRest, Cursor.accept?_ne h]

theorem primary_of_other (h : c.ahead = t :: rest) (ht : t.kind.startsOperand = false) :
    primary c = .error (.unexpectedToken t .operand) := by
  rw [primary, ofParser, Cursor.primary, Cursor.next?_cons h]
  cases hk : t.kind <;> simp_all [TokenKind.startsOperand]

/-- An argument of a call. -/
def argument (c : Cursor) : Step c.remaining Expr :=
  c.enter.sum.leave

theorem ofParser_argument : ofParser argument = sum.nested :=
  funext fun c => Step.result_leave c.enter.sum

theorem callArguments_eq (name : Token) (variant : Option Expr) :
    callArguments name variant =
      (expect .parenOpen).andThen fun _ =>
        (commaList argument .parenClose).map (.call name variant) := by
  funext c
  rw [callArguments, ofParser, Cursor.callArguments]
  exact Step.result_andThen
    (fun _ => (commaList argument .parenClose).map (Expr.call name variant))
    fun _ c' _ => Step.result_map _ _

end Formula.Reader

import Formula.Proofs.Defects

/-!
# Operators replaced by what they mean

A library may replace an operator by the very meaning that the operator has without it: the native
one, or that of a function named `abs` or `fac`. What compiles is then the same and so are the
results. Only a function that lacks an argument where it stands for an operation has no such
replacement, since a replaced operation always has a value.

## Main definitions

* `Library.unreplaced?` — what a unary operation means where no library replaces it.
* `Covers` — the same result, unless an argument is lacking.
* `Library.CoveredBy` — libraries between which only such results differ.

## Main statements

* `Library.CoveredBy.covers_value` — the values of expressions.
* `Library.CoveredBy.compile` — the errors and the results of declarations.
* `replacing_by_own_meaning` — operators replaced by what they mean.
-/

namespace Formula

variable {T : Type} [Number T]

/-- What a unary operation means in a library that does not replace it: negation is native, the
absolute value and the factorial are those of a plain function of that name which fits one operand,
and without one the absolute value is native and the factorial means nothing. -/
def Library.unreplaced? (l : Library T) : UnaryOperation → Option (T → Except MissingArgument T)
  | .neg => some fun x => .ok (-x)
  | .abs =>
    match l.operandFunction? "abs" with
    | some f => some fun x => f.apply [x]
    | none => some fun x => .ok (Number.abs x)
  | .fac => (l.operandFunction? "fac").map fun f x => f.apply [x]

/-! ## Results that lack an argument -/

section Covers

variable {α β : Type} {lacks : MissingArgument → Prop}

/-- The second result is the first, unless the first lacks an argument. -/
def Covers (lacks : MissingArgument → Prop) (x x' : Except Undefined α) : Prop :=
  x' = x ∨ ∃ missing, lacks missing ∧ x = .error (.argument missing)

theorem Covers.refl (x : Except Undefined α) : Covers lacks x x :=
  .inl rfl

theorem Covers.bind {x x' : Except Undefined α} {f f' : α → Except Undefined β}
    (h : Covers lacks x x') (hf : ∀ a, Covers lacks (f a) (f' a)) :
    Covers lacks (x >>= f) (x' >>= f') := by
  rcases h with rfl | ⟨missing, hmissing, rfl⟩
  · cases x' with
    | error e => exact .refl _
    | ok a => exact hf a
  · exact .inr ⟨missing, hmissing, rfl⟩

theorem Covers.allM {p p' : α → Except Undefined Bool} (h : ∀ a, Covers lacks (p a) (p' a))
    (as : List α) : Covers lacks (as.allM p) (as.allM p') := by
  induction as with
  | nil => exact .refl _
  | cons a as ih =>
    rw [allM_cons, allM_cons]
    refine (h a).bind fun b => ?_
    cases b with
    | false => exact .refl _
    | true => exact ih

omit [Number T] in
/-- Runs that agree with such results have the same outcome, unless an argument is lacking. -/
theorem Covers.outcome {r r' : Run T α} {x x' : Except Undefined α} (h : Covers lacks x x')
    (hr : r.Gives x) (hr' : r'.Gives x') :
    r'.outcome = r.outcome ∨
      ∃ missing, lacks missing ∧ r.outcome = .error (.missingArgument missing) := by
  obtain ⟨z, hz, rfl⟩ := hr
  obtain ⟨z', hz', rfl⟩ := hr'
  rw [hz, hz']
  rcases h with h | ⟨missing, hmissing, h⟩
  · left
    cases z <;> cases z' <;> cases h <;> rfl
  · right
    cases z with
    | ok a => cases h
    | error =>
      cases h
      exact ⟨missing, hmissing, rfl⟩

end Covers

/-! ## Libraries -/

/-- The second library gives every name and every operator the same meaning as the first, but may
give a unary operation a value where the first lacks an argument. -/
structure Library.CoveredBy (lacks : MissingArgument → Prop) (l l' : Library T) : Prop where
  function : l'.function? = l.function?
  constant : l'.constant? = l.constant?
  operator : l'.operator = l.operator
  operation : ∀ op x, Covers lacks (l.operation op x) (l'.operation op x)
  hasFactorial : l'.hasFactorial = l.hasFactorial

namespace Library.CoveredBy

variable {lacks : MissingArgument → Prop} {l l' : Library T}

theorem called?_eq (h : l.CoveredBy lacks l') (word : String) (subscripted : Bool) :
    l'.called? word subscripted = l.called? word subscripted := by
  unfold called?
  rw [h.function]

/-! ### Values -/

section Values

variable {env : List (String × T)}

mutual

theorem covers_value (h : l.CoveredBy lacks l') :
    ∀ e : Expr, Covers lacks (e.value l env) (e.value l' env)
  | .literal t => by
    rw [Expr.value, Expr.value, Token.value?, Token.value?, h.constant]
    exact .refl _
  | .group e => by
    rw [Expr.value, Expr.value]
    exact h.covers_value e
  | .abs e => by
    rw [Expr.value, Expr.value]
    exact (h.covers_value e).bind (h.operation .abs)
  | .call name subscript args => by
    rw [Expr.value, Expr.value, h.called?_eq]
    exact (h.covers_values args).bind fun xs => (h.covers_subscriptValue subscript).bind fun ys =>
      .refl _
  | .unary op e => by
    rw [Expr.value, Expr.value]
    exact (h.covers_value e).bind (h.operation op.operation)
  | .binary op left right => by
    rw [Expr.value, Expr.value, h.operator]
    exact (h.covers_value left).bind fun x => (h.covers_value right).bind fun y => .refl _

theorem covers_subscriptValue (h : l.CoveredBy lacks l') : ∀ e : Option Expr,
    Covers lacks (Expr.subscriptValue l env e) (Expr.subscriptValue l' env e)
  | none => by
    rw [Expr.subscriptValue, Expr.subscriptValue]
    exact .refl _
  | some e => by
    rw [Expr.subscriptValue, Expr.subscriptValue]
    exact (h.covers_value e).bind fun x => .refl _

theorem covers_values (h : l.CoveredBy lacks l') : ∀ es : List Expr,
    Covers lacks (Expr.values l env es) (Expr.values l' env es)
  | [] => by
    rw [Expr.values, Expr.values]
    exact .refl _
  | e :: es => by
    rw [Expr.values, Expr.values]
    exact (h.covers_value e).bind fun x => (h.covers_values es).bind fun xs => .refl _

end

theorem covers_holds (h : l.CoveredBy lacks l') (c : Clause) :
    Covers lacks (c.holds l env) (c.holds l' env) := by
  refine .allM (fun pair => ?_) c.pairs
  exact (h.covers_value pair.1).bind fun x => (h.covers_value pair.2.2).bind fun y => .refl _

end Values

variable (h : l.CoveredBy lacks l')

include h

theorem covers_declaration (d : Declaration) (args : List T) :
    Covers lacks (d.value l args) (d.value l' args) := by
  unfold Declaration.value
  refine (Covers.allM h.covers_holds d.clauses).bind fun b => ?_
  cases b with
  | false => exact .refl _
  | true => exact (h.covers_value d.body).bind fun x => .refl _

/-! ### Errors -/

theorem defect?_eq (params : List String) (e : Expr) :
    e.defect? l' params = e.defect? l params := by
  cases e with
  | literal t =>
    show t.defect? l' params = t.defect? l params
    unfold Token.defect?
    rw [h.constant]
  | call name variant args =>
    show l'.callDefect? .. = l.callDefect? ..
    unfold callDefect?
    rw [h.called?_eq, h.called?_eq]
  | unary op e =>
    cases op with
    | negate => rfl
    | factorial =>
      unfold Expr.defect?
      rw [h.hasFactorial]
  | group | abs | binary => rfl

theorem firstDefect?_eq (d : Declaration) :
    (d.scope l').firstDefect? d.terms = (d.scope l).firstDefect? d.terms :=
  congrArg d.terms.findSome? (funext (h.defect?_eq d.paramNames))

end Library.CoveredBy

/-! ## Compiled functions -/

/-- A declaration fails with the same error under both libraries, or gives functions that have the
same results, unless the first lacks an argument. -/
theorem Library.CoveredBy.compile {lacks : MissingArgument → Prop} {l l' : Library T}
    (h : l.CoveredBy lacks l') (d : Declaration) :
    (∃ error, d.compile l = .error error ∧ d.compile l' = .error error) ∨
    ∃ f f', d.compile l = .ok f ∧ d.compile l' = .ok f' ∧
      ∀ args, d.params.length ≤ args.length → (f'.call args).outcome = (f.call args).outcome ∨
        ∃ missing, lacks missing ∧ (f.call args).outcome = .error (.missingArgument missing) := by
  have reports := d.reports_compile l
  have reports' := d.reports_compile l'
  rw [h.firstDefect?_eq] at reports'
  cases hdefect : (d.scope l).firstDefect? d.terms with
  | some error =>
    exact .inl ⟨error, (reports.eq_error_iff error).2 hdefect,
      (reports'.eq_error_iff error).2 hdefect⟩
  | none =>
    obtain ⟨f, hf⟩ := reports.exists_ok_iff.2 hdefect
    obtain ⟨f', hf'⟩ := reports'.exists_ok_iff.2 hdefect
    exact .inr ⟨f, f', hf, hf', fun args hargs => (h.covers_declaration d args).outcome
      (f.gives_call hf hargs) (f'.gives_call hf' hargs)⟩

/-! ## Replaced operators -/

namespace Library

variable {l : Library T}

theorem coveredBy_setBinary {op : BinaryOp} (hop : l.binary op = none) :
    l.CoveredBy (fun _ => False) (l.setBinary op op.native) := by
  refine ⟨rfl, rfl, ?_, fun _ _ => .refl _, rfl⟩
  funext other
  by_cases hother : other = op
  · subst hother
    have hreplaced : (l.setBinary other other.native).binary other = some other.native := if_pos rfl
    rw [operator_of_some hreplaced, operator_of_none hop]
  · have hkept : (l.setBinary op op.native).binary other = l.binary other := if_neg hother
    unfold operator
    rw [hkept]

theorem operation_of_unreplaced? {op : UnaryOperation} {apply : T → Except MissingArgument T}
    (hop : l.unary op = none) (happly : l.unreplaced? op = some apply) (x : T) :
    l.operation op x = (apply x).mapError .argument := by
  unfold operation
  rw [hop]
  cases op with
  | neg =>
    cases happly
    rfl
  | abs =>
    unfold unreplaced? at happly
    cases hf : l.operandFunction? "abs" with
    | some f =>
      rw [hf] at happly
      cases happly
      rfl
    | none =>
      rw [hf] at happly
      cases happly
      rfl
  | fac =>
    obtain ⟨f, hf, rfl⟩ := Option.map_eq_some_iff.1 happly
    rw [hf]
    rfl

theorem operation_setUnary_of_ne {op other : UnaryOperation} (hother : other ≠ op) (g : T → T)
    (x : T) : (l.setUnary op g).operation other x = l.operation other x := by
  have hunary : (l.setUnary op g).unary other = l.unary other := if_neg hother
  unfold operation
  rw [hunary]
  rfl

theorem coveredBy_setUnary {op : UnaryOperation} {apply : T → Except MissingArgument T} {g : T → T}
    (hop : l.unary op = none) (happly : l.unreplaced? op = some apply)
    (hg : ∀ x y, apply x = .ok y → g x = y) :
    l.CoveredBy (fun missing => ∃ x, apply x = .error missing) (l.setUnary op g) := by
  have hunary : (l.setUnary op g).unary op = some g := if_pos rfl
  refine ⟨rfl, rfl, rfl, fun other x => ?_, ?_⟩
  · by_cases hother : other = op
    · subst hother
      have hx' : (l.setUnary other g).operation other x = .ok (g x) := by
        unfold operation
        rw [hunary]
      rw [operation_of_unreplaced? hop happly, hx']
      cases hx : apply x with
      | ok y => exact .inl (congrArg Except.ok (hg x y hx))
      | error missing => exact .inr ⟨missing, ⟨x, hx⟩, rfl⟩
    · exact .inl (operation_setUnary_of_ne hother g x)
  · unfold hasFactorial
    by_cases hother : .fac = op
    · -- the factorial had a meaning before, by a function
      subst hother
      obtain ⟨f, hf, -⟩ := Option.map_eq_some_iff.1 happly
      rw [hunary, hf]
      simp
    · have hfac : (l.setUnary op g).unary .fac = l.unary .fac := if_neg hother
      rw [hfac]
      rfl

end Library

/-- An operator that a library does not replace can be replaced by what it means already, with the
same errors and the same results at every list of enough arguments. If the meaning is that of a
function which lacks an argument for some operand, then the results are the same but for calls that
fail on this account. -/
theorem replacing_by_own_meaning (l : Library T) (d : Declaration) :
    (∀ op, l.binary op = none → let l' := l.setBinary op op.native
      (∃ error, d.compile l = .error error ∧ d.compile l' = .error error) ∨
      ∃ f f', d.compile l = .ok f ∧ d.compile l' = .ok f' ∧
        ∀ args, d.params.length ≤ args.length →
          (f'.call args).outcome = (f.call args).outcome) ∧
    ∀ op apply (g : T → T), l.unary op = none → l.unreplaced? op = some apply →
      (∀ x y, apply x = .ok y → g x = y) → let l' := l.setUnary op g
      (∃ error, d.compile l = .error error ∧ d.compile l' = .error error) ∨
      ∃ f f', d.compile l = .ok f ∧ d.compile l' = .ok f' ∧
        ∀ args, d.params.length ≤ args.length →
          (f'.call args).outcome = (f.call args).outcome ∨
          ∃ missing, (∃ x, apply x = .error missing) ∧
            (f.call args).outcome = .error (.missingArgument missing) := by
  refine ⟨fun op hop => ?_, fun op apply g hop happly hg => ?_⟩
  · simpa only [false_and, exists_false, or_false] using
      (Library.coveredBy_setBinary hop).compile d
  · exact (Library.coveredBy_setUnary hop happly hg).compile d

/-- `f(x) = { -|x| < x! } |x| + x!`. -/
def factorialAboveAbs : Declaration :=
  let x : Token := { kind := .identifier, lexeme := "x", offset := 2 }
  { name := { kind := .identifier, lexeme := "f", offset := 0 }
    params := [x]
    body := .binary .add (.abs (.literal x)) (.unary .factorial (.literal x))
    clauses := [.compare (.unary .negate (.abs (.literal x))) .less
      (.unary .factorial (.literal x))] }

/-- With a function `abs` that takes one argument and a function `fac` that takes any number of
them, each of the four operators of the declaration is replaced in turn. -/
theorem replacing_by_own_meaning_functions :
    let l : Library Float := (Library.empty.addFunction "abs" 1 fun args =>
      .ok (args.headD 0).abs).addFunction "fac" 0 fun args => .ok (args.headD 0 + 1)
    ∃ f, factorialAboveAbs.compile l = .ok f ∧
      ∀ l' ∈ [l.setBinary .add (· + ·), l.setUnary .neg (- ·), l.setUnary .abs Float.abs,
        l.setUnary .fac (· + 1)],
      ∃ f', factorialAboveAbs.compile l' = .ok f' ∧
        (f'.call [-2]).outcome = (f.call [-2]).outcome := by
  intro l
  have compiled : ∃ f, factorialAboveAbs.compile l = .ok f := ⟨_, rfl⟩
  obtain ⟨f, hf⟩ := compiled
  refine ⟨f, hf, ?_⟩
  obtain ⟨binary, unary⟩ := replacing_by_own_meaning l factorialAboveAbs
  have replaced : ∀ op apply g, l.unary op = none → l.unreplaced? op = some apply →
      (∀ x, apply x = .ok (g x)) → ∃ f', factorialAboveAbs.compile (l.setUnary op g) = .ok f' ∧
        (f'.call [-2]).outcome = (f.call [-2]).outcome := by
    intro op apply g hop happly hg
    have hg' : ∀ x y, apply x = .ok y → g x = y := fun x y hy =>
      Except.ok.inj ((hg x).symm.trans hy)
    rcases unary op apply g hop happly hg' with ⟨error, herror, -⟩ | ⟨f₁, f', hf₁, hf', hcall⟩
    · cases hf.symm.trans herror
    · cases hf.symm.trans hf₁
      rcases hcall [-2] (by decide) with hcall | ⟨missing, ⟨x, hx⟩, -⟩
      · exact ⟨f', hf', hcall⟩
      · cases (hg x).symm.trans hx
  simp only [List.forall_mem_cons]
  refine ⟨?_, replaced .neg _ _ rfl rfl fun _ => rfl, replaced .abs _ _ rfl rfl fun _ => rfl,
    replaced .fac _ _ rfl rfl fun _ => rfl, fun _ h => absurd h List.not_mem_nil⟩
  rcases binary .add rfl with ⟨error, herror, -⟩ | ⟨f₁, f', hf₁, hf', hcall⟩
  · cases hf.symm.trans herror
  · cases hf.symm.trans hf₁
    exact ⟨f', hf', hcall [-2] (by decide)⟩

end Formula

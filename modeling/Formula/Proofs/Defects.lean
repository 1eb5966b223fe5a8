import Formula.Proofs.Preservation
import Formula.Proofs.Traversal

/-!
# Defects of declarations

A term is defective if it stands for nothing: a name that is not known, a text that is no number, a
call that no function takes, a factorial that nothing defines. Whether a term is defective depends
on the term alone, not on the terms inside it or around it. Compilation finds the first defective
term, in an order that has the body before the clauses and a call before its arguments, and it finds
it also in a clause that could never hold.

## Main definitions

* `Expr.defect?` — what is wrong with a term.
* `Declaration.terms` — the terms of a declaration, in the order in which they are looked up.

## Main statements

* `compile_reports_first_defect` — compilation succeeds if no term is defective and otherwise
  reports the first that is.
-/

namespace Formula

variable {T : Type}

/-! ## Defective terms -/

/-- What is wrong with a call of a word with a number of arguments. A word that has no function of
the kind that is called may still have one of the other kind. -/
def Library.callDefect? (l : Library T) (word : String) (subscripted : Bool) (count : Nat) :
    Option CompileError :=
  match l.called? word subscripted with
  | some f =>
    if f.arity = 0 ∨ f.arity = count then none
    else some (.argumentCountMismatch word f.arity count)
  | none =>
    if (l.called? word !subscripted).isNone then some (.undefinedFunction word)
    else if subscripted then some (.unexpectedVariant word)
    else some (.missingVariant word)

/-- Whether the factorial has a meaning in the library. -/
def Library.hasFactorial (l : Library T) : Bool :=
  (l.unary .fac).isSome || (l.operandFunction? "fac").isSome

variable [Number T]

/-- What is wrong with a parameter, a constant or a number. -/
def Token.defect? (l : Library T) (params : List String) (t : Token) : Option CompileError :=
  match t.kind with
  | .identifier => if t.lexeme ∈ params then none else some (.undefinedIdentifier t.lexeme)
  | .constant =>
    if (l.constant? t.lexeme).isSome then none else some (.undefinedConstant t.lexeme)
  | .number =>
    if (Number.ofLiteral? t.lexeme : Option T).isSome then none
    else some (.invalidLiteral t.lexeme)
  | _ => some (.invalidLiteral t.lexeme)

/-- What is wrong with a term, whatever the terms inside it. -/
def Expr.defect? (l : Library T) (params : List String) : Expr → Option CompileError
  | .literal t => t.defect? l params
  | .call name variant args => l.callDefect? name.lexeme variant.isSome args.length
  | .unary .factorial _ =>
    if l.hasFactorial then none else some (.undefinedOperator "factorial")
  | _ => none

/-- The terms of a declaration in the order in which they are looked up. -/
def Declaration.terms (d : Declaration) : List Expr :=
  Expr.subtermsAll .before d.expressions

/-! ## Results that report an error -/

/-- The result is the given error, or a success if there is none. -/
def Reports {α : Type} (x : Except CompileError α) : Option CompileError → Prop
  | none => ∃ a, x = .ok a
  | some error => x = .error error

theorem Reports.bind {α β : Type} {x : Except CompileError α} {o o' : Option CompileError}
    {f : α → Except CompileError β} (h : Reports x o) (hf : ∀ a, Reports (f a) o') :
    Reports (x >>= f) (o.or o') := by
  cases o with
  | none =>
    obtain ⟨a, rfl⟩ := h
    exact hf a
  | some error =>
    obtain rfl : x = .error error := h
    rfl

theorem Reports.ok {α : Type} (a : α) : Reports (.ok a) none :=
  ⟨a, rfl⟩

/-- A last step that cannot fail does not change what is reported. -/
theorem Reports.map {α β : Type} {x : Except CompileError α} {o : Option CompileError}
    (h : Reports x o) (f : α → β) : Reports (x >>= fun a => .ok (f a)) o := by
  have hbind := h.bind fun a => Reports.ok (f a)
  rwa [Option.or_none] at hbind

theorem Reports.exists_ok_iff {α : Type} {x : Except CompileError α} {o : Option CompileError}
    (h : Reports x o) : (∃ a, x = .ok a) ↔ o = none := by
  cases o with
  | none => exact iff_of_true h rfl
  | some error =>
    obtain rfl : x = .error error := h
    simp

theorem Reports.eq_error_iff {α : Type} {x : Except CompileError α} {o : Option CompileError}
    (h : Reports x o) (error : CompileError) : x = .error error ↔ o = some error := by
  cases o with
  | none =>
    obtain ⟨a, rfl⟩ := h
    simp
  | some error' =>
    obtain rfl : x = .error error' := h
    simp

/-! ## Names and operators -/

namespace Scope

section Functions

omit [Number T]

theorem reports_function (s : Scope T) (word : String) (subscripted : Bool) (count : Nat) :
    Reports (s.function word subscripted count)
      (s.library.callDefect? word subscripted count) := by
  rw [function_eq, Library.callDefect?, ← Library.map_function_callee?,
    ← Library.map_function_callee?]
  cases s.library.callee? word subscripted with
  | some entry =>
    simp only [Option.map_some]
    split
    · exact .ok entry
    · rfl
  | none =>
    cases s.library.callee? word !subscripted with
    | some entry => cases subscripted <;> rfl
    | none => rfl

theorem reports_resolveFactorial (s : Scope T) (node : Node T) :
    Reports (s.resolveFactorial node)
      (if s.library.hasFactorial then none else some (.undefinedOperator "factorial")) := by
  have found := s.map_function_unaryFunction? "fac"
  unfold resolveFactorial Library.hasFactorial
  rw [← found, Option.isSome_map]
  cases s.library.unary .fac with
  | some apply => exact .ok _
  | none =>
    cases s.unaryFunction? "fac" with
    | some entry => exact .ok _
    | none => rfl

theorem reports_parameter (s : Scope T) (name : String) :
    Reports (s.parameter name)
      (if name ∈ s.params then none else some (.undefinedIdentifier name)) := by
  unfold parameter
  cases h : s.params.findIdx? (· == name) with
  | some index =>
    have hmem : name ∈ s.params := by
      obtain ⟨hindex, heq, -⟩ := List.findIdx?_eq_some_iff_getElem.1 h
      exact beq_iff_eq.1 heq ▸ List.getElem_mem hindex
    rw [if_pos hmem]
    exact .ok index
  | none =>
    have hmem : name ∉ s.params := fun hname => by
      simpa using List.findIdx?_eq_none_iff.1 h name hname
    rw [if_neg hmem]
    rfl

theorem reports_constant (s : Scope T) (name : String) :
    Reports (s.constant name)
      (if (s.library.constant? name).isSome then none else some (.undefinedConstant name)) := by
  unfold constant
  cases s.library.constant? name with
  | some value => exact .ok value
  | none => rfl

end Functions

variable (s : Scope T)

theorem reports_resolveLiteral (t : Token) :
    Reports (s.resolveLiteral t) (t.defect? s.library s.params) := by
  obtain ⟨kind, lexeme, offset⟩ := t
  cases kind
  case identifier => exact (s.reports_parameter lexeme).map (Node.parameter lexeme)
  case constant => exact (s.reports_constant lexeme).map (Node.constant lexeme)
  case number =>
    unfold resolveLiteral Token.defect?
    dsimp only
    cases (Number.ofLiteral? lexeme : Option T) with
    | some value => exact .ok _
    | none => rfl
  all_goals rfl

/-! ## Expressions -/

/-- The first defect among terms. -/
def firstDefect? (es : List Expr) : Option CompileError :=
  es.findSome? (Expr.defect? s.library s.params)

theorem firstDefect?_append (es es' : List Expr) :
    s.firstDefect? (es ++ es') = (s.firstDefect? es).or (s.firstDefect? es') :=
  List.findSome?_append

theorem firstDefect?_singleton (e : Expr) :
    s.firstDefect? [e] = e.defect? s.library s.params :=
  List.findSome?_singleton

/-- A term that is never defective itself adds nothing to those inside it. -/
theorem firstDefect?_snoc {e : Expr} (h : e.defect? s.library s.params = none) (es : List Expr) :
    s.firstDefect? (es ++ [e]) = s.firstDefect? es := by
  rw [firstDefect?_append, firstDefect?_singleton, h, Option.or_none]

mutual

/-- Resolving an expression reports its first defective term. -/
theorem reports_resolve : ∀ e : Expr,
    Reports (s.resolve e) (s.firstDefect? (e.subterms .before))
  | .literal t => by
    rw [resolve, Expr.subterms, firstDefect?_singleton]
    exact s.reports_resolveLiteral t
  | .group e => by
    rw [resolve, Expr.subterms, firstDefect?_snoc s rfl]
    exact (reports_resolve e).map _
  | .abs e => by
    rw [resolve, Expr.subterms, firstDefect?_snoc s rfl]
    exact (reports_resolve e).map _
  | .call name variant args => by
    rw [resolve, Expr.subterms, CallPlace.arrange, ← List.singleton_append, firstDefect?_append,
      firstDefect?_singleton, firstDefect?_append]
    refine (s.reports_function name.lexeme variant.isSome args.length).bind fun entry => ?_
    refine (reports_resolveAll args).bind fun nodes => ?_
    exact (reports_resolveOption variant).map _
  | .unary .negate e => by
    rw [resolve, Expr.subterms, firstDefect?_snoc s rfl]
    exact (reports_resolve e).map _
  | .unary .factorial e => by
    rw [resolve, Expr.subterms, firstDefect?_append, firstDefect?_singleton]
    exact (reports_resolve e).bind fun node => s.reports_resolveFactorial node
  | .binary op left right => by
    rw [resolve, Expr.subterms, firstDefect?_snoc s rfl, firstDefect?_append]
    exact (reports_resolve left).bind fun a => (reports_resolve right).map _

theorem reports_resolveOption : ∀ e : Option Expr,
    Reports (s.resolveOption e) (s.firstDefect? (Expr.subtermsOption .before e))
  | none => by
    rw [resolveOption, Expr.subtermsOption]
    exact .ok []
  | some e => by
    rw [resolveOption, Expr.subtermsOption]
    exact (reports_resolve e).map _

theorem reports_resolveAll : ∀ es : List Expr,
    Reports (s.resolveAll es) (s.firstDefect? (Expr.subtermsAll .before es))
  | [] => by
    rw [resolveAll, Expr.subtermsAll]
    exact .ok []
  | e :: es => by
    rw [resolveAll, Expr.subtermsAll, firstDefect?_append]
    exact (reports_resolve e).bind fun node => (reports_resolveAll es).map _

end

/-! ## Clauses and declarations -/

theorem reports_resolveClause (c : Clause) :
    Reports (s.resolveClause c) (s.firstDefect? (Expr.subtermsAll .before c.operands)) := by
  induction c with
  | compare left op right =>
    simp only [resolveClause, Clause.operands, Expr.subtermsAll, List.append_nil,
      firstDefect?_append]
    exact (s.reports_resolve left).bind fun first => (s.reports_resolve right).map _
  | chain previous op right ih =>
    simp only [resolveClause, Clause.operands, Expr.subtermsAll_append, Expr.subtermsAll,
      List.append_nil, firstDefect?_append]
    exact ih.bind fun condition => (s.reports_resolve right).map _

theorem reports_resolveClauses (cs : List Clause) :
    Reports (s.resolveClauses cs)
      (s.firstDefect? (Expr.subtermsAll .before (cs.flatMap Clause.operands))) := by
  induction cs with
  | nil => exact .ok []
  | cons c cs ih =>
    rw [resolveClauses, List.flatMap_cons, Expr.subtermsAll_append, firstDefect?_append]
    exact (s.reports_resolveClause c).bind fun condition => ih.map _

end Scope

theorem Declaration.reports_compile (l : Library T) (d : Declaration) :
    Reports (d.compile l) ((d.scope l).firstDefect? d.terms) := by
  rw [terms, expressions, Expr.subtermsAll, Scope.firstDefect?_append]
  exact ((d.scope l).reports_resolve d.body).bind fun body =>
    ((d.scope l).reports_resolveClauses d.clauses).map _

/-- Compilation succeeds exactly if no term of the declaration is defective, and otherwise reports
what is wrong with the first defective term. -/
theorem compile_reports_first_defect (l : Library T) (d : Declaration) :
    ((∃ f, d.compile l = .ok f) ↔ ∀ e ∈ d.terms, e.defect? l d.paramNames = none) ∧
      ∀ error, d.compile l = .error error ↔
        ∃ before e after, d.terms = before ++ e :: after ∧
          (∀ e' ∈ before, e'.defect? l d.paramNames = none) ∧
          e.defect? l d.paramNames = some error := by
  have reports := d.reports_compile l
  refine ⟨?_, fun error => ?_⟩
  · rw [reports.exists_ok_iff]
    exact List.findSome?_eq_none_iff
  · rw [reports.eq_error_iff, Scope.firstDefect?, List.findSome?_eq_some_iff]
    constructor
    · rintro ⟨before, e, after, hterms, he, hbefore⟩
      exact ⟨before, e, after, hterms, hbefore, he⟩
    · rintro ⟨before, e, after, hterms, hbefore, he⟩
      exact ⟨before, e, after, hterms, he, hbefore⟩

end Formula

import Formula.Declaration.Parser
import Formula.Proofs.Reader.Expr

/-!
# Readers of declarations

The parsers of guard clauses and declarations without their bounds.
-/

namespace Formula.Reader

variable {c : Cursor} {t : Token} {rest : List Token}

/-! ## Guard clauses -/

def comparison : Reader Comparison := ofParser (·.comparison)
def clause : Reader Clause := ofParser (·.clause)
def guardClauses : Reader (List Clause) := ofParser (·.guardClauses)

/-- The links after a clause that has been read. -/
def links (previous : Clause) : Reader Clause :=
  fun c => (c.links (n := c.remaining + 1) previous c.remaining_lt_succ).result

theorem comparison_of_some {op : Comparison} (h : c.ahead = t :: rest)
    (ht : Comparison.ofKind? t.kind = some op) : comparison c = .ok (op, c.read t rest) := by
  simp [comparison, ofParser, Cursor.comparison, Cursor.next?_cons h, ht]

theorem comparison_of_none (h : c.ahead = t :: rest) (ht : Comparison.ofKind? t.kind = none) :
    comparison c = .error (.unexpectedToken t .comparison) := by
  simp [comparison, ofParser, Cursor.comparison, Cursor.next?_cons h, ht]

theorem comparison_of_nil (h : c.ahead = []) :
    comparison c = .error (.unexpectedEnd .comparison) := by
  simp [comparison, ofParser, Cursor.comparison, Cursor.next?_nil h]

theorem result_nested (parser : (c : Cursor) → Step c.remaining Expr) (c : Cursor) :
    (c.nested parser).result = (ofParser parser).nested c :=
  Step.result_leave (parser c.enter)

theorem result_links {n : Nat} (previous : Clause) (c : Cursor) (h : c.remaining < n) :
    (c.links previous h).result = links previous c := by
  unfold links Cursor.links
  split
  · rfl
  · split <;> simp

theorem links_of_some {op : Comparison} (previous : Clause) (h : c.ahead = t :: rest)
    (ht : Comparison.ofKind? t.kind = some op) :
    links previous c =
      sum.nested.andThen (fun right => links (.chain previous op right)) (c.read t rest) := by
  rw [links, Cursor.links, Cursor.next?_cons h]
  simp only [ht, Step.result_widen]
  refine (Step.result_bind _ fun right => result_links (.chain previous op right)).trans ?_
  rw [result_nested]
  rfl

/-- Either a comparison comes next, or something else does. -/
theorem comparison_cases (c : Cursor) :
    (∃ t rest op, c.ahead = t :: rest ∧ Comparison.ofKind? t.kind = some op) ∨
      ∀ t ∈ c.ahead.head?, t.kind.isComparison = false := by
  refine (c.operator_cases Comparison.ofKind?).imp_right fun stop t ht => ?_
  rw [← Comparison.isSome_ofKind?, stop t ht, Option.isSome_none]

/-- A chain ends before the first token that is no comparison. -/
theorem links_of_not (previous : Clause)
    (h : ∀ t ∈ c.ahead.head?, t.kind.isComparison = false) :
    links previous c = .ok (previous, c) := by
  rw [links, Cursor.links]
  cases hc : c.ahead with
  | nil => simp [Cursor.next?_nil hc]
  | cons t rest =>
    have ht : Comparison.ofKind? t.kind = none := by
      rw [← Option.not_isSome_iff_eq_none, Comparison.isSome_ofKind?, h t (by simp [hc])]
      exact Bool.false_ne_true
    simp [Cursor.next?_cons hc, ht]

theorem clause_eq :
    clause = sum.nested.andThen fun left => comparison.andThen fun op =>
      sum.nested.andThen fun right => links (.compare left op right) := by
  funext c
  rw [clause, ofParser, Cursor.clause]
  refine (Step.result_andThen (fun left => comparison.andThen fun op =>
    sum.nested.andThen fun right => links (.compare left op right))
    fun left c₁ _ => Step.result_andThen (fun op =>
      sum.nested.andThen fun right => links (.compare left op right)) fun op c₂ _ => ?_).trans ?_
  · refine (Step.result_bind _ fun right => result_links (.compare left op right)).trans ?_
    rw [result_nested]
    rfl
  · rw [result_nested]
    rfl

theorem guardClauses_of_braceClose (h : c.ahead = t :: rest) (ht : t.kind = .braceClose) :
    guardClauses c = .error (.unexpectedToken t .guardClause) := by
  simp [guardClauses, ofParser, Cursor.guardClauses, Cursor.accept?_cons h ht]

theorem guardClauses_of_ne (h : c.peekKind? ≠ some .braceClose) :
    guardClauses c = items (·.clause) .braceClose c := by
  simp [guardClauses, ofParser, items, Cursor.guardClauses, Cursor.accept?_ne h]

/-! ## Declarations -/

/-- Accepts a declaration if no token is left. -/
def finish (d : Declaration) : Reader Declaration :=
  fun c => (c.finish (n := c.remaining + 1) d c.remaining_lt_succ).result

/-- What follows the body of a declaration that has no guard before its body. -/
def afterBody (name : Token) (params : List Token) (body : Expr) : Reader Declaration := fun c =>
  match c.accept? .braceOpen with
  | some t => guardClauses.andThen (fun clauses => finish { name, params, body, clauses }) t.rest
  | none => finish { name, params, body, clauses := [] } c

/-- What follows the equals sign of a declaration. -/
def definition (name : Token) (params : List Token) : Reader Declaration :=
  ofParser (·.definition name params)

def declaration : Reader Declaration := ofParser (·.declaration)

theorem result_finish {n : Nat} (d : Declaration) (c : Cursor) (h : c.remaining < n) :
    (c.finish d h).result = finish d c := by
  unfold finish Cursor.finish
  split
  · rfl
  · split <;> rfl

theorem finish_of_nil (d : Declaration) (h : c.ahead = []) : finish d c = .ok (d, c) := by
  simp [finish, Cursor.finish, Cursor.peek?, h]

theorem finish_of_braceOpen (d : Declaration) (h : c.ahead = t :: rest)
    (ht : t.kind = .braceOpen) : finish d c = .error (.duplicateGuard t) := by
  simp [finish, Cursor.finish, Cursor.peek?, h, ht]

theorem finish_of_ne (d : Declaration) (h : c.ahead = t :: rest) (ht : t.kind ≠ .braceOpen) :
    finish d c = .error (.trailingTokens t) := by
  simp [finish, Cursor.finish, Cursor.peek?, h, ht]

theorem afterBody_of_braceOpen (name : Token) (params : List Token) (body : Expr)
    (h : c.ahead = t :: rest) (ht : t.kind = .braceOpen) :
    afterBody name params body c =
      guardClauses.andThen (fun clauses => finish { name, params, body, clauses })
        (c.read t rest) := by
  rw [afterBody, Cursor.accept?_cons h ht]

theorem afterBody_of_ne (name : Token) (params : List Token) (body : Expr)
    (h : c.peekKind? ≠ some .braceOpen) :
    afterBody name params body c = finish { name, params, body, clauses := [] } c := by
  rw [afterBody, Cursor.accept?_ne h]

theorem definition_of_braceOpen (name : Token) (params : List Token) (h : c.ahead = t :: rest)
    (ht : t.kind = .braceOpen) :
    definition name params c =
      guardClauses.andThen (fun clauses => sum.andThen fun body =>
        finish { name, params, body, clauses }) (c.read t rest) := by
  rw [definition, ofParser, Cursor.definition, Cursor.guardBlock?, Cursor.accept?_cons h ht]
  refine (Step.result_andThen (fun clauses => sum.andThen fun body =>
    finish { name, params, body, clauses }) fun clauses c' _ =>
      Step.result_bind _ fun body => result_finish { name, params, body, clauses }).trans ?_
  rw [Step.result_widen]
  rfl

theorem definition_of_ne (name : Token) (params : List Token)
    (h : c.peekKind? ≠ some .braceOpen) :
    definition name params c = sum.andThen (afterBody name params) c := by
  rw [definition, ofParser, Cursor.definition, Cursor.guardBlock?, Cursor.accept?_ne h]
  refine Step.result_bind (afterBody name params) fun body c' _ => ?_
  rw [Cursor.guardBlock?, afterBody]
  cases c'.accept? .braceOpen with
  | none => exact result_finish _ _ _
  | some t =>
    refine (Step.result_widen _ _).trans ((Step.result_bind _ fun clauses =>
      result_finish { name, params, body, clauses }).trans ?_)
    rw [Step.result_widen]
    rfl

theorem declaration_eq :
    declaration = (expect .identifier).andThen fun name => (expect .parenOpen).andThen fun _ =>
      (commaList (·.expect .identifier) .parenClose).andThen fun params =>
        (expect .equal).andThen fun _ => definition name params := by
  funext c
  rw [declaration, ofParser, Cursor.declaration]
  refine Step.result_andThen (fun name => (expect .parenOpen).andThen fun _ =>
      (commaList (·.expect .identifier) .parenClose).andThen fun params =>
        (expect .equal).andThen fun _ => definition name params) fun name c₁ _ => ?_
  refine Step.result_andThen (fun _ => (commaList (·.expect .identifier) .parenClose).andThen
    fun params => (expect .equal).andThen fun _ => definition name params) fun _ c₂ _ => ?_
  refine Step.result_andThen (fun params => (expect .equal).andThen fun _ =>
    definition name params) fun params c₃ _ => ?_
  exact Step.result_andThen (fun _ => definition name params) fun _ _ _ => rfl

theorem parse_eq (tokens : List Token) :
    Declaration.parse tokens = (declaration (Cursor.start tokens)).map Prod.fst :=
  Step.outcome_eq_result _

end Formula.Reader

import Formula.Proofs.Reader.Declaration

/-!
# The calls of a parser

The parsers call each other. A call is a parser with the arguments and the cursor that it is given,
and the calls that it makes itself are listed here one by one, each under the conditions under which
it comes to that: the tokens that are next, and the results of the calls before it. A run is
whatever is reached from one call. The parsers of single tokens make no calls and are left out.

## Main definitions

* `Call` — a parser and where it is called.
* `Call.Makes` — the calls that a parser makes itself.

## Main statements

* `Call.wellFounded_makes` — no chain of calls goes on for ever.
-/

namespace Formula

inductive Call where
  | declaration (c : Cursor)
  /-- What stands after the equals sign of a declaration. -/
  | definition (name : Token) (params : List Token) (c : Cursor)
  | guardClauses (c : Cursor)
  /-- The clauses of a guard from one of them on. -/
  | clauses (c : Cursor)
  | clause (c : Cursor)
  | links (previous : Clause) (c : Cursor)
  | sum (c : Cursor)
  | sumTail (left : Expr) (c : Cursor)
  | product (c : Cursor)
  | productTail (left : Expr) (c : Cursor)
  | power (c : Cursor)
  | negation (c : Cursor)
  | factorial (c : Cursor)
  | primary (c : Cursor)
  | callArguments (name : Token) (variant : Option Expr) (c : Cursor)
  /-- The arguments of a call from one of them on. -/
  | arguments (c : Cursor)

namespace Call

inductive Makes : Call → Call → Prop where
  | definition {c c₁ c₂ c₃ c₄ name l params eq}
      (hname : Reader.expect .identifier c = .ok (name, c₁))
      (hl : Reader.expect .parenOpen c₁ = .ok (l, c₂))
      (hparams : Reader.commaList (·.expect .identifier) .parenClose c₂ = .ok (params, c₃))
      (heq : Reader.expect .equal c₃ = .ok (eq, c₄)) :
      Makes (.declaration c) (.definition name params c₄)
  | firstGuard {name params c t rest} (hc : c.ahead = t :: rest) (ht : t.kind = .braceOpen) :
      Makes (.definition name params c) (.guardClauses (c.read t rest))
  | bodyAfterGuard {name params c t rest clauses c'} (hc : c.ahead = t :: rest)
      (ht : t.kind = .braceOpen) (h : Reader.guardClauses (c.read t rest) = .ok (clauses, c')) :
      Makes (.definition name params c) (.sum c')
  | body {name params c} (hk : c.peekKind? ≠ some .braceOpen) :
      Makes (.definition name params c) (.sum c)
  | lastGuard {name params c body c' t rest} (hk : c.peekKind? ≠ some .braceOpen)
      (h : Reader.sum c = .ok (body, c')) (hc : c'.ahead = t :: rest) (ht : t.kind = .braceOpen) :
      Makes (.definition name params c) (.guardClauses (c'.read t rest))
  | clauses {c} (hk : c.peekKind? ≠ some .braceClose) : Makes (.guardClauses c) (.clauses c)
  | clause {c} : Makes (.clauses c) (.clause c)
  | moreClauses {c a c' t rest} (h : Reader.clause c = .ok (a, c')) (hc : c'.ahead = t :: rest)
      (ht : t.kind = .comma) : Makes (.clauses c) (.clauses (c'.read t rest))
  | leftSide {c} : Makes (.clause c) (.sum c.enter)
  | rightSide {c l c₁ op c₂} (hl : Reader.sum.nested c = .ok (l, c₁))
      (hop : Reader.comparison c₁ = .ok (op, c₂)) : Makes (.clause c) (.sum c₂.enter)
  | links {c l c₁ op c₂ r c₃} (hl : Reader.sum.nested c = .ok (l, c₁))
      (hop : Reader.comparison c₁ = .ok (op, c₂)) (hr : Reader.sum.nested c₂ = .ok (r, c₃)) :
      Makes (.clause c) (.links (.compare l op r) c₃)
  | linkSide {previous c t rest op} (hc : c.ahead = t :: rest)
      (ht : Comparison.ofKind? t.kind = some op) :
      Makes (.links previous c) (.sum (c.read t rest).enter)
  | moreLinks {previous c t rest op r c'} (hc : c.ahead = t :: rest)
      (ht : Comparison.ofKind? t.kind = some op)
      (hr : Reader.sum.nested (c.read t rest) = .ok (r, c')) :
      Makes (.links previous c) (.links (.chain previous op r) c')
  | firstTerm {c} : Makes (.sum c) (.product c)
  | terms {c l c'} (h : Reader.product c = .ok (l, c')) : Makes (.sum c) (.sumTail l c')
  | term {l c t rest op} (hc : c.ahead = t :: rest) (ht : BinaryOp.ofAdditive? t.kind = some op) :
      Makes (.sumTail l c) (.product (c.read t rest))
  | moreTerms {l c t rest op r c'} (hc : c.ahead = t :: rest)
      (ht : BinaryOp.ofAdditive? t.kind = some op)
      (h : Reader.product (c.read t rest) = .ok (r, c')) :
      Makes (.sumTail l c) (.sumTail (.binary op l r) c')
  | firstFactor {c} : Makes (.product c) (.power c)
  | factors {c l c'} (h : Reader.power c = .ok (l, c')) : Makes (.product c) (.productTail l c')
  | factor {l c t rest op} (hc : c.ahead = t :: rest)
      (ht : BinaryOp.ofMultiplicative? t.kind = some op) :
      Makes (.productTail l c) (.power (c.read t rest).enter)
  | moreFactors {l c t rest op r c'} (hc : c.ahead = t :: rest)
      (ht : BinaryOp.ofMultiplicative? t.kind = some op)
      (h : Reader.power.nested (c.read t rest) = .ok (r, c')) :
      Makes (.productTail l c) (.productTail (.binary op l r) c')
  /-- A factor without an operator before it. -/
  | juxtaposed {l c t rest} (hc : c.ahead = t :: rest)
      (ht : t.kind.startsImplicitOperand = true ∨ t.kind = .pipe ∧ c.absOpen = false)
      (hj : c.absOpen = true → c.justClosedAbs = false) :
      Makes (.productTail l c) (.power c)
  | moreAfterJuxtaposed {l c t rest r c'} (hc : c.ahead = t :: rest)
      (ht : t.kind.startsImplicitOperand = true ∨ t.kind = .pipe ∧ c.absOpen = false)
      (hj : c.absOpen = true → c.justClosedAbs = false) (h : Reader.power c = .ok (r, c')) :
      Makes (.productTail l c) (.productTail (.binary .mul l r) c')
  | base {c} : Makes (.power c) (.negation c)
  | exponent {c l c' t rest} (h : Reader.negation c = .ok (l, c')) (hc : c'.ahead = t :: rest)
      (ht : t.kind = .caret) : Makes (.power c) (.power (c'.read t rest).enter)
  | negated {c t rest} (hc : c.ahead = t :: rest) (ht : t.kind = .minus) :
      Makes (.negation c) (.negation (c.read t rest))
  | unsigned {c} (hk : c.peekKind? ≠ some .minus) : Makes (.negation c) (.factorial c)
  | operand {c} : Makes (.factorial c) (.primary c)
  | group {c t rest} (hc : c.ahead = t :: rest) (ht : t.kind = .parenOpen) :
      Makes (.primary c) (.sum (c.read t rest).enter)
  | abs {c t rest} (hc : c.ahead = t :: rest) (ht : t.kind = .pipe) (hm : c.mayOpenAbs = true) :
      Makes (.primary c) (.sum ((c.read t rest).setAbsOpen true))
  | subscript {c t u rest} (hc : c.ahead = t :: u :: rest) (ht : t.kind = .function)
      (hu : u.kind = .underscore) :
      Makes (.primary c) (.primary ((c.read t (u :: rest)).read u rest).enter)
  | subscriptedCall {c t u rest v c'} (hc : c.ahead = t :: u :: rest) (ht : t.kind = .function)
      (hu : u.kind = .underscore)
      (h : Reader.primary.nested ((c.read t (u :: rest)).read u rest) = .ok (v, c')) :
      Makes (.primary c) (.callArguments t (some v) c')
  | plainCall {c t rest} (hc : c.ahead = t :: rest) (ht : t.kind = .function)
      (hk : (c.read t rest).peekKind? ≠ some .underscore) :
      Makes (.primary c) (.callArguments t none (c.read t rest))
  | arguments {name variant c l c'} (hl : Reader.expect .parenOpen c = .ok (l, c'))
      (hk : c'.peekKind? ≠ some .parenClose) :
      Makes (.callArguments name variant c) (.arguments c')
  | argument {c} : Makes (.arguments c) (.sum c.enter)
  | moreArguments {c a c' t rest} (h : Reader.sum.nested c = .ok (a, c'))
      (hc : c'.ahead = t :: rest) (ht : t.kind = .comma) :
      Makes (.arguments c) (.arguments (c'.read t rest))

end Call

/-! ## Chains of calls -/

namespace Reader

variable {α : Type} {c c' : Cursor} {a : α}

theorem remaining_of_ofParser {parser : (c : Cursor) → Step c.remaining α}
    (h : ofParser parser c = .ok (a, c')) : c'.remaining < c.remaining := by
  obtain ⟨hok, rfl⟩ := Step.result_eq_ok_iff.1 h
  exact Step.remaining_rest_lt hok

theorem remaining_of_nested {parser : (c : Cursor) → Step c.remaining α}
    (h : (ofParser parser).nested c = .ok (a, c')) : c'.remaining < c.remaining := by
  obtain ⟨c₁, hr, rfl⟩ := nested_eq_ok h
  simpa using remaining_of_ofParser hr

end Reader

namespace Call

/-- The tokens that remain come first; among parsers at one place, what a parser calls there comes
after it. -/
def measure : Call → Nat
  | declaration c => 16 * c.remaining + 15
  | definition _ _ c => 16 * c.remaining + 14
  | guardClauses c => 16 * c.remaining + 13
  | clauses c => 16 * c.remaining + 12
  | clause c => 16 * c.remaining + 11
  | links _ c => 16 * c.remaining + 10
  | callArguments _ _ c => 16 * c.remaining + 9
  | arguments c => 16 * c.remaining + 8
  | sum c => 16 * c.remaining + 7
  | sumTail _ c => 16 * c.remaining + 6
  | product c => 16 * c.remaining + 5
  | productTail _ c => 16 * c.remaining + 4
  | power c => 16 * c.remaining + 3
  | negation c => 16 * c.remaining + 2
  | factorial c => 16 * c.remaining + 1
  | primary c => 16 * c.remaining

theorem Makes.measure_lt {a b : Call} (h : a.Makes b) : b.measure < a.measure := by
  cases h with
  | definition hname hl hparams heq =>
    have := Reader.remaining_of_ofParser hname
    have := Reader.remaining_of_ofParser hl
    have := Reader.remaining_of_ofParser hparams
    have := Reader.remaining_of_ofParser heq
    simp only [measure]
    omega
  | body | clauses | clause | leftSide | firstTerm | firstFactor | juxtaposed | base | unsigned
  | operand | argument =>
    simp only [measure, Cursor.remaining_enter]
    omega
  | firstGuard hc | linkSide hc | term hc | factor hc | negated hc | group hc | abs hc
  | plainCall hc =>
    have := Cursor.remaining_read hc
    simp only [measure, Cursor.remaining_enter, Cursor.remaining_setAbsOpen]
    omega
  | terms h | factors h | moreAfterJuxtaposed _ _ _ h | arguments h =>
    have := Reader.remaining_of_ofParser h
    simp only [measure]
    omega
  | bodyAfterGuard hc _ h | moreTerms hc _ h =>
    have := Cursor.remaining_read hc
    have := Reader.remaining_of_ofParser h
    simp only [measure]
    omega
  | lastGuard _ h hc | moreClauses h hc | exponent h hc =>
    have := Reader.remaining_of_ofParser h
    have := Cursor.remaining_read hc
    simp only [measure, Cursor.remaining_enter]
    omega
  | moreLinks hc _ h | moreFactors hc _ h =>
    have := Cursor.remaining_read hc
    have := Reader.remaining_of_nested h
    simp only [measure]
    omega
  | moreArguments h hc =>
    have := Reader.remaining_of_nested h
    have := Cursor.remaining_read hc
    simp only [measure]
    omega
  | rightSide hl hop =>
    have := Reader.remaining_of_nested hl
    have := Reader.remaining_of_ofParser hop
    simp only [measure, Cursor.remaining_enter]
    omega
  | links hl hop hr =>
    have := Reader.remaining_of_nested hl
    have := Reader.remaining_of_ofParser hop
    have := Reader.remaining_of_nested hr
    simp only [measure]
    omega
  | @subscript c t u rest hc =>
    have := Cursor.remaining_read hc
    have := Cursor.remaining_read (c := c.read t (u :: rest)) rfl
    simp only [measure, Cursor.remaining_enter]
    omega
  | @subscriptedCall c t u rest _ _ hc _ _ h =>
    have := Cursor.remaining_read hc
    have := Cursor.remaining_read (c := c.read t (u :: rest)) rfl
    have := Reader.remaining_of_nested h
    simp only [measure]
    omega

/-- No chain of calls goes on for ever. -/
theorem wellFounded_makes : WellFounded fun b a => Makes a b :=
  Subrelation.wf (fun h => h.measure_lt) (InvImage.wf measure Nat.lt_wfRel.wf)

end Call

end Formula

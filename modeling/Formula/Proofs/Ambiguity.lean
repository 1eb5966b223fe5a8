import Formula.Proofs.Parsing
import Formula.Proofs.Restoration
import Mathlib.Logic.Relation

/-!
# What is ambiguous

Two parsers can report an ambiguous absolute value: a product, at an operand right after a pipe that
closed one inside another, and an operand, at a pipe that might as well be a closing one. The second
never happens in a run that starts with a declaration. An operand is only looked for at a pipe where
nothing is open on the level, or right behind a pipe, a plus or a minus; this is kept by every call
that a parser makes.

## Main definitions

* `Call.Fails`, `Call.Rejects` — a call that ends in an error, and one that reports it itself.
* `Call.Valid` — what holds of every call of a run.

## Main statements

* `Call.Fails.exists_rejects` — an ambiguity is reported by one of the calls of a run.
* `Call.Makes.valid` — a valid call makes valid calls.
* `ambiguity_never_at_pipe` — the token that is reported, and the pipes that are not.
-/

namespace Formula

/-! ## Readers that report no ambiguity -/

namespace Reader

variable {α : Type} {c : Cursor} {t : Token}

theorem expect_ne_ambiguous (kind : TokenKind) (c : Cursor) (t : Token) :
    expect kind c ≠ .error (.ambiguousAbs t) := by
  intro h
  cases hc : c.ahead with
  | nil =>
    rw [expect_of_nil hc] at h
    cases h
  | cons s rest =>
    by_cases hs : s.kind = kind
    · rw [expect_of_kind hc hs] at h
      cases h
    · rw [expect_of_ne hc hs] at h
      cases h

theorem closeAbs_ne_ambiguous (c : Cursor) (t : Token) : closeAbs c ≠ .error (.ambiguousAbs t) := by
  intro h
  rw [closeAbs_eq] at h
  exact expect_ne_ambiguous .pipe c t (map_result_eq_error h)

theorem comparison_ne_ambiguous (c : Cursor) (t : Token) :
    comparison c ≠ .error (.ambiguousAbs t) := by
  intro h
  cases hc : c.ahead with
  | nil =>
    rw [comparison_of_nil hc] at h
    cases h
  | cons s rest =>
    cases hs : Comparison.ofKind? s.kind with
    | some op =>
      rw [comparison_of_some hc hs] at h
      cases h
    | none =>
      rw [comparison_of_none hc hs] at h
      cases h

theorem bangs_ne_ambiguous (operand : Expr) (c : Cursor) (t : Token) :
    bangs operand c ≠ .error (.ambiguousAbs t) := by
  obtain ⟨s, rest, hc, hs⟩ | hk := c.next_cases .bang
  · have := Cursor.remaining_read hc
    rw [bangs_of_bang operand hc hs]
    exact bangs_ne_ambiguous _ (c.read s rest) t
  · rw [bangs_of_ne operand hk]
    exact nofun
termination_by c.remaining

theorem finish_ne_ambiguous (d : Declaration) (c : Cursor) (t : Token) :
    finish d c ≠ .error (.ambiguousAbs t) := by
  intro h
  cases hc : c.ahead with
  | nil =>
    rw [finish_of_nil d hc] at h
    cases h
  | cons s rest =>
    by_cases hs : s.kind = .braceOpen
    · rw [finish_of_braceOpen d hc hs] at h
      cases h
    · rw [finish_of_ne d hc hs] at h
      cases h

section Lists

variable {item : (c : Cursor) → Step c.remaining α} {closing : TokenKind}

/-- An ambiguity in a list is one in an item. -/
theorem items_eq_ambiguous (h : items item closing c = .error (.ambiguousAbs t)) :
    ofParser item c = .error (.ambiguousAbs t) ∨
      ∃ a c' s rest, ofParser item c = .ok (a, c') ∧ c'.ahead = s :: rest ∧ s.kind = .comma ∧
        items item closing (c'.read s rest) = .error (.ambiguousAbs t) := by
  rw [items_eq] at h
  obtain h | ⟨a, c', ha, h⟩ := andThen_eq_error h
  · exact .inl h
  unfold afterItem at h
  split at h
  · cases h
  · next s rest hc =>
    split at h
    · next hs => exact .inr ⟨a, c', s, rest, ha, hc, hs, map_eq_error h⟩
    · split at h <;> cases h

theorem items_ne_ambiguous (hi : ∀ c t, ofParser item c ≠ .error (.ambiguousAbs t)) (c : Cursor)
    (t : Token) : items item closing c ≠ .error (.ambiguousAbs t) := by
  intro h
  obtain h | ⟨a, c', s, rest, ha, hc, -, h⟩ := items_eq_ambiguous h
  · exact hi c t h
  · have := remaining_of_ofParser ha
    have := Cursor.remaining_read hc
    exact items_ne_ambiguous hi (c'.read s rest) t h
termination_by c.remaining

theorem commaList_eq_ambiguous (h : commaList item closing c = .error (.ambiguousAbs t)) :
    c.peekKind? ≠ some closing ∧ items item closing c = .error (.ambiguousAbs t) := by
  obtain ⟨s, rest, hc, hs⟩ | hk := c.next_cases closing
  · rw [commaList_of_closing hc hs] at h
    cases h
  · rw [commaList_of_ne hk] at h
    exact ⟨hk, h⟩

end Lists

end Reader

/-! ## Where an ambiguity comes from -/

namespace Call

/-- The call ends in the error. -/
def Fails (e : ParseError) : Call → Prop
  | declaration c => Reader.declaration c = .error e
  | definition name params c => Reader.definition name params c = .error e
  | guardClauses c => Reader.guardClauses c = .error e
  | clauses c => Reader.items (·.clause) .braceClose c = .error e
  | clause c => Reader.clause c = .error e
  | links previous c => Reader.links previous c = .error e
  | sum c => Reader.sum c = .error e
  | sumTail left c => Reader.sumRest left c = .error e
  | product c => Reader.product c = .error e
  | productTail left c => Reader.productRest left c = .error e
  | power c => Reader.power c = .error e
  | negation c => Reader.negation c = .error e
  | factorial c => Reader.factorial c = .error e
  | primary c => Reader.primary c = .error e
  | callArguments name variant c => Reader.callArguments name variant c = .error e
  | arguments c => Reader.items Reader.argument .parenClose c = .error e

/-- The call reports the token as ambiguous itself. -/
inductive Rejects : Call → Token → Prop where
  | operand {l c t rest} (hc : c.ahead = t :: rest) (ht : t.kind.startsImplicitOperand = true)
      (ho : c.absOpen = true) (hj : c.justClosedAbs = true) : Rejects (.productTail l c) t
  | pipe {c t rest} (hc : c.ahead = t :: rest) (ht : t.kind = .pipe) (hm : c.mayOpenAbs = false) :
      Rejects (.primary c) t

/-- The call reports the ambiguity itself, or makes a call that ends in it. -/
def Traces (a : Call) (t : Token) : Prop :=
  a.Rejects t ∨ ∃ b, a.Makes b ∧ b.Fails (.ambiguousAbs t)

variable {c : Cursor} {t : Token}

theorem traces_declaration (h : (declaration c).Fails (.ambiguousAbs t)) :
    (declaration c).Traces t := by
  rw [Fails, Reader.declaration_eq] at h
  obtain h | ⟨name, c₁, hname, h⟩ := Reader.andThen_eq_error h
  · exact absurd h (Reader.expect_ne_ambiguous _ _ _)
  obtain h | ⟨l, c₂, hl, h⟩ := Reader.andThen_eq_error h
  · exact absurd h (Reader.expect_ne_ambiguous _ _ _)
  obtain h | ⟨params, c₃, hparams, h⟩ := Reader.andThen_eq_error h
  · exact absurd (Reader.commaList_eq_ambiguous h).2
      (Reader.items_ne_ambiguous (Reader.expect_ne_ambiguous _) _ _)
  obtain h | ⟨eq, c₄, heq, h⟩ := Reader.andThen_eq_error h
  · exact absurd h (Reader.expect_ne_ambiguous _ _ _)
  exact .inr ⟨_, .definition hname hl hparams heq, h⟩

theorem traces_definition {name : Token} {params : List Token}
    (h : (definition name params c).Fails (.ambiguousAbs t)) :
    (definition name params c).Traces t := by
  rw [Fails] at h
  obtain ⟨s, rest, hc, hs⟩ | hk := c.next_cases .braceOpen
  · rw [Reader.definition_of_braceOpen name params hc hs] at h
    obtain h | ⟨clauses, c₁, hclauses, h⟩ := Reader.andThen_eq_error h
    · exact .inr ⟨_, .firstGuard hc hs, h⟩
    obtain h | ⟨body, c₂, -, h⟩ := Reader.andThen_eq_error h
    · exact .inr ⟨_, .bodyAfterGuard hc hs hclauses, h⟩
    · exact absurd h (Reader.finish_ne_ambiguous _ _ _)
  · rw [Reader.definition_of_ne name params hk] at h
    obtain h | ⟨body, c₁, hbody, h⟩ := Reader.andThen_eq_error h
    · exact .inr ⟨_, .body hk, h⟩
    obtain ⟨s, rest, hc, hs⟩ | hk₁ := c₁.next_cases .braceOpen
    · rw [Reader.afterBody_of_braceOpen name params body hc hs] at h
      obtain h | ⟨clauses, c₂, -, h⟩ := Reader.andThen_eq_error h
      · exact .inr ⟨_, .lastGuard hk hbody hc hs, h⟩
      · exact absurd h (Reader.finish_ne_ambiguous _ _ _)
    · rw [Reader.afterBody_of_ne name params body hk₁] at h
      exact absurd h (Reader.finish_ne_ambiguous _ _ _)

theorem traces_guardClauses (h : (guardClauses c).Fails (.ambiguousAbs t)) :
    (guardClauses c).Traces t := by
  rw [Fails] at h
  obtain ⟨s, rest, hc, hs⟩ | hk := c.next_cases .braceClose
  · rw [Reader.guardClauses_of_braceClose hc hs] at h
    cases h
  · rw [Reader.guardClauses_of_ne hk] at h
    exact .inr ⟨_, .clauses hk, h⟩

theorem traces_clauses (h : (clauses c).Fails (.ambiguousAbs t)) : (clauses c).Traces t := by
  obtain h | ⟨a, c', s, rest, ha, hc, hs, h⟩ := Reader.items_eq_ambiguous h
  · exact .inr ⟨_, .clause, h⟩
  · exact .inr ⟨_, .moreClauses ha hc hs, h⟩

theorem traces_clause (h : (clause c).Fails (.ambiguousAbs t)) : (clause c).Traces t := by
  rw [Fails, Reader.clause_eq] at h
  obtain h | ⟨l, c₁, hl, h⟩ := Reader.andThen_eq_error h
  · exact .inr ⟨_, .leftSide, Reader.nested_eq_error h⟩
  obtain h | ⟨op, c₂, hop, h⟩ := Reader.andThen_eq_error h
  · exact absurd h (Reader.comparison_ne_ambiguous _ _)
  obtain h | ⟨r, c₃, hr, h⟩ := Reader.andThen_eq_error h
  · exact .inr ⟨_, .rightSide hl hop, Reader.nested_eq_error h⟩
  · exact .inr ⟨_, .links hl hop hr, h⟩

theorem traces_links {previous : Clause} (h : (links previous c).Fails (.ambiguousAbs t)) :
    (links previous c).Traces t := by
  rw [Fails] at h
  obtain ⟨s, rest, op, hc, hs⟩ | stop := Reader.comparison_cases c
  · rw [Reader.links_of_some previous hc hs] at h
    obtain h | ⟨r, c', hr, h⟩ := Reader.andThen_eq_error h
    · exact .inr ⟨_, .linkSide hc hs, Reader.nested_eq_error h⟩
    · exact .inr ⟨_, .moreLinks hc hs hr, h⟩
  · rw [Reader.links_of_not previous stop] at h
    cases h

theorem traces_sum (h : (sum c).Fails (.ambiguousAbs t)) : (sum c).Traces t := by
  rw [Fails, Reader.sum_eq] at h
  obtain h | ⟨l, c', hl, h⟩ := Reader.andThen_eq_error h
  · exact .inr ⟨_, .firstTerm, h⟩
  · exact .inr ⟨_, .terms hl, h⟩

theorem traces_sumTail {l : Expr} (h : (sumTail l c).Fails (.ambiguousAbs t)) :
    (sumTail l c).Traces t := by
  rw [Fails] at h
  obtain ⟨s, rest, op, hc, hs⟩ | stop := c.operator_cases BinaryOp.ofAdditive?
  · rw [Reader.sumRest_of_additive l hc hs] at h
    obtain h | ⟨r, c', hr, h⟩ := Reader.andThen_eq_error h
    · exact .inr ⟨_, .term hc hs, h⟩
    · exact .inr ⟨_, .moreTerms hc hs hr, h⟩
  · rw [Reader.sumRest_of_not l stop] at h
    cases h

theorem traces_product (h : (product c).Fails (.ambiguousAbs t)) : (product c).Traces t := by
  rw [Fails, Reader.product_eq] at h
  obtain h | ⟨l, c', hl, h⟩ := Reader.andThen_eq_error h
  · exact .inr ⟨_, .firstFactor, h⟩
  · exact .inr ⟨_, .factors hl, h⟩

theorem traces_productTail {l : Expr} (h : (productTail l c).Fails (.ambiguousAbs t)) :
    (productTail l c).Traces t := by
  rw [Fails] at h
  cases hc : c.ahead with
  | nil =>
    rw [Reader.productRest_of_not l (by simp [hc])] at h
    cases h
  | cons s rest =>
    cases hm : BinaryOp.ofMultiplicative? s.kind with
    | some op =>
      rw [Reader.productRest_of_multiplicative l hc hm] at h
      obtain h | ⟨r, c', hr, h⟩ := Reader.andThen_eq_error h
      · exact .inr ⟨_, .factor hc hm, Reader.nested_eq_error h⟩
      · exact .inr ⟨_, .moreFactors hc hm hr, h⟩
    | none =>
      by_cases start : s.kind.startsImplicitOperand = true ∨ s.kind = .pipe ∧ c.absOpen = false
      · by_cases apart : c.absOpen = true → c.justClosedAbs = false
        · rw [Reader.productRest_of_operand l hc start apart] at h
          obtain h | ⟨r, c', hr, h⟩ := Reader.andThen_eq_error h
          · exact .inr ⟨_, .juxtaposed hc start apart, h⟩
          · exact .inr ⟨_, .moreAfterJuxtaposed hc start apart hr, h⟩
        · obtain ⟨ho, hj⟩ : c.absOpen = true ∧ c.justClosedAbs = true := by simpa using apart
          have hs : s.kind.startsImplicitOperand = true := by simpa [ho] using start
          rw [Reader.productRest_of_ambiguous l hc hs ho hj] at h
          cases h
          exact .inl (.operand hc hs ho hj)
      · simp only [not_or, not_and, Bool.not_eq_true, Bool.not_eq_false] at start
        rw [Reader.productRest_of_not l (by simpa [hc] using ⟨hm, start⟩)] at h
        cases h

theorem traces_power (h : (power c).Fails (.ambiguousAbs t)) : (power c).Traces t := by
  rw [Fails, Reader.power_eq] at h
  obtain h | ⟨l, c', hl, h⟩ := Reader.andThen_eq_error h
  · exact .inr ⟨_, .base, h⟩
  obtain ⟨s, rest, hc, hs⟩ | hk := c'.next_cases .caret
  · rw [Reader.powerRest_of_caret l hc hs] at h
    exact .inr ⟨_, .exponent hl hc hs, Reader.nested_eq_error (Reader.map_eq_error h)⟩
  · rw [Reader.powerRest_of_ne l hk] at h
    cases h

theorem traces_negation (h : (negation c).Fails (.ambiguousAbs t)) : (negation c).Traces t := by
  rw [Fails] at h
  obtain ⟨s, rest, hc, hs⟩ | hk := c.next_cases .minus
  · rw [Reader.negation_of_minus hc hs] at h
    exact .inr ⟨_, .negated hc hs, Reader.map_eq_error h⟩
  · rw [Reader.negation_of_ne hk] at h
    exact .inr ⟨_, .unsigned hk, h⟩

theorem traces_factorial (h : (factorial c).Fails (.ambiguousAbs t)) :
    (factorial c).Traces t := by
  rw [Fails, Reader.factorial_eq] at h
  obtain h | ⟨l, c', -, h⟩ := Reader.andThen_eq_error h
  · exact .inr ⟨_, .operand, h⟩
  · exact absurd h (Reader.bangs_ne_ambiguous _ _ _)

theorem traces_function {s : Token} {rest : List Token} (hc : c.ahead = s :: rest)
    (hs : s.kind = .function) (h : (primary c).Fails (.ambiguousAbs t)) :
    (primary c).Traces t := by
  rw [Fails, Reader.primary_of_function hc hs] at h
  obtain ⟨u, rest', hrest, hu⟩ | hk := (c.read s rest).next_cases .underscore
  · obtain rfl : rest = u :: rest' := hrest
    rw [Reader.callRest_of_underscore s rfl hu] at h
    obtain h | ⟨v, c', hv, h⟩ := Reader.andThen_eq_error h
    · exact .inr ⟨_, .subscript hc hs hu, Reader.nested_eq_error h⟩
    · exact .inr ⟨_, .subscriptedCall hc hs hu hv, h⟩
  · rw [Reader.callRest_of_ne s hk] at h
    exact .inr ⟨_, .plainCall hc hs hk, h⟩

theorem traces_primary (h : (primary c).Fails (.ambiguousAbs t)) : (primary c).Traces t := by
  cases hc : c.ahead with
  | nil =>
    rw [Fails, Reader.primary_of_nil hc] at h
    cases h
  | cons s rest =>
    cases hs : s.kind
    case number | identifier | constant =>
      rw [Fails, Reader.primary_of_literal hc (by simp [hs])] at h
      cases h
    case parenOpen =>
      rw [Fails, Reader.primary_of_parenOpen hc hs] at h
      obtain h | ⟨l, c', -, h⟩ := Reader.andThen_eq_error h
      · exact .inr ⟨_, .group hc hs, Reader.nested_eq_error h⟩
      · exact absurd (Reader.map_eq_error h) (Reader.expect_ne_ambiguous _ _ _)
    case pipe =>
      cases hm : c.mayOpenAbs with
      | false =>
        rw [Fails, Reader.primary_of_ambiguous hc hs hm] at h
        cases h
        exact .inl (.pipe hc hs hm)
      | true =>
        rw [Fails, Reader.primary_of_pipe hc hs hm] at h
        obtain h | ⟨l, c', -, h⟩ := Reader.andThen_eq_error h
        · exact .inr ⟨_, .abs hc hs hm, Reader.insideAbs_eq_error h⟩
        · exact absurd (Reader.map_eq_error h) (Reader.closeAbs_ne_ambiguous _ _)
    case function => exact traces_function hc hs h
    all_goals
      rw [Fails, Reader.primary_of_other hc (by rw [hs]; rfl)] at h
      cases h

theorem traces_callArguments {name : Token} {variant : Option Expr}
    (h : (callArguments name variant c).Fails (.ambiguousAbs t)) :
    (callArguments name variant c).Traces t := by
  rw [Fails, Reader.callArguments_eq] at h
  obtain h | ⟨l, c', hl, h⟩ := Reader.andThen_eq_error h
  · exact absurd h (Reader.expect_ne_ambiguous _ _ _)
  obtain ⟨hk, h⟩ := Reader.commaList_eq_ambiguous (Reader.map_eq_error h)
  exact .inr ⟨_, .arguments hl hk, h⟩

theorem traces_arguments (h : (arguments c).Fails (.ambiguousAbs t)) :
    (arguments c).Traces t := by
  obtain h | ⟨a, c', s, rest, ha, hc, hs, h⟩ := Reader.items_eq_ambiguous h
  · rw [Reader.ofParser_argument] at h
    exact .inr ⟨_, .argument, Reader.nested_eq_error h⟩
  · rw [Reader.ofParser_argument] at ha
    exact .inr ⟨_, .moreArguments ha hc hs, h⟩

theorem Fails.traces {a : Call} (h : a.Fails (.ambiguousAbs t)) : a.Traces t := by
  cases a with
  | declaration => exact traces_declaration h
  | definition => exact traces_definition h
  | guardClauses => exact traces_guardClauses h
  | clauses => exact traces_clauses h
  | clause => exact traces_clause h
  | links => exact traces_links h
  | sum => exact traces_sum h
  | sumTail => exact traces_sumTail h
  | product => exact traces_product h
  | productTail => exact traces_productTail h
  | power => exact traces_power h
  | negation => exact traces_negation h
  | factorial => exact traces_factorial h
  | primary => exact traces_primary h
  | callArguments => exact traces_callArguments h
  | arguments => exact traces_arguments h

/-- An ambiguity is reported by one of the calls of a run. -/
theorem Fails.exists_rejects {a : Call} (h : a.Fails (.ambiguousAbs t)) :
    ∃ b, Relation.ReflTransGen Makes a b ∧ b.Rejects t := by
  induction a using wellFounded_makes.induction with
  | _ a ih =>
    obtain rejects | ⟨b, hb, hf⟩ := h.traces
    · exact ⟨a, .refl, rejects⟩
    · obtain ⟨b', reached, rejects⟩ := ih b hb hf
      exact ⟨b', .head hb reached, rejects⟩

end Call

/-! ## The calls of a run -/

/-- A cursor of a run over the given tokens. -/
structure Cursor.Tracks (ts : List Token) (c : Cursor) : Prop where
  tokens : c.tokens = ts
  marked : c.Marked

namespace Cursor.Tracks

variable {ts : List Token} {c c' : Cursor}

theorem start (ts : List Token) : (Cursor.start ts).Tracks ts :=
  ⟨rfl, fun _ hm => nomatch hm⟩

theorem settled (h : c.Tracks ts) : c.Settled :=
  h.marked.settled

theorem of_reaches (h : c.Tracks ts) (hr : c.Reaches c') : c'.Tracks ts :=
  ⟨hr.tokens_eq.trans h.tokens, hr.marked h.marked⟩

/-- A level more or less, or another flag, is all the same to the tokens and the mark. -/
theorem enter (h : c.Tracks ts) : c.enter.Tracks ts :=
  ⟨h.tokens, h.marked⟩

theorem setAbsOpen (h : c.Tracks ts) (isOpen : Bool) : (c.setAbsOpen isOpen).Tracks ts :=
  ⟨h.tokens, h.marked⟩

end Cursor.Tracks

namespace Reader

variable {α : Type} {c c' : Cursor} {a : α} {parser : (c : Cursor) → Step c.remaining α}

theorem reaches_of_ofParser (hp : ∀ c : Cursor, c.Reaches (parser c).rest)
    (h : ofParser parser c = .ok (a, c')) : c.Reaches c' := by
  obtain ⟨-, rfl⟩ := Step.result_eq_ok_iff.1 h
  exact hp c

theorem reaches_of_nested (hp : ∀ c : Cursor, c.Reaches (parser c).rest)
    (h : (ofParser parser).nested c = .ok (a, c')) : c.Reaches c' := by
  obtain ⟨c₁, inner, rfl⟩ := nested_eq_ok h
  exact (reaches_of_ofParser hp inner).leave

end Reader

namespace Call

/-- What holds of every call in a run over the given tokens. Outside of expressions no absolute
value is open, and where an expression or a part of one starts, a pipe may open one. -/
def Valid (ts : List Token) : Call → Prop
  | declaration c | definition _ _ c | guardClauses c | clauses c | clause c | links _ c =>
    c.Tracks ts ∧ c.absOpen = false
  | sum c | product c | power c | negation c | factorial c | primary c => c.Tracks ts ∧ c.Ready
  | sumTail _ c | productTail _ c | callArguments _ _ c | arguments c => c.Tracks ts

section Valid

open Cursor

variable {ts : List Token} {a b : Call}

/-- A valid call makes valid calls. -/
theorem Makes.valid (h : a.Makes b) (ha : a.Valid ts) : b.Valid ts := by
  cases h with
  | definition hname hl hparams heq =>
    have reached := (((Reader.reaches_of_ofParser (reaches_expect · _) hname).trans
      (Reader.reaches_of_ofParser (reaches_expect · _) hl)).trans
      (Reader.reaches_of_ofParser (fun c => reaches_commaList (fun c' _ => reaches_expect c' _) c _)
        hparams)).trans (Reader.reaches_of_ofParser (reaches_expect · _) heq)
    exact ⟨ha.1.of_reaches reached, reached.absOpen_eq.trans ha.2⟩
  | firstGuard hc => exact ⟨ha.1.of_reaches (.read hc), ha.2⟩
  | bodyAfterGuard hc _ h =>
    have reached := (Reaches.read hc).trans (Reader.reaches_of_ofParser reaches_guardClauses h)
    have tracks := ha.1.of_reaches reached
    exact ⟨tracks, tracks.settled.ready_of_closed (reached.absOpen_eq.trans ha.2)⟩
  | body => exact ⟨ha.1, ha.1.settled.ready_of_closed ha.2⟩
  | lastGuard _ h hc =>
    have reached := (Reader.reaches_of_ofParser reaches_sum h).trans (.read hc)
    exact ⟨ha.1.of_reaches reached, reached.absOpen_eq.trans ha.2⟩
  | clauses | clause | firstTerm | firstFactor | base | unsigned | operand => exact ha
  | moreClauses h hc =>
    have reached := (Reader.reaches_of_ofParser reaches_clause h).trans (.read hc)
    exact ⟨ha.1.of_reaches reached, reached.absOpen_eq.trans ha.2⟩
  | leftSide => exact ⟨ha.1.enter, ha.1.settled.ready_enter⟩
  | rightSide hl hop =>
    have tracks := ha.1.of_reaches ((Reader.reaches_of_nested reaches_sum hl).trans
      (Reader.reaches_of_ofParser reaches_comparison hop))
    exact ⟨tracks.enter, tracks.settled.ready_enter⟩
  | links hl hop hr =>
    have reached := ((Reader.reaches_of_nested reaches_sum hl).trans
      (Reader.reaches_of_ofParser reaches_comparison hop)).trans
      (Reader.reaches_of_nested reaches_sum hr)
    exact ⟨ha.1.of_reaches reached, reached.absOpen_eq.trans ha.2⟩
  | linkSide hc =>
    have tracks := ha.1.of_reaches (.read hc)
    exact ⟨tracks.enter, tracks.settled.ready_enter⟩
  | moreLinks hc _ hr =>
    have reached := (Reaches.read hc).trans (Reader.reaches_of_nested reaches_sum hr)
    exact ⟨ha.1.of_reaches reached, reached.absOpen_eq.trans ha.2⟩
  | terms h => exact ha.1.of_reaches (Reader.reaches_of_ofParser reaches_product h)
  | term hc ht =>
    have mark := ofAdditive?_eq_some_iff.1 ht
    exact ⟨ha.of_reaches (.read hc), ha.settled.ready_additive _ mark⟩
  | moreTerms hc _ h =>
    exact ha.of_reaches ((Reaches.read hc).trans (Reader.reaches_of_ofParser reaches_product h))
  | factors h => exact ha.1.of_reaches (Reader.reaches_of_ofParser reaches_power h)
  | factor hc =>
    have tracks := ha.of_reaches (.read hc)
    exact ⟨tracks.enter, tracks.settled.ready_enter⟩
  | moreFactors hc _ h =>
    exact ha.of_reaches ((Reaches.read hc).trans (Reader.reaches_of_nested reaches_power h))
  | juxtaposed hc ht => exact ⟨ha, ha.settled.ready_of_juxtaposed hc ht⟩
  | moreAfterJuxtaposed _ _ _ h =>
    exact ha.of_reaches (Reader.reaches_of_ofParser reaches_power h)
  | exponent h hc =>
    have tracks := ha.1.of_reaches
      ((Reader.reaches_of_ofParser reaches_negation h).trans (.read hc))
    exact ⟨tracks.enter, tracks.settled.ready_enter⟩
  | negated hc ht =>
    exact ⟨ha.1.of_reaches (.read hc), ha.1.settled.ready_read _ (.inr (.inr ht))⟩
  | group hc =>
    have tracks := ha.1.of_reaches (.read hc)
    exact ⟨tracks.enter, tracks.settled.ready_enter⟩
  | abs hc ht =>
    exact ⟨(ha.1.of_reaches (.read hc)).setAbsOpen true, .setAbsOpen_read ha.1.settled ht _⟩
  | subscript hc =>
    have tracks := ha.1.of_reaches ((Reaches.read hc).trans (.read rfl))
    exact ⟨tracks.enter, tracks.settled.ready_enter⟩
  | subscriptedCall hc _ _ h =>
    exact ha.1.of_reaches (((Reaches.read hc).trans (.read rfl)).trans
      (Reader.reaches_of_nested reaches_primary h))
  | plainCall hc => exact ha.1.of_reaches (.read hc)
  | arguments hl => exact ha.of_reaches (Reader.reaches_of_ofParser (reaches_expect · _) hl)
  | argument => exact ⟨ha.enter, ha.settled.ready_enter⟩
  | moreArguments h hc =>
    exact ha.of_reaches ((Reader.reaches_of_nested reaches_sum h).trans (.read hc))

/-- Every call of a run over the tokens of a declaration is valid. -/
theorem valid_of_run (h : Relation.ReflTransGen Makes (.declaration (.start ts)) a) :
    a.Valid ts := by
  induction h with
  | refl => exact ⟨.start ts, rfl⟩
  | tail _ made ih => exact made.valid ih

/-- The token that a valid call reports comes right after a pipe. -/
theorem Rejects.split {t : Token} (h : a.Rejects t) (ha : a.Valid ts) :
    ∃ before p rest, ts = before ++ p :: t :: rest ∧ p.kind = .pipe ∧
      t.kind.startsImplicitOperand = true := by
  cases h with
  | @operand l c t rest hc ht ho hj =>
    have hclosing : c.closing = some { position := c.position, depth := c.depth } := by
      simpa [justClosedAbs] using hj
    obtain ⟨p, hp, hpipe⟩ := (ha.marked _ hclosing).2 rfl
    obtain ⟨before, hbehind⟩ := List.head?_eq_some_iff.1 hp
    refine ⟨before.reverse, p, rest, ?_, hpipe, ht⟩
    rw [← ha.tokens, tokens, hbehind, hc]
    simp
  | pipe hc ht hm =>
    have opens := ha.2.opens (by rw [peekKind?_cons hc, ht])
    rw [hm] at opens
    cases opens

end Valid

end Call

/-- What an ambiguity is about. The token reported is an operand right after a pipe; and an operand
that is looked for at a pipe may open an absolute value there, since if one is already open on its
level then a pipe, a plus or a minus has just been read. -/
theorem ambiguity_never_at_pipe (ts : List Token) :
    (∀ t, Declaration.parse ts = .error (.ambiguousAbs t) →
      ∃ i, 1 ≤ i ∧ ts[i]? = some t ∧
        (t.kind = .number ∨ t.kind = .identifier ∨ t.kind = .constant ∨ t.kind = .parenOpen ∨
          t.kind = .function) ∧
        ∃ p, ts[i - 1]? = some p ∧ p.kind = .pipe) ∧
    ∀ c, Relation.ReflTransGen Call.Makes (.declaration (.start ts)) (.primary c) →
      c.peekKind? = some .pipe →
      c.mayOpenAbs = true ∧
        (c.absOpen = true →
          ∃ p ∈ c.previous?, p.kind = .pipe ∨ p.kind = .plus ∨ p.kind = .minus) := by
  constructor
  · intro t ht
    have failed : (Call.declaration (.start ts)).Fails (.ambiguousAbs t) := parse_eq_error_iff.1 ht
    obtain ⟨a, run, rejects⟩ := failed.exists_rejects
    obtain ⟨before, p, rest, rfl, hpipe, hstart⟩ := rejects.split (Call.valid_of_run run)
    refine ⟨before.length + 1, by omega, by simp, ?_, p, by simp, hpipe⟩
    cases hk : t.kind <;> simp_all [TokenKind.startsImplicitOperand]
  · intro c run hk
    have opens := (Call.valid_of_run run).2.opens hk
    refine ⟨opens, fun ho => ?_⟩
    simpa [Cursor.mayOpenAbs, ho, Option.any_eq_true, or_assoc] using opens

/-- An expression that has no sign starts with an operand. -/
theorem Call.operand_of_sum {c : Cursor} (hk : c.peekKind? ≠ some .minus) :
    Relation.ReflTransGen Makes (.sum c) (.primary c) :=
  .head .firstTerm (.head .firstFactor (.head .base (.head (.unsigned hk) (.single .operand))))

/-- The operand after the inner absolute value is reported, although a pipe was allowed to open that
one inside the outer one. -/
theorem ambiguity_never_at_pipe_inside_abs :
    (∃ i p, operandAfterInnerAbs[i]? = some (.ofKind .number) ∧
      operandAfterInnerAbs[i - 1]? = some p ∧ p.kind = .pipe) ∧
    ∃ c, Relation.ReflTransGen Call.Makes (.declaration (.start operandAfterInnerAbs))
        (.primary c) ∧
      c.peekKind? = some .pipe ∧ c.absOpen = true ∧ c.mayOpenAbs = true := by
  obtain ⟨reported, opening⟩ := ambiguity_never_at_pipe operandAfterInnerAbs
  have rejected : Declaration.parse operandAfterInnerAbs =
      .error (.ambiguousAbs (.ofKind .number)) := by with_unfolding_all rfl
  obtain ⟨i, -, hi, -, p, hp, hpipe⟩ := reported _ rejected
  have body : Relation.ReflTransGen Call.Makes (.declaration (.start operandAfterInnerAbs))
      (.sum _) :=
    .head (.definition (Reader.expect_of_kind rfl rfl) (Reader.expect_of_kind rfl rfl)
      (Reader.commaList_of_closing rfl rfl) (Reader.expect_of_kind rfl rfl))
      (.single (.body nofun))
  have outer := (body.trans (Call.operand_of_sum nofun)).tail (.abs rfl rfl rfl)
  have inner := outer.trans (Call.operand_of_sum nofun)
  exact ⟨⟨i, p, hi, hp, hpipe⟩, _, inner, rfl, rfl, (opening _ inner rfl).1⟩

end Formula

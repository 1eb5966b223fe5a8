import Formula.Proofs.Completeness.Expr
import Formula.Proofs.Reader.Declaration

/-!
# Every declaration is read

Clauses, guards and declarations are read as the grammar has them. A side of a comparison is read on
a level of its own, so nothing is asked of the cursor but that its closing mark lies behind it.
-/

namespace Formula

open Category

variable {c : Cursor} {t l r : Token} {ts gs hs rest : List Token}

/-- A comma ends every expression, and so do the closing tokens of lists and comparisons. -/
theorem Category.stops_sum_of_kind
    (h : t.kind = .comma ∨ t.kind = .parenClose ∨ t.kind = .braceClose ∨ t.kind = .braceOpen ∨
      t.kind.isComparison = true) : sum.Stops false (t :: rest) := by
  refine stops_cons ?_
  cases hk : t.kind <;> simp_all [extendedBy, BinaryOp.ofMultiplicative?, BinaryOp.ofAdditive?,
    BinaryOp.ofKind?, TokenKind.startsImplicitOperand, TokenKind.isComparison]

/-- A list is read if its items are. -/
theorem Separated.reads {α : Type} {Item : List Token → α → Prop} {closing : TokenKind}
    {as : List α} (item : (c : Cursor) → Step c.remaining α)
    (hitem : ∀ ts a, Item ts a → ∀ c t rest, c.ahead = ts ++ t :: rest →
      t.kind = .comma ∨ t.kind = closing → c.Settled →
      ∃ c', Reader.ofParser item c = .ok (a, c') ∧ c.Moves ts c' ∧ c'.Settled)
    (hne : closing ≠ .comma) (h : Separated Item ts as) (hr : r.kind = closing)
    (hc : c.ahead = ts ++ r :: rest) (settled : c.Settled) :
    ∃ c', Reader.items item closing c = .ok (as, c') ∧ c.Moves (ts ++ [r]) c' ∧ c'.Settled := by
  induction h generalizing c with
  | one first =>
    obtain ⟨c₁, hi, hm, hs⟩ := hitem _ _ first c r rest hc (.inr hr) settled
    have hr' : c₁.ahead = r :: rest := hm.ahead_eq hc
    exact ⟨c₁.read r rest, Reader.items_of_closing hi hr' hr hne,
      hm.trans (Cursor.moves_read hr'), (hs.rests_read r rest).settled⟩
  | @more s ts us a as first comma _ ih =>
    have hc' : c.ahead = ts ++ s :: (us ++ r :: rest) := by simpa using hc
    obtain ⟨c₁, hi, hm, hs⟩ := hitem _ _ first c s _ hc' (.inl comma) settled
    have hs' : c₁.ahead = s :: (us ++ r :: rest) := hm.ahead_eq hc'
    obtain ⟨c₂, ho, hm', hs₂⟩ := ih (c := c₁.read s (us ++ r :: rest)) rfl
      (hs.rests_read _ _).settled
    refine ⟨c₂, Reader.items_of_comma hi hs' comma ho, ?_, hs₂⟩
    simpa using hm.trans (.cons hs' hm')

theorem Separated.starts {α : Type} {Item : List Token → α → Prop} {P : TokenKind → Prop}
    {as : List α} (hitem : ∀ ts a, Item ts a → ∃ t rest, ts = t :: rest ∧ P t.kind)
    (h : Separated Item ts as) : ∃ t rest, ts = t :: rest ∧ P t.kind := by
  cases h with
  | one first => exact hitem _ _ first
  | more first =>
    obtain ⟨t, rest, rfl, ht⟩ := hitem _ _ first
    exact ⟨t, _, rfl, ht⟩

/-! ## Guards -/

theorem Phrase.nested_reads {b : Bool} {e : Expr} (h : Phrase .sum false b ts e)
    (hc : c.ahead = ts ++ rest) (settled : c.Settled) (hs : sum.Stops false rest) :
    ∃ c', Reader.sum.nested c = .ok (e, c') ∧ c.Moves ts c' ∧ c'.Rests false :=
  (Arrives.sum h.reads).nested hc settled hs

theorem ClausePhrase.reads {clause : Clause} (h : ClausePhrase ts clause)
    (hc : c.ahead = ts ++ rest) (settled : c.Settled) (hs : sum.Stops false rest) :
    ∃ c', Reader.clause c = Reader.links clause c' ∧ c.Moves ts c' ∧ c'.Settled := by
  induction h generalizing rest with
  | @compare _ _ t ts us op _ _ left mark right =>
    have hc' : c.ahead = ts ++ t :: (us ++ rest) := by simpa using hc
    obtain ⟨c₁, hl, hm, hb⟩ := left.nested_reads hc' settled
      (stops_sum_of_kind (by simp [mark.isComparison]))
    have ht : c₁.ahead = t :: (us ++ rest) := hm.ahead_eq hc'
    obtain ⟨c₂, hr, hm', hb'⟩ := right.nested_reads (c := c₁.read t (us ++ rest)) rfl
      (hb.settled.rests_read _ _).settled hs
    refine ⟨c₂, ?_, hm.trans (.cons ht hm'), hb'.settled⟩
    rw [Reader.clause_eq, Reader.andThen_ok hl,
      Reader.andThen_ok (Reader.comparison_of_some ht (ofKind?_eq_some_iff.2 mark)),
      Reader.andThen_ok hr]
  | @chain _ t ts us op clause _ _ mark right ih =>
    have hc' : c.ahead = ts ++ t :: (us ++ rest) := by simpa using hc
    obtain ⟨c₁, hl, hm, hs₁⟩ := ih hc' (stops_sum_of_kind (by simp [mark.isComparison]))
    have ht : c₁.ahead = t :: (us ++ rest) := hm.ahead_eq hc'
    obtain ⟨c₂, hr, hm', hb'⟩ := right.nested_reads (c := c₁.read t (us ++ rest)) rfl
      (hs₁.rests_read _ _).settled hs
    refine ⟨c₂, ?_, hm.trans (.cons ht hm'), hb'.settled⟩
    rw [hl, Reader.links_of_some clause ht (ofKind?_eq_some_iff.2 mark), Reader.andThen_ok hr]

/-- A clause of a guard is read up to the token that ends it. -/
theorem ClausePhrase.reads_item {clause : Clause} (h : ClausePhrase ts clause)
    (hc : c.ahead = ts ++ t :: rest) (ht : t.kind = .comma ∨ t.kind = .braceClose)
    (settled : c.Settled) :
    ∃ c', Reader.clause c = .ok (clause, c') ∧ c.Moves ts c' ∧ c'.Settled := by
  have stops : sum.Stops false (t :: rest) :=
    stops_sum_of_kind (by rcases ht with ht | ht <;> simp [ht])
  obtain ⟨c', hr, hm, hs⟩ := h.reads hc settled stops
  refine ⟨c', hr.trans (Reader.links_of_not clause ?_), hm, hs⟩
  rw [hm.ahead_eq hc]
  rintro t' ht'
  cases ht'
  rcases ht with ht | ht <;> rw [ht] <;> rfl

theorem ClausePhrase.starts {clause : Clause} (h : ClausePhrase ts clause) :
    ∃ t rest, ts = t :: rest ∧ Category.sum.startsWith t.kind = true := by
  induction h with
  | compare left =>
    obtain ⟨t, rest, rfl, ht⟩ := left.starts
    exact ⟨t, _, rfl, ht⟩
  | chain _ _ _ ih =>
    obtain ⟨t, rest, rfl, ht⟩ := ih
    exact ⟨t, _, rfl, ht⟩

theorem GuardPhrase.reads {clauses : List Clause} (h : GuardPhrase gs clauses)
    (hc : c.ahead = gs ++ rest) (settled : c.Settled) :
    ∃ t k c', c.ahead = t :: k ∧ t.kind = .braceOpen ∧
      Reader.guardClauses (c.read t k) = .ok (clauses, c') ∧ c.Moves gs c' ∧ c'.Settled := by
  obtain @⟨l, r, ts, cs, left, list, right⟩ := h
  have hc' : c.ahead = l :: (ts ++ r :: rest) := by simpa using hc
  obtain ⟨c₁, hi, hm, hs⟩ := list.reads (·.clause) (c := c.read l (ts ++ r :: rest))
    (fun ts clause h c t rest hc ht settled => h.reads_item hc ht settled) (by decide) right rfl
    (settled.rests_read _ _).settled
  obtain ⟨t, us, rfl, ht⟩ := list.starts (P := fun kind => Category.sum.startsWith kind = true)
    fun _ _ clause => clause.starts
  have hne : (c.read l (t :: us ++ r :: rest)).peekKind? ≠ some .braceClose := by
    rw [Cursor.peekKind?_cons rfl]
    rintro hk
    simp [Option.some.inj hk, startsWith, TokenKind.startsOperand] at ht
  exact ⟨l, _, c₁, hc', left, (Reader.guardClauses_of_ne hne).trans hi, .cons hc' hm, hs⟩

/-! ## Declarations -/

theorem ParameterPhrase.reads_item (h : ParameterPhrase ts t) (hc : c.ahead = ts ++ rest)
    (settled : c.Settled) :
    ∃ c', Reader.expect .identifier c = .ok (t, c') ∧ c.Moves ts c' ∧ c'.Settled := by
  obtain ⟨rfl, ht⟩ := h
  exact ⟨c.read t rest, Reader.expect_of_kind hc ht, Cursor.moves_read hc,
    (settled.rests_read t rest).settled⟩

/-- The parameters of a header, with the parentheses around them. -/
theorem HeaderPhrase.reads {name : Token} {params : List Token}
    (h : HeaderPhrase hs name params) (hc : c.ahead = hs ++ rest) (settled : c.Settled) :
    ∃ c', Reader.declaration c = Reader.definition name params c' ∧ c.Moves hs c' ∧
      c'.Settled := by
  cases h with
  | @constant _ l r eq kind left right equal =>
    have s₁ := (settled.rests_read name (l :: r :: eq :: rest)).settled
    have s₂ := (s₁.rests_read l (r :: eq :: rest)).settled
    have s₃ := (s₂.rests_read r (eq :: rest)).settled
    refine ⟨_, ?_, .cons hc (.cons rfl (.cons rfl (Cursor.moves_read rfl))),
      (s₃.rests_read eq rest).settled⟩
    rw [Reader.declaration_eq, Reader.andThen_ok (Reader.expect_of_kind hc kind),
      Reader.andThen_ok (Reader.expect_of_kind rfl left),
      Reader.andThen_ok (Reader.commaList_of_closing rfl right),
      Reader.andThen_ok (Reader.expect_of_kind rfl equal)]
  | @function _ l r eq ts params kind left list right equal =>
    have hc' : c.ahead = name :: l :: (ts ++ r :: eq :: rest) := by simpa using hc
    have s₁ := (settled.rests_read name (l :: (ts ++ r :: eq :: rest))).settled
    have s₂ := (s₁.rests_read l (ts ++ r :: eq :: rest)).settled
    obtain ⟨c₁, hi, hm, hs⟩ := list.reads (·.expect .identifier)
      (fun ts param h c t rest hc _ settled => h.reads_item hc settled) (by decide) right rfl s₂
    obtain ⟨t, us, rfl, ht⟩ := list.starts (P := fun kind => kind = .identifier)
      fun _ _ param => ⟨_, _, param.1, param.2⟩
    have hne : ((c.read name (l :: (t :: us ++ r :: eq :: rest))).read l
        (t :: us ++ r :: eq :: rest)).peekKind? ≠ some .parenClose := by
      rw [Cursor.peekKind?_cons rfl, ht]
      decide
    have he : c₁.ahead = eq :: rest := by
      refine hm.ahead_eq ?_
      simp [Cursor.read]
    refine ⟨c₁.read eq rest, ?_, ?_, (hs.rests_read eq rest).settled⟩
    · rw [Reader.declaration_eq, Reader.andThen_ok (Reader.expect_of_kind hc' kind),
        Reader.andThen_ok (Reader.expect_of_kind rfl left),
        Reader.andThen_ok ((Reader.commaList_of_ne hne).trans hi),
        Reader.andThen_ok (Reader.expect_of_kind he equal)]
    · simpa using Cursor.Moves.cons hc' (.cons rfl (hm.trans (Cursor.moves_read he)))

/-- The body of a declaration is read on the outermost level. -/
theorem Phrase.body_reads {b : Bool} {body : Expr} (h : Phrase .sum false b ts body)
    (hc : c.ahead = ts ++ rest) (ho : c.absOpen = false) (settled : c.Settled)
    (hs : sum.Stops false rest) :
    ∃ c', Reader.sum c = .ok (body, c') ∧ c.Moves ts c' ∧ c'.Settled := by
  obtain ⟨c', hr, hm, hb⟩ := Arrives.sum h.reads c rest hc ho (settled.ready_of_closed ho) hs
  exact ⟨c', hr, hm, hb.settled⟩

theorem Phrase.peekKind?_ne_braceOpen {b : Bool} {body : Expr} (h : Phrase .sum false b ts body)
    (hc : c.ahead = ts ++ rest) : c.peekKind? ≠ some .braceOpen := by
  obtain ⟨t, us, rfl, ht⟩ := h.starts
  rw [Cursor.peekKind?_cons hc]
  rintro hk
  simp [Option.some.inj hk, startsWith, TokenKind.startsOperand] at ht

theorem DeclarationPhrase.reads {d : Declaration} (h : DeclarationPhrase ts d) :
    ∃ c', Reader.declaration (Cursor.start ts) = .ok (d, c') := by
  have settled : (Cursor.start ts).Settled := by
    rintro m hm
    cases hm
  have stops : sum.Stops false [] := by
    rintro t ht
    cases ht
  cases h with
  | @total _ hs ts params name body header expr =>
    obtain ⟨c₁, hd, hm, hs₁⟩ := header.reads rfl settled
    have hc₁ : c₁.ahead = ts ++ [] := by simpa using hm.ahead_eq rfl
    obtain ⟨c₂, hb, hm', _⟩ := expr.body_reads hc₁ hm.absOpen hs₁ stops
    have hc₂ : c₂.ahead = [] := hm'.ahead_eq hc₁
    have hne : c₂.peekKind? ≠ some .braceOpen := by simp [Cursor.peekKind?, Cursor.peek?, hc₂]
    refine ⟨c₂, ?_⟩
    rw [hd, Reader.definition_of_ne name params (expr.peekKind?_ne_braceOpen hc₁),
      Reader.andThen_ok hb, Reader.afterBody_of_ne name params body hne,
      Reader.finish_of_nil _ hc₂]
  | @guardFirst _ hs gs ts params name body clauses header block expr =>
    obtain ⟨c₁, hd, hm, hs₁⟩ := header.reads rfl settled
    have hc₁ : c₁.ahead = gs ++ ts := hm.ahead_eq rfl
    obtain ⟨t, k, c₂, ht, hk, hg, hm₂, hs₂⟩ := block.reads hc₁ hs₁
    have hc₂ : c₂.ahead = ts ++ [] := by simpa using hm₂.ahead_eq hc₁
    obtain ⟨c₃, hb, hm₃, _⟩ := expr.body_reads hc₂ (hm₂.absOpen.trans hm.absOpen) hs₂ stops
    refine ⟨c₃, ?_⟩
    rw [hd, Reader.definition_of_braceOpen name params ht hk, Reader.andThen_ok hg,
      Reader.andThen_ok hb, Reader.finish_of_nil _ (hm₃.ahead_eq hc₂)]
  | @guardLast _ hs gs ts params name body clauses header expr block =>
    obtain ⟨c₁, hd, hm, hs₁⟩ := header.reads rfl settled
    have hc₁ : c₁.ahead = ts ++ gs := hm.ahead_eq rfl
    have stops' : sum.Stops false gs := by
      obtain ⟨left, _, _⟩ := block
      exact stops_sum_of_kind (by simp [left])
    obtain ⟨c₂, hb, hm₂, hs₂⟩ := expr.body_reads hc₁ hm.absOpen hs₁ stops'
    have hc₂ : c₂.ahead = gs ++ [] := by simpa using hm₂.ahead_eq hc₁
    obtain ⟨t, k, c₃, ht, hk, hg, hm₃, _⟩ := block.reads hc₂ hs₂
    refine ⟨c₃, ?_⟩
    rw [hd, Reader.definition_of_ne name params (expr.peekKind?_ne_braceOpen hc₁),
      Reader.andThen_ok hb, Reader.afterBody_of_braceOpen name params body ht hk,
      Reader.andThen_ok hg, Reader.finish_of_nil _ (hm₃.ahead_eq hc₂)]

end Formula

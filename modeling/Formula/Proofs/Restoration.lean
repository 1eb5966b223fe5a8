import Formula.Proofs.Calls
import Formula.Proofs.Progress

/-!
# What a parser leaves behind

A parser sets the flag of its level by hand, enters levels and leaves them, and may fail anywhere in
between. Whether it succeeds or fails, the levels and their flags are afterwards what they were, the
tokens are the same, and the cursor has not gone back. The proofs follow the recursion of the
parsers, with the same measures.

## Main definitions

* `Cursor.Reaches` — what every parser does to a cursor.
* `Step.Restores` — the same for the result of a parser, with the progress of a success.

## Main statements

* `Cursor.reaches_sum`, `Cursor.reaches_declaration` — it is what the parsers do.
* `parsers_restore_levels` — all parsers restore the levels, make progress and come to an end.
-/

namespace Formula

namespace Cursor

/-- All tokens, those already read included. -/
def tokens (c : Cursor) : List Token :=
  c.behind.reverse ++ c.ahead

/-- The flags of all nesting levels, the current one first. -/
def levels (c : Cursor) : List Bool :=
  c.absOpen :: c.outer

/-- The mark of the last closing pipe is not ahead of the cursor, and a mark at the cursor is that
of the token just read. -/
def Marked (c : Cursor) : Prop :=
  ∀ m ∈ c.closing, m.position ≤ c.position ∧
    (m.position = c.position → ∃ t ∈ c.previous?, t.kind = .pipe)

/-- From one cursor to another that is not before it, with the same levels, and with a mark that is
as good as it was. -/
structure Reaches (c c' : Cursor) : Prop where
  moves : ∃ ts, c.Moves ts c'
  marked : c.Marked → c'.Marked

variable {c c' c'' : Cursor} {t : Token} {rest : List Token}

theorem Marked.settled (h : c.Marked) : c.Settled :=
  fun m hm => (h m hm).1

theorem Marked.read (h : c.Marked) (t : Token) (rest : List Token) : (c.read t rest).Marked := by
  intro m hm
  have hle := (h m hm).1
  have hposition : (c.read t rest).position = c.position + 1 := rfl
  exact ⟨by omega, fun heq => by omega⟩

theorem marked_markClosing (h : ∃ t ∈ c.previous?, t.kind = .pipe) : c.markClosing.Marked := by
  rintro m ⟨⟩
  exact ⟨Nat.le_refl _, fun _ => h⟩

theorem Marked.leave (h : c.Marked) : c.leave.Marked := by
  unfold Cursor.leave
  split <;> exact h

/-! ## Reaching -/

namespace Reaches

theorem refl (c : Cursor) : c.Reaches c :=
  ⟨⟨[], .refl c⟩, id⟩

theorem trans (h : c.Reaches c') (g : c'.Reaches c'') : c.Reaches c'' := by
  obtain ⟨ts, hts⟩ := h.moves
  obtain ⟨us, hus⟩ := g.moves
  exact ⟨⟨ts ++ us, hts.trans hus⟩, fun hm => g.marked (h.marked hm)⟩

theorem read (h : c.ahead = t :: rest) : c.Reaches (c.read t rest) :=
  ⟨⟨[t], moves_read h⟩, fun hm => hm.read t rest⟩

theorem leave (h : c.enter.Reaches c') : c.Reaches c'.leave := by
  obtain ⟨ts, hts⟩ := h.moves
  exact ⟨⟨ts, hts.leave⟩, fun hm => (h.marked hm).leave⟩

theorem setAbsOpen {isOpen : Bool} (h : (c.setAbsOpen isOpen).Reaches c') :
    c.Reaches (c'.setAbsOpen c.absOpen) := by
  obtain ⟨ts, hts⟩ := h.moves
  exact ⟨⟨ts, hts.setAbsOpen⟩, h.marked⟩

theorem tokens_eq (h : c.Reaches c') : c'.tokens = c.tokens := by
  obtain ⟨ts, hts⟩ := h.moves
  simp [tokens, hts.behind, hts.ahead]

theorem levels_eq (h : c.Reaches c') : c'.levels = c.levels := by
  obtain ⟨ts, hts⟩ := h.moves
  rw [levels, levels, hts.absOpen, hts.outer]

theorem absOpen_eq (h : c.Reaches c') : c'.absOpen = c.absOpen := by
  obtain ⟨ts, hts⟩ := h.moves
  exact hts.absOpen

end Reaches

theorem reaches_next {taken : Taken c} (h : c.next? = some taken) : c.Reaches taken.rest := by
  cases hc : c.ahead with
  | nil =>
    rw [next?_nil hc] at h
    cases h
  | cons t rest =>
    rw [next?_cons hc] at h
    cases h
    exact .read hc

theorem reaches_accept {taken : Taken c} {kind : TokenKind} (h : c.accept? kind = some taken) :
    c.Reaches taken.rest :=
  reaches_next (Option.filter_eq_some_iff.1 h).1

end Cursor

/-! ## Combining parsers -/

namespace Step

variable {α β : Type} {n : Nat} {c : Cursor}

theorem reaches_widen {m : Nat} {s : Step m α} (hmn : m ≤ n) (h : c.Reaches s.rest) :
    c.Reaches (s.widen hmn).rest := by
  cases s <;> exact h

theorem reaches_map {s : Step n α} (f : α → β) (h : c.Reaches s.rest) :
    c.Reaches (s.map f).rest := by
  cases s <;> exact h

theorem reaches_bind {s : Step n α} {f : (a : α) → (c : Cursor) → c.remaining < n → Step n β}
    (h : c.Reaches s.rest) (hf : ∀ a (c' : Cursor) hc, c'.Reaches (f a c' hc).rest) :
    c.Reaches (s.bind f).rest := by
  cases s with
  | done value rest shorter => exact h.trans (hf value rest shorter)
  | fault error rest within => exact h

theorem reaches_andThen {s : Step n α}
    {f : (a : α) → (c : Cursor) → c.remaining < n → Step c.remaining β}
    (h : c.Reaches s.rest) (hf : ∀ a (c' : Cursor) hc, c'.Reaches (f a c' hc).rest) :
    c.Reaches (s.andThen f).rest :=
  reaches_bind h fun a c' hc => reaches_widen _ (hf a c' hc)

theorem reaches_leave {s : Step n α} (h : c.enter.Reaches s.rest) : c.Reaches s.leave.rest := by
  rw [rest_leave]
  exact h.leave

theorem reaches_setAbsOpen {s : Step n α} {isOpen : Bool}
    (h : (c.setAbsOpen isOpen).Reaches s.rest) : c.Reaches (s.setAbsOpen c.absOpen).rest := by
  rw [rest_setAbsOpen]
  exact h.setAbsOpen

end Step

namespace Cursor

/-! ## Tokens and lists -/

theorem reaches_expect (c : Cursor) (kind : TokenKind) : c.Reaches (c.expect kind).rest := by
  unfold expect
  split
  · exact .refl c
  · next taken h =>
    split
    · exact reaches_next h
    · exact .refl c

theorem reaches_closeAbs (c : Cursor) : c.Reaches c.closeAbs.rest := by
  cases hc : c.ahead with
  | nil =>
    simp only [closeAbs, expect, next?_nil hc]
    exact .refl c
  | cons t rest =>
    by_cases ht : t.kind = .pipe
    · simp only [closeAbs, expect, next?_cons hc, ht, if_true]
      have moves := moves_read hc
      exact ⟨⟨[t], moves.behind, moves.ahead, moves.absOpen, moves.outer⟩,
        fun _ => marked_markClosing ⟨t, rfl, ht⟩⟩
    · simp only [closeAbs, expect, next?_cons hc, ht, if_false]
      exact .refl c

section Lists

variable {α : Type} {n : Nat} {item : (c : Cursor) → c.remaining ≤ n → Step c.remaining α}
  {closing : TokenKind}

theorem reaches_items (hi : ∀ (c : Cursor) h, c.Reaches (item c h).rest) (c : Cursor)
    (h : c.remaining ≤ n) :
    c.Reaches (items item closing c h).rest := by
  rw [items]
  refine Step.reaches_andThen (hi c h) fun value rest hr => ?_
  split
  · exact .refl rest
  · next taken ht =>
    have := taken.shorter
    refine (reaches_next ht).trans ?_
    split
    · exact Step.reaches_widen _ (Step.reaches_map _ (reaches_items hi taken.rest _))
    · split <;> exact .refl taken.rest
termination_by c.remaining

theorem reaches_commaList (hi : ∀ (c : Cursor) h, c.Reaches (item c h).rest) (c : Cursor)
    (h : c.remaining ≤ n) : c.Reaches (commaList item closing c h).rest := by
  unfold commaList
  split
  · next taken ht => exact reaches_accept ht
  · exact reaches_items hi c h

end Lists

/-! ## Expressions -/

theorem reaches_bangs {n : Nat} (operand : Expr) (c : Cursor) (h : c.remaining < n) :
    c.Reaches (bangs operand c h).rest := by
  rw [bangs]
  split
  · next taken ht =>
    have := taken.shorter
    exact (reaches_accept ht).trans (reaches_bangs _ taken.rest _)
  · exact .refl c
termination_by c.remaining

mutual

theorem reaches_sum (c : Cursor) : c.Reaches c.sum.rest := by
  rw [sum]
  exact Step.reaches_bind (reaches_product c) fun left rest _ => reaches_sumTail left rest _
termination_by 8 * c.remaining + 7

theorem reaches_sumTail {n : Nat} (left : Expr) (c : Cursor) (h : c.remaining < n) :
    c.Reaches (c.sumTail left h).rest := by
  rw [sumTail]
  split
  · exact .refl c
  · next taken ht =>
    have := taken.shorter
    split
    · exact .refl c
    · refine (reaches_next ht).trans (Step.reaches_widen _ ?_)
      exact Step.reaches_bind (reaches_product taken.rest) fun right rest _ =>
        reaches_sumTail _ rest _
termination_by 8 * c.remaining + 6

theorem reaches_product (c : Cursor) : c.Reaches c.product.rest := by
  rw [product]
  exact Step.reaches_bind (reaches_power c) fun left rest _ => reaches_productTail left rest _
termination_by 8 * c.remaining + 5

theorem reaches_productTail {n : Nat} (left : Expr) (c : Cursor) (h : c.remaining < n) :
    c.Reaches (c.productTail left h).rest := by
  rw [productTail]
  split
  · exact .refl c
  · next taken ht =>
    have := taken.shorter
    split
    · refine (reaches_next ht).trans (Step.reaches_widen _ ?_)
      refine Step.reaches_bind (Step.reaches_leave (reaches_power taken.rest.enter)) ?_
      intro right rest hr
      have shorter : rest.remaining < taken.rest.remaining := hr
      exact reaches_productTail _ rest _
    · split
      · exact .refl c
      · split
        · refine Step.reaches_widen _ (Step.reaches_bind (reaches_power c) ?_)
          exact fun right rest _ => reaches_productTail _ rest _
        · exact .refl c
termination_by 8 * c.remaining + 4

theorem reaches_power (c : Cursor) : c.Reaches c.power.rest := by
  rw [power]
  refine Step.reaches_bind (reaches_negation c) fun base rest _ => ?_
  split
  · exact .refl rest
  · next taken ht =>
    have := taken.shorter
    refine (reaches_accept ht).trans (Step.reaches_widen _ (Step.reaches_map _ ?_))
    exact Step.reaches_leave (reaches_power taken.rest.enter)
termination_by 8 * c.remaining + 3

theorem reaches_negation (c : Cursor) : c.Reaches c.negation.rest := by
  rw [negation]
  split
  · next taken ht =>
    have := taken.shorter
    refine (reaches_accept ht).trans (Step.reaches_widen _ (Step.reaches_map _ ?_))
    exact reaches_negation taken.rest
  · exact reaches_factorial c
termination_by 8 * c.remaining + 2

theorem reaches_factorial (c : Cursor) : c.Reaches c.factorial.rest := by
  rw [factorial]
  exact Step.reaches_bind (reaches_primary c) fun operand rest _ => reaches_bangs operand rest _
termination_by 8 * c.remaining + 1

theorem reaches_primary (c : Cursor) : c.Reaches c.primary.rest := by
  rw [primary]
  split
  · exact .refl c
  · next taken ht =>
    have := taken.shorter
    have reached := reaches_next ht
    split
    · exact reached
    · exact reached
    · exact reached
    · -- a group: its level is left again, whatever happens on it
      refine reached.trans (Step.reaches_widen _ ?_)
      refine Step.reaches_andThen (Step.reaches_leave (reaches_sum taken.rest.enter)) ?_
      exact fun inner rest _ => Step.reaches_map _ (reaches_expect rest _)
    · split
      · -- an absolute value: the flag is set back to what it was before the pipe
        rw [← reached.absOpen_eq]
        refine reached.trans (Step.reaches_widen _ (Step.reaches_andThen
          (Step.reaches_setAbsOpen (reaches_sum (taken.rest.setAbsOpen true))) ?_))
        exact fun inner rest _ => Step.reaches_map _ (reaches_closeAbs rest)
      · exact .refl c
    · refine reached.trans (Step.reaches_widen _ ?_)
      split
      · next mark hmark =>
        have := mark.shorter
        refine (reaches_accept hmark).trans (Step.reaches_widen _ ?_)
        refine Step.reaches_andThen (Step.reaches_leave (reaches_primary mark.rest.enter)) ?_
        intro variant rest hr
        have shorter : rest.remaining < mark.rest.remaining := hr
        exact reaches_callArguments _ _ rest
      · exact reaches_callArguments _ _ taken.rest
    · exact .refl c
termination_by 8 * c.remaining

theorem reaches_callArguments (name : Token) (variant : Option Expr) (c : Cursor) :
    c.Reaches (c.callArguments name variant).rest := by
  rw [callArguments]
  refine Step.reaches_andThen (reaches_expect c _) fun _ rest _ => Step.reaches_map _ ?_
  exact reaches_commaList (fun c' _ => Step.reaches_leave (reaches_sum c'.enter)) rest _
termination_by 8 * c.remaining

end

/-! ## Declarations -/

theorem reaches_nested (c : Cursor) : c.Reaches (c.nested sum).rest :=
  Step.reaches_leave (reaches_sum c.enter)

theorem reaches_comparison (c : Cursor) : c.Reaches c.comparison.rest := by
  unfold comparison
  split
  · exact .refl c
  · next taken ht => split <;> exact reaches_next ht

theorem reaches_links {n : Nat} (clause : Clause) (c : Cursor) (h : c.remaining < n) :
    c.Reaches (c.links clause h).rest := by
  rw [links]
  split
  · exact .refl c
  · next taken ht =>
    have := taken.shorter
    split
    · exact .refl c
    · refine (reaches_next ht).trans (Step.reaches_widen _ ?_)
      exact Step.reaches_bind (reaches_nested taken.rest) fun right rest _ =>
        reaches_links _ rest _
termination_by c.remaining

theorem reaches_clause (c : Cursor) : c.Reaches c.clause.rest := by
  refine Step.reaches_andThen (reaches_nested c) fun left c₁ _ => ?_
  refine Step.reaches_andThen (reaches_comparison c₁) fun op c₂ _ => ?_
  exact Step.reaches_bind (reaches_nested c₂) fun right c₃ _ => reaches_links _ c₃ _

theorem reaches_guardClauses (c : Cursor) : c.Reaches c.guardClauses.rest := by
  unfold guardClauses
  split
  · next taken ht => exact reaches_accept ht
  · exact reaches_items (fun c' _ => reaches_clause c') c _

theorem reaches_guardBlock {c : Cursor} {block : Step c.remaining (List Clause)}
    (h : c.guardBlock? = some block) : c.Reaches block.rest := by
  obtain ⟨taken, ht, rfl⟩ := Option.map_eq_some_iff.1 h
  exact (reaches_accept ht).trans (Step.reaches_widen _ (reaches_guardClauses taken.rest))

theorem reaches_finish {n : Nat} (d : Declaration) (c : Cursor) (h : c.remaining < n) :
    c.Reaches (c.finish d h).rest := by
  unfold finish
  split
  · exact .refl c
  · split <;> exact .refl c

theorem reaches_definition (name : Token) (params : List Token) (c : Cursor) :
    c.Reaches (c.definition name params).rest := by
  unfold definition
  split
  · next block hblock =>
    refine Step.reaches_andThen (reaches_guardBlock hblock) fun clauses c₁ _ => ?_
    exact Step.reaches_bind (reaches_sum c₁) fun body c₂ _ => reaches_finish _ c₂ _
  · refine Step.reaches_bind (reaches_sum c) fun body c₁ _ => ?_
    split
    · next block hblock =>
      refine Step.reaches_widen _ (Step.reaches_bind (reaches_guardBlock hblock) ?_)
      exact fun clauses c₂ _ => reaches_finish _ c₂ _
    · exact reaches_finish _ c₁ _

theorem reaches_declaration (c : Cursor) : c.Reaches c.declaration.rest := by
  refine Step.reaches_andThen (reaches_expect c _) fun name c₁ _ => ?_
  refine Step.reaches_andThen (reaches_expect c₁ _) fun _ c₂ _ => ?_
  refine Step.reaches_andThen (reaches_commaList (fun c' _ => reaches_expect c' _) c₂ _)
    fun params c₃ _ => ?_
  exact Step.reaches_andThen (reaches_expect c₃ _) fun _ c₄ _ => reaches_definition name params c₄

end Cursor

/-! ## Levels and progress -/

/-- What a parser called at `c` leaves behind: the tokens and the flags of all levels as they were,
and a cursor that is not before `c` and not behind the last token; after a success it is past
`c`. -/
structure Step.Restores {α : Type} (c : Cursor) (s : Step c.remaining α) : Prop where
  tokens : s.rest.tokens = c.tokens
  levels : s.rest.levels = c.levels
  position_le : c.position ≤ s.rest.position
  position_le_length : s.rest.position ≤ c.tokens.length
  progress : ∀ a, s.outcome = .ok a → c.position < s.rest.position

theorem Cursor.length_tokens (c : Cursor) : c.tokens.length = c.position + c.remaining := by
  simp [tokens, position, remaining]

/-- The bounds of a step are about the tokens that remain, and the tokens read make up for them. -/
theorem Step.restores_of_reaches {α : Type} {c : Cursor} {s : Step c.remaining α}
    (h : c.Reaches s.rest) : s.Restores c := by
  have htokens := h.tokens_eq
  have hlength : s.rest.position + s.rest.remaining = c.position + c.remaining := by
    rw [← Cursor.length_tokens, ← Cursor.length_tokens, htokens]
  have hremaining := s.remaining_rest_le
  refine ⟨htokens, h.levels_eq, by omega, by rw [c.length_tokens]; omega, fun a ha => ?_⟩
  have hshorter := Step.remaining_rest_lt ha
  omega

/-- Every parser, called anywhere and with any flags set, restores the levels and makes progress,
and the calls it makes come to an end. -/
theorem parsers_restore_levels (c : Cursor) :
    c.declaration.Restores c ∧ c.sum.Restores c ∧ c.product.Restores c ∧ c.power.Restores c ∧
      c.negation.Restores c ∧ c.factorial.Restores c ∧ c.primary.Restores c ∧
      WellFounded fun b a => Call.Makes a b :=
  ⟨Step.restores_of_reaches c.reaches_declaration, Step.restores_of_reaches c.reaches_sum,
    Step.restores_of_reaches c.reaches_product, Step.restores_of_reaches c.reaches_power,
    Step.restores_of_reaches c.reaches_negation, Step.restores_of_reaches c.reaches_factorial,
    Step.restores_of_reaches c.reaches_primary, Call.wellFounded_makes⟩

end Formula

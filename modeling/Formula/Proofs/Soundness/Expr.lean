import Formula.Proofs.Follows

/-!
# Readers of expressions follow the grammar

Each reader of an expression reads phrases of its category only, and its errors are at the first
token that no phrase has. The readers call each other, so everything is shown for cursors with
fewer tokens ahead first; a loop, such as `Reader.sumRest`, extends a phrase that has been read.
-/

namespace Formula

theorem Phrase.sum_number (o : Bool) :
    Phrase .sum o false [.ofKind .number] (.literal (.ofKind .number)) :=
  (Phrase.literal (.inl rfl)).power_of_primary.sum_of_power

theorem Phrase.exists_of_startsOperand {t : Token} (h : t.kind.startsOperand = true) (o : Bool) :
    ∃ us b e, Phrase .primary o b (t :: us) e := by
  cases hk : t.kind <;> simp only [hk, TokenKind.startsOperand, Bool.false_eq_true] at h
  case number | identifier | constant => exact ⟨_, _, _, .literal (by simp [hk])⟩
  case parenOpen => exact ⟨_, _, _, .group (r := .ofKind .parenClose) hk (sum_number _) rfl⟩
  case pipe => exact ⟨_, _, _, .abs (r := .ofKind .pipe) hk (sum_number _) rfl⟩
  case function =>
    exact ⟨_, _, _, .call (l := .ofKind .parenOpen) (r := .ofKind .parenClose) (.callee hk) rfl rfl⟩

namespace Reader

/-- Every reader of expressions follows the phrases of its category. -/
structure ExprFollows (c : Cursor) : Prop where
  sum : sum.Follows (Phrase .sum c.absOpen) c
  product : product.Follows (Phrase .product c.absOpen) c
  power : power.Follows (Phrase .power c.absOpen) c
  negation : negation.Follows (Phrase .negation c.absOpen) c
  primary : primary.Follows (Phrase .primary c.absOpen) c

/-- The readers follow the grammar at cursors with fewer tokens ahead. -/
def ExprFollowsBelow (n : Nat) : Prop :=
  ∀ c : Cursor, c.Ready → c.remaining < n → ExprFollows c

variable {c : Cursor} {t : Token} {rest : List Token} {n : Nat}

/-! ## Operands -/

theorem follows_arguments {o : Bool} {f : Token} {v : Option Expr} {hs : List Token}
    (below : ExprFollowsBelow n) (settled : c.Settled) (hn : c.remaining < n)
    (callee : Phrase .callee o false hs (.call f v [])) :
    (callArguments f v).Follows (fun b ts e => Phrase .primary o b (hs ++ ts) e) c := by
  rw [callArguments_eq]
  refine (Follows.expect settled .parenOpen).andThen ?_ ?_
  · rintro b _ l c' hm hb ⟨-, rfl, hl⟩
    have item (c₁ : Cursor) (hs : c₁.Settled) (hle : c₁.remaining ≤ c'.remaining) :
        (ofParser argument).Follows (fun _ ts e => ∃ b, Phrase .sum false b ts e) c₁ := by
      have hlt : c₁.remaining < n :=
        Nat.lt_of_le_of_lt (Nat.le_trans hle hm.remaining_le) hn
      rw [ofParser_argument]
      exact (Follows.nested (below c₁.enter hs.ready_enter hlt).sum).imp fun _ _ _ h => h.2
    refine (Follows.commaList (by decide) hb.settled item).map.imp ?_
    rintro b ts e ⟨es, ⟨rfl, ⟨r, rfl, hr, rfl⟩ | ⟨us, r, rfl, hr, list⟩⟩, rfl⟩
    · exact .call callee hl hr
    · obtain ⟨b, arguments⟩ := list.arguments f v
      exact .apply callee hl arguments hr
  · rintro b _ l ⟨-, rfl, hl⟩
    exact ⟨false, [.ofKind .parenClose], _, .call callee hl rfl⟩

theorem follows_call (below : ExprFollowsBelow n) (settled : c.Settled) (hn : c.remaining < n)
    {o : Bool} (hf : t.kind = .function) :
    (callRest t).Follows (fun b ts e => Phrase .primary o b (t :: ts) e) c := by
  obtain ⟨u, rest, hc, hu⟩ | hk := c.next_cases .underscore
  · have hs := (settled.rests_read u rest).settled
    have hlt := Nat.lt_trans (Cursor.remaining_read hc) hn
    refine .token _ hc (fun rest => callRest_of_underscore t rfl hu) ?_
    refine (Follows.nested (below _ hs.ready_enter hlt).primary).andThen ?_ ?_
    · rintro b ts v c' hm hb ⟨-, b', variant⟩
      exact follows_arguments below hb.settled (Nat.lt_of_le_of_lt hm.remaining_le hlt)
        (.subscript hf hu variant)
    · rintro b ts v ⟨-, b', variant⟩
      exact ⟨_, [.ofKind .parenOpen, .ofKind .parenClose], _,
        .call (.subscript hf hu variant) rfl rfl⟩
  · exact (follows_arguments below settled hn (.callee hf)).congr fun rest hrest =>
      callRest_of_ne t (by rwa [Cursor.peekKind?_withAhead hrest])

theorem follows_primary (below : ExprFollowsBelow c.remaining) (ready : c.Ready) :
    primary.Follows (Phrase .primary c.absOpen) c := by
  have number : Phrase .primary c.absOpen false [.ofKind .number] (.literal (.ofKind .number)) :=
    .literal (.inl rfl)
  cases hc : c.ahead with
  | nil => exact .error_of_nil hc (primary_of_nil rfl) rfl number
  | cons t rest =>
    have hs := (ready.settled.rests_read t rest).settled
    have hlt := Cursor.remaining_read hc
    cases hk : t.kind
    case number | identifier | constant =>
      exact .token (pure (.literal t)) hc (fun rest => primary_of_literal rfl (by simp [hk]))
        (.pure (ready.settled.rests_read t rest) (.literal (by simp [hk])))
    case parenOpen =>
      refine .token _ hc (fun rest => primary_of_parenOpen rfl hk) ?_
      refine (Follows.nested (below _ hs.ready_enter hlt).sum).andThen ?_ ?_
      · rintro b ts e c' hm hb ⟨-, b', inner⟩
        refine (Follows.expect hb.settled .parenClose).map.imp ?_
        rintro _ us _ ⟨r, ⟨rfl, rfl, hr⟩, rfl⟩
        exact .group hk inner hr
      · rintro b ts e ⟨-, b', inner⟩
        exact ⟨_, [.ofKind .parenClose], _, .group hk inner rfl⟩
    case pipe =>
      have hm := ready.opens (by rw [Cursor.peekKind?_cons hc, hk])
      refine .token _ hc (fun rest => primary_of_pipe rfl hk hm) ?_
      refine (Follows.insideAbs (below _ (.setAbsOpen_read ready.settled hk rest) hlt).sum).andThen
        ?_ ?_
      · intro b ts e c' hm hb inner
        refine (Follows.closeAbs hb.settled).map.imp ?_
        rintro _ us _ ⟨r, ⟨rfl, rfl, hr⟩, rfl⟩
        exact .abs hk inner hr
      · intro b ts e inner
        exact ⟨_, [.ofKind .pipe], _, .abs hk inner rfl⟩
    case function =>
      exact .token _ hc (fun rest => primary_of_function rfl hk) (follows_call below hs hlt hk)
    all_goals
      exact .error_of_cons hc (fun rest => primary_of_other rfl (by rw [hk]; rfl)) rfl number

/-! ## Operators -/

theorem follows_bangs {c : Cursor} {o b : Bool} {ts : List Token} {e : Expr} (hb : c.Rests b)
    (operand : Phrase .factorial o b ts e) :
    (bangs e).Follows (fun b us e => Phrase .factorial o b (ts ++ us) e) c := by
  obtain ⟨t, rest, hc, ht⟩ | hk := c.next_cases .bang
  · have smaller := Cursor.remaining_read hc
    refine .token _ hc (fun rest => bangs_of_bang e rfl ht) ?_
    refine (follows_bangs (hb.settled.rests_read t rest) (.bang operand ht)).imp ?_
    intro b us e phrase
    rwa [List.append_assoc] at phrase
  · refine (Follows.pure (a := e) hb ?_).congr fun rest hrest =>
      bangs_of_ne e (by rwa [Cursor.peekKind?_withAhead hrest])
    rwa [List.append_nil]
termination_by c.remaining

theorem follows_factorial (h : primary.Follows (Phrase .primary c.absOpen) c) :
    factorial.Follows (Phrase .factorial c.absOpen) c := by
  rw [factorial_eq]
  refine h.andThen ?_ ?_
  · intro b ts e c' hm hb phrase
    exact follows_bangs hb (.ofPrimary phrase)
  · intro b ts e phrase
    exact ⟨b, [], e, by rw [List.append_nil]; exact .ofPrimary phrase⟩

theorem follows_negation (below : ExprFollowsBelow c.remaining) (ready : c.Ready)
    (h : factorial.Follows (Phrase .factorial c.absOpen) c) :
    negation.Follows (Phrase .negation c.absOpen) c := by
  obtain ⟨t, rest, hc, ht⟩ | hk := c.next_cases .minus
  · refine .token _ hc (fun rest => negation_of_minus rfl ht) ?_
    have hr : (c.read t rest).Ready := ready.settled.ready_read rest (.inr (.inr ht))
    refine (below _ hr (Cursor.remaining_read hc)).negation.map.imp ?_
    rintro b ts _ ⟨e, phrase, rfl⟩
    exact .negate ht phrase
  · exact (h.imp fun _ _ _ => .ofFactorial).congr fun rest hrest =>
      negation_of_ne (by rwa [Cursor.peekKind?_withAhead hrest])

theorem follows_power (below : ExprFollowsBelow c.remaining)
    (h : negation.Follows (Phrase .negation c.absOpen) c) :
    power.Follows (Phrase .power c.absOpen) c := by
  rw [power_eq]
  refine h.andThen ?_ ?_
  · intro b ts e c' hm hb base
    obtain ⟨t, rest, hc, ht⟩ | hk := c'.next_cases .caret
    · refine .token _ hc (fun rest => powerRest_of_caret e rfl ht) ?_
      have hr := (hb.settled.rests_read t rest).settled.ready_enter
      have hlt := Nat.lt_of_lt_of_le (Cursor.remaining_read hc) hm.remaining_le
      refine (Follows.nested (below _ hr hlt).power).map.imp ?_
      rintro _ us _ ⟨r, ⟨rfl, b', exponent⟩, rfl⟩
      exact .raise base ht exponent
    · refine (Follows.pure (a := e) hb ?_).congr fun rest hrest =>
        powerRest_of_ne e (by rwa [Cursor.peekKind?_withAhead hrest])
      rw [List.append_nil]
      exact .ofNegation base
  · intro b ts e base
    exact ⟨b, [], e, by rw [List.append_nil]; exact .ofNegation base⟩

/-- The operand that starts with the next token, juxtaposed to a product. -/
theorem follows_juxtaposed (below : ExprFollowsBelow n) (hn : c.remaining < n) {b : Bool}
    {ts : List Token} {l : Expr} (hb : c.Rests b) (left : Phrase .product c.absOpen b ts l)
    (hc : c.ahead = t :: rest) (apart : c.absOpen = true → b = false)
    (start : t.kind.startsImplicitOperand = true ∨ t.kind = .pipe ∧ c.absOpen = false) :
    power.Follows (fun b us r => Phrase .power c.absOpen b us r ∧
      Phrase .product c.absOpen b (ts ++ us) (.binary .mul l r)) c := by
  have ready := hb.settled.ready_of_juxtaposed hc start
  have operand : t.kind.startsOperand = true := by
    rcases start with ht | ⟨ht, -⟩
    · cases hk : t.kind <;> simp_all [TokenKind.startsOperand, TokenKind.startsImplicitOperand]
    · rw [ht]; rfl
  obtain ⟨us, b', r, phrase⟩ := Phrase.exists_of_startsOperand operand c.absOpen
  refine ((below c ready hn).power.starting hc (fun _ _ _ h => h.ne_nil)
    phrase.power_of_primary).imp ?_
  rintro b' us r ⟨right, hus⟩
  obtain ⟨us', rfl⟩ := List.head?_eq_some_iff.1 hus
  exact ⟨right, .juxtapose left apart (unmarkedStart_iff.2 start) right⟩

theorem follows_productRest {c : Cursor} (below : ExprFollowsBelow n) (hn : c.remaining < n)
    {o b : Bool} {ts : List Token} {l : Expr} (ho : c.absOpen = o) (hb : c.Rests b)
    (left : Phrase .product o b ts l) :
    (productRest l).Follows (fun b us e => Phrase .product o b (ts ++ us) e) c := by
  subst ho
  have done : Phrase .product c.absOpen b (ts ++ []) l := by rwa [List.append_nil]
  cases hc : c.ahead with
  | nil =>
    refine (Follows.pure (a := l) hb done).congr fun rest hrest => productRest_of_not l ?_
    simp_all [Cursor.withAhead]
  | cons t rest =>
    have hlt := Cursor.remaining_read hc
    cases hm : BinaryOp.ofMultiplicative? t.kind with
    | some op =>
      have mark := ofMultiplicative?_eq_some_iff.1 hm
      refine .token _ hc (fun rest => productRest_of_multiplicative l rfl hm) ?_
      have hs := (hb.settled.rests_read t rest).settled
      refine (Follows.nested (below _ hs.ready_enter (Nat.lt_trans hlt hn)).power).andThen ?_ ?_
      · rintro b' us r c' hmoves hb' ⟨rfl, b₂, right⟩
        have hle := hmoves.remaining_le
        refine (follows_productRest below (by omega) hmoves.absOpen hb'
          (.multiply left mark right)).imp ?_
        intro b vs e phrase
        rwa [List.append_assoc] at phrase
      · rintro b' us r ⟨rfl, b₂, right⟩
        exact ⟨false, [], _, by rw [List.append_nil]; exact .multiply left mark right⟩
    | none =>
      by_cases start : t.kind.startsImplicitOperand = true ∨ t.kind = .pipe ∧ c.absOpen = false
      · by_cases apart : c.absOpen = true → b = false
        · have operand : (power.andThen fun r => productRest (.binary .mul l r)).Follows
              (fun b us e => Phrase .product c.absOpen b (ts ++ us) e) c := by
            refine (follows_juxtaposed below hn hb left hc apart start).andThen ?_ ?_
            · rintro b' us r c' hmoves hb' ⟨right, phrase⟩
              have hlt' := hmoves.remaining_lt right.ne_nil
              refine (follows_productRest below (by omega) hmoves.absOpen hb' phrase).imp ?_
              intro b vs e phrase
              rwa [List.append_assoc] at phrase
            · rintro b' us r ⟨-, phrase⟩
              exact ⟨b', [], _, by rwa [List.append_nil]⟩
          refine operand.congr fun rest hrest => ?_
          rw [hc, List.head?_cons, List.head?_eq_some_iff] at hrest
          obtain ⟨rest', rfl⟩ := hrest
          exact productRest_of_operand l rfl start fun ho => hb.justClosed.trans (apart ho)
        · -- the operand before has just closed an absolute value inside another one
          have hopen : c.absOpen = true ∧ b = true := by simpa using apart
          have ht : t.kind.startsImplicitOperand = true := by simpa [hopen.1] using start
          exact .error_of_cons hc (fun rest => productRest_of_ambiguous l rfl ht hopen.1
            (hb.justClosed.trans hopen.2)) rfl done
      · refine (Follows.pure (a := l) hb done).congr fun rest hrest => productRest_of_not l ?_
        intro t' ht'
        obtain rfl : t' = t := by simpa [Cursor.withAhead, hrest, hc] using ht'.symm
        simp only [not_or, not_and, Bool.not_eq_true, Bool.not_eq_false] at start
        exact ⟨hm, start⟩
termination_by c.remaining

theorem follows_product (below : ExprFollowsBelow c.remaining)
    (h : power.Follows (Phrase .power c.absOpen) c) :
    product.Follows (Phrase .product c.absOpen) c := by
  rw [product_eq]
  refine h.andThen ?_ ?_
  · intro b ts e c' hm hb phrase
    exact follows_productRest below (hm.remaining_lt phrase.ne_nil) hm.absOpen hb (.ofPower phrase)
  · intro b ts e phrase
    exact ⟨b, [], e, by rw [List.append_nil]; exact .ofPower phrase⟩

theorem follows_sumRest {c : Cursor} (below : ExprFollowsBelow n) (hn : c.remaining < n)
    {o b : Bool} {ts : List Token} {l : Expr} (ho : c.absOpen = o) (hb : c.Rests b)
    (left : Phrase .sum o b ts l) :
    (sumRest l).Follows (fun b us e => Phrase .sum o b (ts ++ us) e) c := by
  have done : Phrase .sum o b (ts ++ []) l := by rwa [List.append_nil]
  obtain ⟨t, rest, op, hc, ht⟩ | stop := c.operator_cases BinaryOp.ofAdditive?
  · have hlt := Cursor.remaining_read hc
    have mark := ofAdditive?_eq_some_iff.1 ht
    have ready := hb.settled.ready_additive rest mark
    refine .token _ hc (fun rest => sumRest_of_additive l rfl ht) ?_
    refine (below _ ready (Nat.lt_trans hlt hn)).product.andThen ?_ ?_
    · intro b' us r c' hm hb' right
      have hle := hm.remaining_le
      rw [show (c.read t rest).absOpen = o from ho] at right
      refine (follows_sumRest below (by omega) (hm.absOpen.trans ho) hb'
        (.add left mark right)).imp ?_
      intro b vs e phrase
      rwa [List.append_assoc] at phrase
    · intro b' us r right
      rw [show (c.read t rest).absOpen = o from ho] at right
      exact ⟨b', [], _, by rw [List.append_nil]; exact .add left mark right⟩
  · exact (Follows.pure (a := l) hb done).congr fun rest hrest =>
      sumRest_of_not l (by rw [← hrest] at stop; exact stop)
termination_by c.remaining

theorem follows_sum_of_product (below : ExprFollowsBelow c.remaining)
    (h : product.Follows (Phrase .product c.absOpen) c) :
    sum.Follows (Phrase .sum c.absOpen) c := by
  rw [sum_eq]
  refine h.andThen ?_ ?_
  · intro b ts e c' hm hb phrase
    exact follows_sumRest below (hm.remaining_lt phrase.ne_nil) hm.absOpen hb (.ofProduct phrase)
  · intro b ts e phrase
    exact ⟨b, [], e, by rw [List.append_nil]; exact .ofProduct phrase⟩

theorem ExprFollowsBelow.follows (below : ExprFollowsBelow c.remaining) (ready : c.Ready) :
    ExprFollows c := by
  have hprimary := follows_primary below ready
  have hnegation := follows_negation below ready (follows_factorial hprimary)
  have hpower := follows_power below hnegation
  have hproduct := follows_product below hpower
  exact ⟨follows_sum_of_product below hproduct, hproduct, hpower, hnegation, hprimary⟩

theorem exprFollowsBelow (n : Nat) : ExprFollowsBelow n := by
  induction n with
  | zero => exact fun c _ h => absurd h (Nat.not_lt_zero _)
  | succ n ih =>
    intro c ready hc
    refine ExprFollowsBelow.follows (fun c' ready' hlt => ih c' ready' ?_) ready
    exact Nat.lt_of_lt_of_le hlt (Nat.le_of_lt_succ hc)

theorem follows_sum (ready : c.Ready) : sum.Follows (Phrase .sum c.absOpen) c :=
  ((exprFollowsBelow _).follows ready).sum

end Reader

end Formula

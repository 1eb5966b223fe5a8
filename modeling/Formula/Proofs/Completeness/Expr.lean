import Formula.Proofs.Progress

/-!
# Every expression is read

A reader that starts at a phrase of its category, with something after it that cannot extend the
phrase, reads exactly that phrase and gives its tree. Sums, products and factorials are read by
loops, so what is said of them is that the loop arrives at the end of the phrase with its tree.

## Main statements

* `Phrase.reads` — for each category, what its reader does at a phrase.
-/

namespace Formula

/-- Whether a token of the given kind goes on a phrase of the category. -/
def Category.extendedBy (isOpen : Bool) : Category → TokenKind → Bool
  | .factorial, kind | .negation, kind => kind == .bang
  | .power, kind => kind == .bang || kind == .caret
  | .product, kind =>
    kind == .bang || kind == .caret || (BinaryOp.ofMultiplicative? kind).isSome ||
      kind.startsImplicitOperand || kind == .pipe && !isOpen
  | .sum, kind =>
    kind == .bang || kind == .caret || (BinaryOp.ofMultiplicative? kind).isSome ||
      kind.startsImplicitOperand || kind == .pipe && !isOpen || (BinaryOp.ofAdditive? kind).isSome
  | .callee, kind => kind == .underscore
  | .primary, _ | .arguments, _ => false

/-- What follows a phrase of the category does not go on with it. -/
def Category.Stops (k : Category) (isOpen : Bool) (rest : List Token) : Prop :=
  ∀ t ∈ rest.head?, k.extendedBy isOpen t.kind = false

/-- From every cursor that is ready at the given tokens, the end of these tokens is reached by a
cursor of which `Post` holds. -/
def Arrives (o b : Bool) (ts : List Token) (Stop : List Token → Prop)
    (Post : Cursor → Cursor → Prop) : Prop :=
  ∀ c rest, c.ahead = ts ++ rest → c.absOpen = o → c.Ready → Stop rest →
    ∃ c', Post c c' ∧ c.Moves ts c' ∧ c'.Rests b

/-- What the reader of a category does at a phrase. -/
def Category.Reads (o b : Bool) (ts : List Token) (e : Expr) : Category → Prop
  | .primary =>
    Arrives o b ts (fun _ => True) fun c c' => Reader.primary c = .ok (e, c')
  | .factorial =>
    Arrives o b ts (fun _ => True) fun c c' => Reader.factorial c = Reader.bangs e c'
  | .negation =>
    Arrives o b ts (Category.negation.Stops o) fun c c' => Reader.negation c = .ok (e, c')
  | .power =>
    Arrives o b ts (Category.power.Stops o) fun c c' => Reader.power c = .ok (e, c')
  | .product =>
    Arrives o b ts (Category.power.Stops o) fun c c' => Reader.product c = Reader.productRest e c'
  | .sum =>
    Arrives o b ts (Category.product.Stops o) fun c c' => Reader.sum c = Reader.sumRest e c'
  | .callee =>
    ∀ f v, e = .call f v [] → Arrives o b ts (Category.callee.Stops o) fun c c' =>
      Reader.primary c = Reader.callArguments f v c'
  | .arguments =>
    ∀ f v args, e = .call f v args → ∀ r : Token, r.kind = .parenClose →
      ∀ c rest, c.ahead = ts ++ r :: rest → c.Settled →
        ∃ c', Reader.items Reader.argument .parenClose c = .ok (args, c') ∧
          c.Moves (ts ++ [r]) c' ∧ c'.Rests false

section Steps

open Category

variable {o b b' : Bool} {t l r f : Token} {ts us hs rest : List Token} {e e' : Expr} {c : Cursor}

/-- What follows a phrase stops its parts as well. -/
theorem Category.Stops.mono {k k' : Category} (h : k.Stops o rest)
    (hk : ∀ kind, k'.extendedBy o kind = true → k.extendedBy o kind = true) : k'.Stops o rest := by
  intro t ht
  cases hx : k'.extendedBy o t.kind with
  | false => rfl
  | true => exact absurd (hk _ hx) (by simp [h t ht])

theorem Category.stops_cons {k : Category} (h : k.extendedBy o t.kind = false) :
    k.Stops o (t :: rest) := by
  rintro t' ht
  cases ht
  exact h

theorem Category.Stops.peekKind?_ne {k : Category} {kind : TokenKind} (h : k.Stops o c.ahead)
    (hk : k.extendedBy o kind = true) : c.peekKind? ≠ some kind := by
  intro hc
  obtain ⟨t, ht, rfl⟩ := Option.map_eq_some_iff.1 hc
  exact absurd hk (by simp [h t ht])

theorem Arrives.sum (h : sum.Reads o b ts e) :
    Arrives o b ts (sum.Stops o) fun c c' => Reader.sum c = .ok (e, c') := by
  intro c rest hc ho hr hs
  have hp : product.Stops o rest := hs.mono fun kind hk => by
    simp only [extendedBy, Bool.or_eq_true] at hk ⊢
    exact .inl hk
  obtain ⟨c', hsum, hm, hb⟩ := h c rest hc ho hr hp
  refine ⟨c', hsum.trans (Reader.sumRest_of_not e fun t ht => ?_), hm, hb⟩
  have := hs t (hm.ahead_eq hc ▸ ht)
  simp only [extendedBy, Bool.or_eq_false_iff] at this
  simpa using this.2

theorem Arrives.product (h : product.Reads o b ts e) :
    Arrives o b ts (product.Stops o) fun c c' => Reader.product c = .ok (e, c') := by
  intro c rest hc ho hr hs
  have hp : power.Stops o rest := hs.mono fun kind hk => by
    simp only [extendedBy, Bool.or_eq_true] at hk ⊢
    exact .inl (.inl (.inl hk))
  obtain ⟨c', hproduct, hm, hb⟩ := h c rest hc ho hr hp
  refine ⟨c', hproduct.trans (Reader.productRest_of_not e fun t ht => ?_), hm, hb⟩
  have := hs t (hm.ahead_eq hc ▸ ht)
  simp only [extendedBy, Bool.or_eq_false_iff] at this
  refine ⟨by simpa using this.1.1.2, this.1.2, fun hpipe => ?_⟩
  simpa [hpipe, hm.absOpen, ho] using this.2

/-- A phrase of a level without an open absolute value is read one level deeper from anywhere. -/
theorem Arrives.nested {α : Type} {reader : Reader α} {a : α} {Stop : List Token → Prop}
    (h : Arrives false b ts Stop fun c c' => reader c = .ok (a, c')) (hc : c.ahead = ts ++ rest)
    (hr : c.Settled) (hs : Stop rest) :
    ∃ c', reader.nested c = .ok (a, c') ∧ c.Moves ts c' ∧ c'.Rests false := by
  obtain ⟨c', hread, hm, hb⟩ := h c.enter rest hc rfl hr.ready_enter hs
  exact ⟨c'.leave, Reader.nested_ok hread, hm.leave, hb.leave hm⟩

/-! ## Primaries -/

theorem reads_literal (kind : t.kind = .number ∨ t.kind = .identifier ∨ t.kind = .constant) :
    primary.Reads o false [t] (.literal t) := by
  intro c rest hc _ hr _
  exact ⟨c.read t rest, Reader.primary_of_literal hc kind, Cursor.moves_read hc,
    hr.settled.rests_read t rest⟩

theorem reads_group (hl : l.kind = .parenOpen) (h : sum.Reads false b ts e)
    (hr : r.kind = .parenClose) : primary.Reads o false (l :: (ts ++ [r])) (.group e) := by
  intro c rest hc _ ready _
  have hl' : c.ahead = l :: (ts ++ r :: rest) := by simpa using hc
  have settled := (ready.settled.rests_read l (ts ++ r :: rest)).settled
  obtain ⟨c₁, hsum, hm, hb⟩ := (Arrives.sum h).nested rfl settled
    (stops_cons (by simp [extendedBy, hr, BinaryOp.ofMultiplicative?, BinaryOp.ofAdditive?,
      BinaryOp.ofKind?, TokenKind.startsImplicitOperand]))
  have hr' : c₁.ahead = r :: rest := hm.ahead_eq rfl
  refine ⟨c₁.read r rest, ?_, ?_, hb.settled.rests_read r rest⟩
  · show Reader.primary c = .ok (.group e, c₁.read r rest)
    rw [Reader.primary_of_parenOpen hl' hl, Reader.andThen_ok hsum]
    exact Reader.map_ok (Reader.expect_of_kind hr' hr)
  · exact .cons hl' (hm.trans (Cursor.moves_read hr'))

theorem reads_abs (hl : l.kind = .pipe) (h : sum.Reads true b ts e) (hr : r.kind = .pipe) :
    primary.Reads o true (l :: (ts ++ [r])) (.abs e) := by
  intro c rest hc ho ready _
  have hl' : c.ahead = l :: (ts ++ r :: rest) := by simpa using hc
  have stops : sum.Stops true (r :: rest) := stops_cons (by
    simp [extendedBy, hr, BinaryOp.ofMultiplicative?, BinaryOp.ofAdditive?, BinaryOp.ofKind?,
      TokenKind.startsImplicitOperand])
  obtain ⟨c₁, hsum, hm, hb⟩ := Arrives.sum h ((c.read l (ts ++ r :: rest)).setAbsOpen true)
    (r :: rest) rfl rfl (.setAbsOpen_read ready.settled hl _) stops
  have opens : c.mayOpenAbs = true := ready.opens (by rw [Cursor.peekKind?_cons hl', hl])
  have hr' : (c₁.setAbsOpen c.absOpen).ahead = r :: rest := hm.ahead_eq rfl
  refine ⟨((c₁.setAbsOpen c.absOpen).read r rest).markClosing, ?_, ?_,
    Cursor.rests_markClosing _⟩
  · show Reader.primary c = .ok (.abs e, _)
    rw [Reader.primary_of_pipe hl' hl opens, Reader.andThen_ok (Reader.insideAbs_ok hsum)]
    exact Reader.map_ok (Reader.closeAbs_of_pipe hr' hr)
  · have := (hm.setAbsOpen).trans (Cursor.moves_read hr')
    exact .cons hl' ⟨this.behind, this.ahead, this.absOpen, this.outer⟩

/-! ## Calls -/

theorem reads_callee (kind : f.kind = .function) : callee.Reads o false [f] (.call f none []) := by
  intro g v he c rest hc _ hr hs
  cases he
  refine ⟨c.read f rest, ?_, Cursor.moves_read hc, hr.settled.rests_read f rest⟩
  have hne : (c.read f rest).peekKind? ≠ some .underscore := hs.peekKind?_ne rfl
  exact (Reader.primary_of_function hc kind).trans (Reader.callRest_of_ne f hne)

theorem reads_subscript {u : Token} {v : Expr} (kind : f.kind = .function)
    (mark : u.kind = .underscore) (h : primary.Reads false b ts v) :
    callee.Reads o false (f :: u :: ts) (.call f (some v) []) := by
  intro g w he c rest hc _ hr _
  cases he
  have hf : c.ahead = f :: u :: (ts ++ rest) := hc
  have settled := (hr.settled.rests_read f (u :: (ts ++ rest))).settled
  obtain ⟨c₁, hv, hm, hb⟩ :=
    Arrives.nested h rfl (settled.rests_read u (ts ++ rest)).settled trivial
  refine ⟨c₁, ?_, .cons hf (.cons rfl hm), hb⟩
  show Reader.primary c = Reader.callArguments f (some v) c₁
  rw [Reader.primary_of_function hf kind, Reader.callRest_of_underscore f rfl mark,
    Reader.andThen_ok hv]

theorem reads_call {v : Option Expr} (h : callee.Reads o false hs (.call f v []))
    (hl : l.kind = .parenOpen) (hr : r.kind = .parenClose) :
    primary.Reads o false (hs ++ [l, r]) (.call f v []) := by
  intro c rest hc ho ready _
  have hc' : c.ahead = hs ++ l :: r :: rest := by simpa using hc
  obtain ⟨c₁, hf, hm, hb⟩ := h f v rfl c _ hc' ho ready (stops_cons (by simp [extendedBy, hl]))
  have hl' : c₁.ahead = l :: r :: rest := hm.ahead_eq hc'
  have settled := (hb.settled.rests_read l (r :: rest)).settled
  refine ⟨(c₁.read l (r :: rest)).read r rest, ?_, ?_, settled.rests_read r rest⟩
  · show Reader.primary c = .ok (.call f v [], _)
    rw [hf, Reader.callArguments_eq, Reader.andThen_ok (Reader.expect_of_kind hl' hl)]
    exact Reader.map_ok (Reader.commaList_of_closing rfl hr)
  · exact hm.trans (.cons hl' (Cursor.moves_read rfl))

theorem reads_apply {v : Option Expr} {args : List Expr}
    (h : callee.Reads o false hs (.call f v [])) (hl : l.kind = .parenOpen)
    (ha : arguments.Reads false b (t :: ts) (.call f v args)) (ht : t.kind ≠ .parenClose)
    (hr : r.kind = .parenClose) :
    primary.Reads o false (hs ++ l :: (t :: ts ++ [r])) (.call f v args) := by
  intro c rest hc ho ready _
  have hc' : c.ahead = hs ++ l :: (t :: ts ++ r :: rest) := by simpa using hc
  obtain ⟨c₁, hf, hm, hb⟩ := h f v rfl c _ hc' ho ready (stops_cons (by simp [extendedBy, hl]))
  have hl' : c₁.ahead = l :: (t :: ts ++ r :: rest) := hm.ahead_eq hc'
  have settled := (hb.settled.rests_read l (t :: ts ++ r :: rest)).settled
  obtain ⟨c₂, hi, hm', hb'⟩ := ha f v args rfl r hr _ rest rfl settled
  have hne : (c₁.read l (t :: ts ++ r :: rest)).peekKind? ≠ some .parenClose := by
    rw [Cursor.peekKind?_cons rfl]
    simpa using ht
  refine ⟨c₂, ?_, hm.trans (.cons hl' hm'), hb'⟩
  show Reader.primary c = .ok (.call f v args, c₂)
  rw [hf, Reader.callArguments_eq, Reader.andThen_ok (Reader.expect_of_kind hl' hl)]
  exact Reader.map_ok ((Reader.commaList_of_ne hne).trans hi)

/-- An argument is read up to the token that ends it. -/
theorem reads_item (h : sum.Reads false b ts e) (ht : t.kind = .comma ∨ t.kind = .parenClose)
    (hc : c.ahead = ts ++ t :: rest) (settled : c.Settled) :
    ∃ c', Reader.ofParser Reader.argument c = .ok (e, c') ∧ c.Moves ts c' ∧ c'.Rests false := by
  rw [Reader.ofParser_argument]
  refine (Arrives.sum h).nested hc settled (stops_cons ?_)
  rcases ht with ht | ht <;>
    simp [extendedBy, ht, BinaryOp.ofMultiplicative?, BinaryOp.ofAdditive?, BinaryOp.ofKind?,
      TokenKind.startsImplicitOperand]

theorem reads_argument {v : Option Expr} (h : sum.Reads false b ts e) :
    arguments.Reads false b ts (.call f v [e]) := by
  intro g w args he r hr c rest hc settled
  cases he
  obtain ⟨c₁, he, hm, hb⟩ := reads_item h (.inr hr) hc settled
  have hr' : c₁.ahead = r :: rest := hm.ahead_eq hc
  exact ⟨c₁.read r rest, Reader.items_of_closing he hr' hr (by decide),
    hm.trans (Cursor.moves_read hr'), hb.settled.rests_read r rest⟩

theorem reads_moreArguments {s : Token} {v : Option Expr} {es : List Expr}
    (h : sum.Reads false b ts e) (hs : s.kind = .comma)
    (ho : arguments.Reads false b' us (.call f v es)) :
    arguments.Reads false b' (ts ++ s :: us) (.call f v (e :: es)) := by
  intro g w args he r hr c rest hc settled
  cases he
  have hc' : c.ahead = ts ++ s :: (us ++ r :: rest) := by simpa using hc
  obtain ⟨c₁, he, hm, hb⟩ := reads_item h (.inl hs) hc' settled
  have hs' : c₁.ahead = s :: (us ++ r :: rest) := hm.ahead_eq hc'
  obtain ⟨c₂, hi, hm', hb'⟩ := ho f v es rfl r hr (c₁.read s (us ++ r :: rest)) rest rfl
    (hb.settled.rests_read _ _).settled
  refine ⟨c₂, Reader.items_of_comma he hs' hs hi, ?_, hb'⟩
  simpa using hm.trans (.cons hs' hm')

/-! ## Operators -/

theorem reads_ofPrimary (h : primary.Reads o b ts e) : factorial.Reads o b ts e := by
  intro c rest hc ho hr hs
  obtain ⟨c', hp, hm, hb⟩ := h c rest hc ho hr hs
  refine ⟨c', ?_, hm, hb⟩
  show Reader.factorial c = Reader.bangs e c'
  rw [Reader.factorial_eq, Reader.andThen_ok hp]

theorem reads_bang (h : factorial.Reads o b ts e) (ht : t.kind = .bang) :
    factorial.Reads o false (ts ++ [t]) (.unary .factorial e) := by
  intro c rest hc ho hr hs
  have hc' : c.ahead = ts ++ t :: rest := by simpa using hc
  obtain ⟨c', hf, hm, hb⟩ := h c (t :: rest) hc' ho hr trivial
  have ht' : c'.ahead = t :: rest := hm.ahead_eq hc'
  exact ⟨c'.read t rest, hf.trans (Reader.bangs_of_bang e ht' ht),
    hm.trans (Cursor.moves_read ht'), hb.settled.rests_read t rest⟩

theorem reads_ofFactorial (h : factorial.Reads o b (t :: ts) e) (ht : t.kind ≠ .minus) :
    negation.Reads o b (t :: ts) e := by
  intro c rest hc ho hr hs
  obtain ⟨c', hf, hm, hb⟩ := h c rest hc ho hr trivial
  have hminus : c.peekKind? ≠ some .minus := by
    rw [Cursor.peekKind?_cons hc]
    simpa using ht
  have hbang : c'.peekKind? ≠ some .bang := by
    rw [← hm.ahead_eq hc] at hs
    exact hs.peekKind?_ne rfl
  refine ⟨c', ?_, hm, hb⟩
  show Reader.negation c = .ok (e, c')
  rw [Reader.negation_of_ne hminus, hf, Reader.bangs_of_ne e hbang]

theorem reads_negate (ht : t.kind = .minus) (h : negation.Reads o b ts e) :
    negation.Reads o b (t :: ts) (.unary .negate e) := by
  intro c rest hc ho hr hs
  have ht' : c.ahead = t :: (ts ++ rest) := hc
  obtain ⟨c', hn, hm, hb⟩ := h (c.read t (ts ++ rest)) rest rfl ho
    (hr.settled.ready_read _ (.inr (.inr ht))) hs
  exact ⟨c', (Reader.negation_of_minus ht' ht).trans (Reader.map_ok hn), .cons ht' hm, hb⟩

theorem reads_ofNegation (h : negation.Reads o b ts e) : power.Reads o b ts e := by
  intro c rest hc ho hr hs
  have hn : negation.Stops o rest := hs.mono fun kind hk => by
    simp only [extendedBy] at hk ⊢
    simp [hk]
  obtain ⟨c', hn, hm, hb⟩ := h c rest hc ho hr hn
  have hcaret : c'.peekKind? ≠ some .caret := by
    rw [← hm.ahead_eq hc] at hs
    exact hs.peekKind?_ne rfl
  refine ⟨c', ?_, hm, hb⟩
  show Reader.power c = .ok (e, c')
  rw [Reader.power_eq, Reader.andThen_ok hn, Reader.powerRest_of_ne e hcaret]

theorem reads_raise (h : negation.Reads o b ts e) (ht : t.kind = .caret)
    (h' : power.Reads false b' us e') :
    power.Reads o false (ts ++ t :: us) (.binary .pow e e') := by
  intro c rest hc ho hr hs
  have hc' : c.ahead = ts ++ t :: (us ++ rest) := by simpa using hc
  obtain ⟨c₁, hn, hm, hb⟩ := h c _ hc' ho hr (stops_cons (by simp [extendedBy, ht]))
  have ht' : c₁.ahead = t :: (us ++ rest) := hm.ahead_eq hc'
  obtain ⟨c₂, hp, hm', hb'⟩ :=
    Arrives.nested h' rfl (hb.settled.rests_read t (us ++ rest)).settled hs
  refine ⟨c₂, ?_, hm.trans (.cons ht' hm'), hb'⟩
  show Reader.power c = .ok (.binary .pow e e', c₂)
  rw [Reader.power_eq, Reader.andThen_ok hn, Reader.powerRest_of_caret e ht' ht]
  exact Reader.map_ok hp

theorem reads_ofPower (h : power.Reads o b ts e) : product.Reads o b ts e := by
  intro c rest hc ho hr hs
  obtain ⟨c', hp, hm, hb⟩ := h c rest hc ho hr hs
  refine ⟨c', ?_, hm, hb⟩
  show Reader.product c = Reader.productRest e c'
  rw [Reader.product_eq, Reader.andThen_ok hp]

theorem reads_multiply {op : BinaryOp} (h : product.Reads o b ts e)
    (mark : MultiplicativeMark t.kind op) (h' : power.Reads false b' us e') :
    product.Reads o false (ts ++ t :: us) (.binary op e e') := by
  intro c rest hc ho hr hs
  have hc' : c.ahead = ts ++ t :: (us ++ rest) := by simpa using hc
  have ht := ofMultiplicative?_eq_some_iff.2 mark
  have stops : power.Stops o (t :: (us ++ rest)) := stops_cons (by
    generalize t.kind = kind at mark
    rcases mark with _ | _ | _ <;> rfl)
  obtain ⟨c₁, hl, hm, hb⟩ := h c _ hc' ho hr stops
  have ht' : c₁.ahead = t :: (us ++ rest) := hm.ahead_eq hc'
  obtain ⟨c₂, hp, hm', hb'⟩ :=
    Arrives.nested h' rfl (hb.settled.rests_read t (us ++ rest)).settled hs
  refine ⟨c₂, ?_, hm.trans (.cons ht' hm'), hb'⟩
  show Reader.product c = Reader.productRest (.binary op e e') c₂
  rw [hl, Reader.productRest_of_multiplicative e ht' ht, Reader.andThen_ok hp]

theorem reads_juxtapose (h : product.Reads o b ts e) (apart : o = true → b = false)
    (unmarked : UnmarkedStart o t.kind) (h' : power.Reads o b' (t :: us) e') :
    product.Reads o b' (ts ++ t :: us) (.binary .mul e e') := by
  intro c rest hc ho hr hs
  have hc' : c.ahead = ts ++ t :: (us ++ rest) := by simpa using hc
  have start := unmarkedStart_iff.1 unmarked
  have stops : power.Stops o (t :: (us ++ rest)) := stops_cons (by
    generalize t.kind = kind at unmarked
    rcases unmarked with _ | _ | _ | _ | _ | _ <;> rfl)
  obtain ⟨c₁, hl, hm, hb⟩ := h c _ hc' ho hr stops
  have ht' : c₁.ahead = t :: (us ++ rest) := hm.ahead_eq hc'
  have ho₁ : c₁.absOpen = o := hm.absOpen.trans ho
  have ready : c₁.Ready := hb.settled.ready_of_juxtaposed ht' (ho₁ ▸ start)
  obtain ⟨c₂, hp, hm', hb'⟩ := h' c₁ rest ht' ho₁ ready hs
  refine ⟨c₂, ?_, hm.trans hm', hb'⟩
  show Reader.product c = Reader.productRest (.binary .mul e e') c₂
  rw [hl, Reader.productRest_of_operand e ht' (ho₁ ▸ start)
    (fun hopen => hb.justClosed.trans (apart (ho₁ ▸ hopen))), Reader.andThen_ok hp]

theorem reads_ofProduct (h : product.Reads o b ts e) : sum.Reads o b ts e := by
  intro c rest hc ho hr hs
  obtain ⟨c', hp, hm, hb⟩ := Arrives.product h c rest hc ho hr hs
  refine ⟨c', ?_, hm, hb⟩
  show Reader.sum c = Reader.sumRest e c'
  rw [Reader.sum_eq, Reader.andThen_ok hp]

theorem reads_add {op : BinaryOp} (h : sum.Reads o b ts e)
    (mark : AdditiveMark t.kind op) (h' : product.Reads o b' us e') :
    sum.Reads o b' (ts ++ t :: us) (.binary op e e') := by
  intro c rest hc ho hr hs
  have hc' : c.ahead = ts ++ t :: (us ++ rest) := by simpa using hc
  have ht := ofAdditive?_eq_some_iff.2 mark
  have stops : product.Stops o (t :: (us ++ rest)) := stops_cons (by
    generalize t.kind = kind at mark
    rcases mark with _ | _ <;> rfl)
  obtain ⟨c₁, hl, hm, hb⟩ := h c _ hc' ho hr stops
  have ht' : c₁.ahead = t :: (us ++ rest) := hm.ahead_eq hc'
  obtain ⟨c₂, hp, hm', hb'⟩ := Arrives.product h' (c₁.read t (us ++ rest)) rest rfl
    (hm.absOpen.trans ho) (hb.settled.ready_additive _ mark) hs
  refine ⟨c₂, ?_, hm.trans (.cons ht' hm'), hb'⟩
  show Reader.sum c = Reader.sumRest (.binary op e e') c₂
  rw [hl, Reader.sumRest_of_additive e ht' ht, Reader.andThen_ok hp]

end Steps

/-- The reader of a category arrives at the end of each of its phrases. -/
theorem Phrase.reads {k : Category} {o b : Bool} {ts : List Token} {e : Expr}
    (h : Phrase k o b ts e) : k.Reads o b ts e := by
  induction h with
  | literal kind => exact reads_literal kind
  | group left _ right ih => exact reads_group left ih right
  | abs left _ right ih => exact reads_abs left ih right
  | callee kind => exact reads_callee kind
  | subscript kind mark _ ih => exact reads_subscript kind mark ih
  | call _ left right ih => exact reads_call ih left right
  | apply _ left arguments right ihc iha =>
    obtain ⟨t, rest, rfl, ht⟩ := arguments.starts
    exact reads_apply ihc left iha (by rintro hk; simp [hk, Category.startsWith,
      TokenKind.startsOperand] at ht) right
  | argument _ ih => exact reads_argument ih
  | moreArguments _ comma _ ihf iho => exact reads_moreArguments ihf comma iho
  | ofPrimary _ ih => exact reads_ofPrimary ih
  | bang _ mark ih => exact reads_bang ih mark
  | ofFactorial factorial ih =>
    obtain ⟨t, rest, rfl, ht⟩ := factorial.starts
    exact reads_ofFactorial ih (by rintro hk; simp [hk, Category.startsWith,
      TokenKind.startsOperand] at ht)
  | negate mark _ ih => exact reads_negate mark ih
  | ofNegation _ ih => exact reads_ofNegation ih
  | raise _ mark _ ihb ihe => exact reads_raise ihb mark ihe
  | ofPower _ ih => exact reads_ofPower ih
  | multiply _ mark _ ihl ihr => exact reads_multiply ihl mark ihr
  | juxtapose _ apart start _ ihl ihr => exact reads_juxtapose ihl apart start ihr
  | ofProduct _ ih => exact reads_ofProduct ih
  | add _ mark _ ihl ihr => exact reads_add ihl mark ihr

end Formula

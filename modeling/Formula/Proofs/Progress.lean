import Formula.Proofs.Reader.Expr

/-!
# Progress of cursors

What a reader may rely on where it starts and what it leaves behind where it stops. The mark of the
last closing pipe is the delicate part: it is compared with a position and a depth, so it must not
lie ahead of the cursor, and a mark left on an inner level must not be taken for one of this level.
-/

namespace Formula.Cursor

/-- From one cursor to another over the given tokens, on the same level. -/
structure Moves (c : Cursor) (ts : List Token) (c' : Cursor) : Prop where
  behind : c'.behind = ts.reverse ++ c.behind
  ahead : c.ahead = ts ++ c'.ahead
  absOpen : c'.absOpen = c.absOpen
  outer : c'.outer = c.outer

/-- The last closing pipe is not ahead of the cursor. -/
def Settled (c : Cursor) : Prop :=
  ∀ m ∈ c.closing, m.position ≤ c.position

/-- Where a phrase has just been read: the flag says whether its last token closed an absolute
value on the current level. -/
structure Rests (c : Cursor) (closes : Bool) : Prop where
  settled : c.Settled
  deep : ∀ m ∈ c.closing, m.position = c.position → c.depth ≤ m.depth
  justClosed : c.justClosedAbs = closes

/-- Where a phrase may start: a pipe that comes next may open an absolute value. -/
structure Ready (c : Cursor) : Prop where
  settled : c.Settled
  opens : c.peekKind? = some .pipe → c.mayOpenAbs = true

variable {c c' c'' : Cursor} {t : Token} {rest ts us : List Token} {b : Bool}

theorem Moves.refl (c : Cursor) : c.Moves [] c :=
  ⟨rfl, rfl, rfl, rfl⟩

theorem Moves.trans (h : c.Moves ts c') (g : c'.Moves us c'') : c.Moves (ts ++ us) c'' where
  behind := by simp [g.behind, h.behind]
  ahead := by simp [h.ahead, g.ahead]
  absOpen := g.absOpen.trans h.absOpen
  outer := g.outer.trans h.outer

theorem moves_read (h : c.ahead = t :: rest) : c.Moves [t] (c.read t rest) :=
  ⟨rfl, h, rfl, rfl⟩

theorem Moves.cons (h : c.ahead = t :: rest) (g : (c.read t rest).Moves ts c') :
    c.Moves (t :: ts) c' :=
  (moves_read h).trans g

theorem Moves.ahead_eq (h : c.Moves ts c') {k : List Token} (hk : c.ahead = ts ++ k) :
    c'.ahead = k :=
  List.append_cancel_left (h.ahead.symm.trans hk)

theorem Moves.leave (h : c.enter.Moves ts c') : c.Moves ts c'.leave := by
  have houter : c'.outer = c.absOpen :: c.outer := h.outer
  refine ⟨?_, ?_, ?_, ?_⟩ <;> simp only [Cursor.leave, houter]
  · exact h.behind
  · exact h.ahead

theorem Moves.setAbsOpen {isOpen : Bool} (h : (c.setAbsOpen isOpen).Moves ts c') :
    c.Moves ts (c'.setAbsOpen c.absOpen) :=
  ⟨h.behind, h.ahead, rfl, h.outer⟩

theorem Rests.of_settled_lt (h : ∀ m ∈ c.closing, m.position < c.position) : c.Rests false where
  settled m hm := Nat.le_of_lt (h m hm)
  deep m hm heq := absurd heq (Nat.ne_of_lt (h m hm))
  justClosed := by
    cases hm : c.closing with
    | none => simp [justClosedAbs, hm]
    | some m =>
      have := h m (by simp [hm])
      have hne : m ≠ { position := c.position, depth := c.depth } := by
        rintro rfl
        simp at this
      simpa [justClosedAbs, hm] using hne

theorem Settled.rests_read (h : c.Settled) (t : Token) (rest : List Token) :
    (c.read t rest).Rests false :=
  Rests.of_settled_lt fun m hm => Nat.lt_succ_of_le (h m hm)

theorem Rests.leave (h : c'.Rests b) (hm : c.enter.Moves ts c') : c'.leave.Rests false := by
  have houter : c'.outer = c.absOpen :: c.outer := hm.outer
  have hposition : c'.leave.position = c'.position := by simp [Cursor.leave, houter, position]
  have hclosing : c'.leave.closing = c'.closing := by simp [Cursor.leave, houter]
  have hdepth : c'.leave.depth + 1 = c'.depth := by simp [Cursor.leave, houter, depth]
  refine ⟨?_, ?_, ?_⟩
  · intro m hm
    rw [hposition]
    exact h.settled m (hclosing ▸ hm)
  · intro m hm heq
    have := h.deep m (hclosing ▸ hm) (heq.trans hposition)
    omega
  · -- a mark at this place would be one level deeper
    rw [justClosedAbs, hclosing, hposition]
    cases hm : c'.closing with
    | none => rfl
    | some m =>
      have hne : m ≠ { position := c'.position, depth := c'.leave.depth } := by
        rintro rfl
        have := h.deep _ hm rfl
        simp only at this
        omega
      simpa using hne

theorem Rests.setAbsOpen (h : c.Rests b) (isOpen : Bool) : (c.setAbsOpen isOpen).Rests b :=
  ⟨h.settled, h.deep, h.justClosed⟩

theorem rests_markClosing (c : Cursor) : c.markClosing.Rests true where
  settled m hm := by
    cases hm
    exact Nat.le_refl _
  deep m hm _ := by
    cases hm
    exact Nat.le_refl _
  justClosed := by simp [justClosedAbs, markClosing, position, depth]

theorem Settled.ready_of_closed (h : c.Settled) (ho : c.absOpen = false) : c.Ready :=
  ⟨h, fun _ => by simp [mayOpenAbs, ho]⟩

theorem Settled.ready_enter (h : c.Settled) : c.enter.Ready :=
  Settled.ready_of_closed h rfl

theorem Settled.ready_of_ne (h : c.Settled) (hp : c.peekKind? ≠ some .pipe) : c.Ready :=
  ⟨h, fun hk => absurd hk hp⟩

/-- An operand that is juxtaposed to another one may start here. -/
theorem Settled.ready_of_juxtaposed (h : c.Settled) (hc : c.ahead = t :: rest)
    (start : t.kind.startsImplicitOperand = true ∨ t.kind = .pipe ∧ c.absOpen = false) :
    c.Ready := by
  rcases start with ht | ⟨-, ho⟩
  · refine h.ready_of_ne fun hp => ?_
    rw [peekKind?_cons hc, Option.some.injEq] at hp
    simp [hp, TokenKind.startsImplicitOperand] at ht
  · exact h.ready_of_closed ho

/-- After a plus, a minus or a pipe a pipe opens an absolute value. -/
theorem Settled.ready_read (h : c.Settled) (rest : List Token)
    (ht : t.kind = .pipe ∨ t.kind = .plus ∨ t.kind = .minus) : (c.read t rest).Ready where
  settled := (h.rests_read t rest).settled
  opens _ := by rcases ht with ht | ht | ht <;> simp [mayOpenAbs, previous?, read, ht]

theorem Settled.ready_additive {op : BinaryOp} (h : c.Settled) (rest : List Token)
    (mark : AdditiveMark t.kind op) : (c.read t rest).Ready := by
  refine h.ready_read rest (.inr ?_)
  generalize t.kind = kind at mark
  rcases mark with _ | _
  · exact .inl rfl
  · exact .inr rfl

theorem Ready.setAbsOpen_read (h : c.Settled) (ht : t.kind = .pipe) (rest : List Token) :
    ((c.read t rest).setAbsOpen true).Ready where
  settled := (h.rests_read t rest).settled
  opens _ := by simp [mayOpenAbs, previous?, read, setAbsOpen, ht]

end Formula.Cursor

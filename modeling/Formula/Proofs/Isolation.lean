import Formula.Proofs.Parsing

/-!
# Nesting isolates pipes

Tokens that are an expression when nothing stands around them are the same expression inside
parentheses and as an argument of a call, wherever these stand: the absolute values that are open
around them and the last one that was closed have no effect on how their pipes are paired.

## Main definitions

* `IsExpression` — tokens that are an expression by themselves.

## Main statements

* `IsExpression.exists_phrase` — they are a phrase of a level on which nothing is open.
* `nesting_isolates_pipes` — a group and a call are read from every cursor alike.
-/

namespace Formula

/-- Read from a fresh start, the tokens give the expression and none of them is left. -/
def IsExpression (ts : List Token) (e : Expr) : Prop :=
  (Cursor.start ts).sum.outcome = .ok e ∧ (Cursor.start ts).sum.rest.ahead = []

theorem IsExpression.exists_phrase {ts : List Token} {e : Expr} (h : IsExpression ts e) :
    ∃ b, Phrase .sum false b ts e := by
  have ready := (Cursor.settled_start ts).ready_of_closed rfl
  have hread : Reader.sum (Cursor.start ts) = .ok (e, (Cursor.start ts).sum.rest) :=
    Step.result_eq_ok_iff.2 ⟨h.1, rfl⟩
  obtain ⟨b, us, hm, -, phrase, -⟩ := (Reader.follows_sum ready).success _ _ hread
  have hts : ts = us ++ (Cursor.start ts).sum.rest.ahead := hm.ahead
  rw [h.2, List.append_nil] at hts
  exact ⟨b, hts ▸ phrase⟩

theorem Separated.imp {α : Type} {Item Item' : List Token → α → Prop} {ts : List Token}
    {as : List α} (h : Separated Item ts as) (hi : ∀ ts a, Item ts a → Item' ts a) :
    Separated Item' ts as := by
  induction h with
  | one item => exact .one (hi _ _ item)
  | more item comma _ ih => exact .more (hi _ _ item) comma ih

/-- An operand that does not start with a pipe is read wherever it stands. -/
theorem Phrase.primary_at {c : Cursor} {b : Bool} {ts rest : List Token} {e : Expr}
    (h : Phrase .primary c.absOpen b ts e) (hc : c.ahead = ts ++ rest) (settled : c.Settled)
    (hk : c.peekKind? ≠ some .pipe) :
    c.primary.outcome = .ok e ∧ c.primary.rest.ahead = rest ∧ c.Moves ts c.primary.rest := by
  obtain ⟨c', hread, hm, -⟩ := h.reads c rest hc rfl (settled.ready_of_ne hk) trivial
  obtain ⟨houtcome, rfl⟩ := Step.result_eq_ok_iff.1 hread
  exact ⟨houtcome, hm.ahead_eq hc, hm⟩

/-- A group around an expression, and a call with expressions as its arguments, are read from every
cursor whose last closing pipe is not ahead of it: whatever has been read before, however many
levels there are and whichever of them have an absolute value open. -/
theorem nesting_isolates_pipes (c : Cursor) (settled : c.Settled) (rest : List Token) :
    (∀ l ts r e, l.kind = .parenOpen → r.kind = .parenClose → IsExpression ts e →
      c.ahead = l :: (ts ++ r :: rest) →
      c.primary.outcome = .ok (.group e) ∧ c.primary.rest.ahead = rest ∧
        c.Moves (l :: (ts ++ [r])) c.primary.rest) ∧
    ∀ f l ts r es, f.kind = .function → l.kind = .parenOpen → r.kind = .parenClose →
      (ts = [] ∧ es = [] ∨ Separated IsExpression ts es) →
      c.ahead = f :: l :: (ts ++ r :: rest) →
      c.primary.outcome = .ok (.call f none es) ∧ c.primary.rest.ahead = rest ∧
        c.Moves (f :: l :: (ts ++ [r])) c.primary.rest := by
  constructor
  · intro l ts r e hl hr hts hc
    obtain ⟨b, inner⟩ := hts.exists_phrase
    refine (Phrase.group hl inner hr).primary_at (by simpa using hc) settled ?_
    simp [Cursor.peekKind?_cons hc, hl]
  · intro f l ts r es hf hl hr hts hc
    have hk : c.peekKind? ≠ some .pipe := by simp [Cursor.peekKind?_cons hc, hf]
    obtain ⟨rfl, rfl⟩ | hts := hts
    · exact (Phrase.call (.callee hf) hl hr).primary_at (by simpa using hc) settled hk
    · obtain ⟨b, arguments⟩ := (hts.imp fun _ _ h => h.exists_phrase).arguments f none
      exact (Phrase.apply (.callee hf) hl arguments hr).primary_at (by simpa using hc) settled hk

/-- A cursor with an absolute value open on its level and on the one around it, right behind a pipe
that closed another one. -/
def Cursor.insideOpenAbs (ahead : List Token) : Cursor :=
  { behind := [.ofKind .pipe], ahead, absOpen := true, outer := [true, false],
    closing := some { position := 1, depth := 3 } }

theorem nesting_isolates_pipes_inside_abs :
    let abs := [.pipe, .number, .pipe].map Token.ofKind
    let value := Expr.abs (.literal (.ofKind .number))
    let group := Cursor.insideOpenAbs
      (.ofKind .parenOpen :: (abs ++ .ofKind .parenClose :: [.ofKind .pipe]))
    let call := Cursor.insideOpenAbs (.ofKind .function :: .ofKind .parenOpen ::
      (abs ++ .ofKind .comma :: abs ++ .ofKind .parenClose :: [.ofKind .pipe]))
    (group.primary.outcome = .ok (.group value) ∧ group.primary.rest.ahead = [.ofKind .pipe]) ∧
      call.primary.outcome = .ok (.call (.ofKind .function) none [value, value]) ∧
        call.primary.rest.ahead = [.ofKind .pipe] := by
  intro abs value group call
  have settled (ts : List Token) : (Cursor.insideOpenAbs ts).Settled := by
    rintro m ⟨⟩
    exact Nat.le_refl _
  have expression : IsExpression abs value := by
    constructor <;> with_unfolding_all rfl
  have arguments : Separated IsExpression (abs ++ .ofKind .comma :: abs) [value, value] :=
    .more expression rfl (.one expression)
  have hgroup := (nesting_isolates_pipes group (settled _) [.ofKind .pipe]).1 (.ofKind .parenOpen)
    abs (.ofKind .parenClose) value rfl rfl expression rfl
  have hcall := (nesting_isolates_pipes call (settled _) [.ofKind .pipe]).2 (.ofKind .function)
    (.ofKind .parenOpen) _ (.ofKind .parenClose) _ rfl rfl rfl (.inr arguments) rfl
  exact ⟨⟨hgroup.1, hgroup.2.1⟩, hcall.1, hcall.2.1⟩

end Formula

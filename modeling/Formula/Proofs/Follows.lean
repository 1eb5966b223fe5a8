import Formula.Proofs.Progress

/-!
# Readers that follow a grammar

A reader follows a set of phrases if it reads nothing else, and if an error it reports is the fault
of one token: what stands before that token is the beginning of a phrase, and with that token the
error is the same whatever comes after it. Readers look one token ahead, so a success also depends
on nothing but the tokens read and the one after them.

## Main definitions

* `Reader.Follows` — the property, at one cursor.

## Main statements

* `Reader.Follows.andThen` — a sequence of readers follows the phrases put together.
* `Reader.Follows.items` — a list of items follows the lists of their phrases.
-/

namespace Formula

/-- The token that an error blames, if the input did not end too early. -/
def ParseError.token? : ParseError → Option Token
  | unexpectedToken t _ | trailingTokens t | ambiguousAbs t | duplicateGuard t => some t
  | unexpectedEnd _ => none

/-- A token that stands for its kind. -/
def Token.ofKind (kind : TokenKind) : Token :=
  { kind, lexeme := "", offset := 0 }

/-- The cursor with other tokens ahead of it. -/
def Cursor.withAhead (c : Cursor) (ts : List Token) : Cursor :=
  { c with ahead := ts }

theorem Cursor.peekKind?_withAhead {c : Cursor} {ts : List Token}
    (h : ts.head? = c.ahead.head?) : (c.withAhead ts).peekKind? = c.peekKind? := by
  simp [peekKind?, peek?, withAhead, h]

theorem Cursor.Moves.remaining_le {c c' : Cursor} {ts : List Token} (h : c.Moves ts c') :
    c'.remaining ≤ c.remaining := by
  simp [remaining, h.ahead]

theorem Cursor.Moves.remaining_lt {c c' : Cursor} {ts : List Token} (h : c.Moves ts c')
    (hts : ts ≠ []) : c'.remaining < c.remaining := by
  simp [remaining, h.ahead, List.length_pos_iff.2 hts]

/-- Items with commas between them and the closing token after them. -/
def Terminated {α : Type} (closing : TokenKind) (Item : List Token → α → Prop) (ts : List Token)
    (as : List α) : Prop :=
  ∃ us r, ts = us ++ [r] ∧ r.kind = closing ∧ Separated Item us as

theorem head?_append_eq {ts rest rest' : List Token} (h : rest'.head? = rest.head?) :
    (ts ++ rest').head? = (ts ++ rest).head? := by
  cases ts <;> simp [h]

namespace Reader

variable {α β : Type}

/-- Reads nothing. -/
def pure (a : α) : Reader α :=
  fun c => .ok (a, c)

structure Follows (reader : Reader α) (P : Bool → List Token → α → Prop) (c : Cursor) : Prop where
  success : ∀ a c', reader c = .ok (a, c') → ∃ b ts, c.Moves ts c' ∧ c'.Rests b ∧ P b ts a ∧
    ∀ rest, rest.head? = c'.ahead.head? →
      reader (c.withAhead (ts ++ rest)) = .ok (a, c'.withAhead rest)
  failure : ∀ e, reader c = .error e → ∃ ts rest, c.ahead = ts ++ rest ∧ e.token? = rest.head? ∧
    (∃ b more a, P b (ts ++ more) a) ∧
    ∀ rest', rest'.head? = rest.head? → reader (c.withAhead (ts ++ rest')) = .error e

namespace Follows

variable {reader reader' : Reader α} {P P' : Bool → List Token → α → Prop} {c : Cursor} {a : α}
  {b : Bool} {t : Token} {rest : List Token}

theorem imp (h : reader.Follows P c) (hp : ∀ b ts a, P b ts a → P' b ts a) :
    reader.Follows P' c where
  success a c' hr := by
    obtain ⟨b, ts, hm, hb, good, same⟩ := h.success a c' hr
    exact ⟨b, ts, hm, hb, hp _ _ _ good, same⟩
  failure e hr := by
    obtain ⟨ts, rest, hc, ht, ⟨b, more, a, good⟩, same⟩ := h.failure e hr
    exact ⟨ts, rest, hc, ht, ⟨b, more, a, hp _ _ _ good⟩, same⟩

/-- Readers that agree wherever the same token comes next follow the same phrases. -/
theorem congr (h : reader'.Follows P c)
    (hr : ∀ rest, rest.head? = c.ahead.head? →
      reader (c.withAhead rest) = reader' (c.withAhead rest)) : reader.Follows P c where
  success a c' hs := by
    obtain ⟨b, ts, hm, hb, good, same⟩ := h.success a c' ((hr _ rfl).symm.trans hs)
    refine ⟨b, ts, hm, hb, good, fun rest hrest => ?_⟩
    rw [hr _ (by rw [hm.ahead]; exact head?_append_eq hrest), same rest hrest]
  failure e hs := by
    obtain ⟨ts, rest, hc, ht, good, same⟩ := h.failure e ((hr _ rfl).symm.trans hs)
    refine ⟨ts, rest, hc, ht, good, fun rest' hrest => ?_⟩
    rw [hr _ (by rw [hc]; exact head?_append_eq hrest), same rest' hrest]

theorem pure (hb : c.Rests b) (good : P b [] a) : (pure a).Follows P c where
  success a' c' hs := by
    cases hs
    exact ⟨b, [], .refl c, hb, good, fun rest _ => rfl⟩
  failure e hs := by cases hs

/-- An error at the next token, before which a phrase can be completed. -/
theorem error {e : ParseError} {more : List Token}
    (hr : ∀ rest, rest.head? = c.ahead.head? → reader (c.withAhead rest) = .error e)
    (ht : e.token? = c.ahead.head?) (good : P b more a) : reader.Follows P c where
  success a' c' hs := by
    have := (hr _ rfl).symm.trans hs
    cases this
  failure e' hs := by
    cases (hr _ rfl).symm.trans hs
    exact ⟨[], c.ahead, rfl, ht, ⟨b, more, a, good⟩, hr⟩

theorem error_of_nil {e : ParseError} {more : List Token} (hc : c.ahead = [])
    (hr : reader (c.withAhead []) = .error e) (ht : e.token? = none) (good : P b more a) :
    reader.Follows P c := by
  refine error (fun rest hrest => ?_) (by rw [hc, ht]; rfl) good
  rw [hc, List.head?_nil, List.head?_eq_none_iff] at hrest
  rw [hrest, hr]

theorem error_of_cons {e : ParseError} {more : List Token} (hc : c.ahead = t :: rest)
    (hr : ∀ rest, reader (c.withAhead (t :: rest)) = .error e) (ht : e.token? = some t)
    (good : P b more a) : reader.Follows P c := by
  refine error (fun rest' hrest => ?_) (by rw [hc, ht]; rfl) good
  rw [hc, List.head?_cons, List.head?_eq_some_iff] at hrest
  obtain ⟨us, rfl⟩ := hrest
  exact hr us

/-- Reading a token and going on. -/
theorem token (next : Reader α) (hc : c.ahead = t :: rest)
    (hr : ∀ rest, reader (c.withAhead (t :: rest)) = next (c.read t rest))
    (h : next.Follows (fun b ts a => P b (t :: ts) a) (c.read t rest)) : reader.Follows P c where
  success a c' hs := by
    have hs' : next (c.read t rest) = .ok (a, c') := by rw [← hr, ← hc]; exact hs
    obtain ⟨b, ts, hm, hb, good, same⟩ := h.success a c' hs'
    exact ⟨b, t :: ts, .cons hc hm, hb, good,
      fun rest' hrest => (hr (ts ++ rest')).trans (same rest' hrest)⟩
  failure e hs := by
    have hs' : next (c.read t rest) = .error e := by rw [← hr, ← hc]; exact hs
    obtain ⟨ts, rest', hc', ht, good, same⟩ := h.failure e hs'
    exact ⟨t :: ts, rest', by rw [hc, show rest = ts ++ rest' from hc']; rfl, ht, good,
      fun rest'' hrest => (hr (ts ++ rest'')).trans (same rest'' hrest)⟩

/-- Two readers in sequence: the second one starts where the first one stopped, and what the first
one reads can always be completed. -/
theorem andThen {next : α → Reader β} {Q : Bool → List Token → β → Prop}
    (h : reader.Follows P c)
    (hn : ∀ b ts a c', c.Moves ts c' → c'.Rests b → P b ts a →
      (next a).Follows (fun b us x => Q b (ts ++ us) x) c')
    (hq : ∀ b ts a, P b ts a → ∃ b us x, Q b (ts ++ us) x) :
    (reader.andThen next).Follows Q c where
  success x c₂ hs := by
    cases hr : reader c with
    | error e => rw [andThen_error hr] at hs; cases hs
    | ok p =>
      obtain ⟨a, c₁⟩ := p
      rw [andThen_ok hr] at hs
      obtain ⟨b, ts, hm, hb, good, same⟩ := h.success a c₁ hr
      obtain ⟨b', us, hm', hb', good', same'⟩ := (hn b ts a c₁ hm hb good).success x c₂ hs
      refine ⟨b', ts ++ us, hm.trans hm', hb', good', fun rest hrest => ?_⟩
      have hhead : (us ++ rest).head? = c₁.ahead.head? := by
        rw [hm'.ahead]
        exact head?_append_eq hrest
      rw [List.append_assoc, andThen_ok (same (us ++ rest) hhead)]
      exact same' rest hrest
  failure e hs := by
    cases hr : reader c with
    | error e' =>
      cases (andThen_error hr).symm.trans hs
      obtain ⟨ts, rest, hc, ht, ⟨b, more, a, good⟩, same⟩ := h.failure e hr
      obtain ⟨b', us, x, good'⟩ := hq _ _ _ good
      exact ⟨ts, rest, hc, ht, ⟨b', more ++ us, x, by rwa [← List.append_assoc]⟩,
        fun rest' hrest => andThen_error (same rest' hrest)⟩
    | ok p =>
      obtain ⟨a, c₁⟩ := p
      rw [andThen_ok hr] at hs
      obtain ⟨b, ts, hm, hb, good, same⟩ := h.success a c₁ hr
      obtain ⟨us, rest, hc, ht, ⟨b', more, x, good'⟩, same'⟩ :=
        (hn b ts a c₁ hm hb good).failure e hs
      refine ⟨ts ++ us, rest, by rw [hm.ahead, hc, List.append_assoc], ht,
        ⟨b', more, x, by rwa [List.append_assoc]⟩, fun rest' hrest => ?_⟩
      -- the first reader sees at most one token of what the second one reads
      have hhead : (us ++ rest').head? = c₁.ahead.head? := by
        rw [hc]
        exact head?_append_eq hrest
      rw [List.append_assoc, andThen_ok (same (us ++ rest') hhead)]
      exact same' rest' hrest

theorem map {f : α → β} (h : reader.Follows P c) :
    (reader.map f).Follows (fun b ts x => ∃ a, P b ts a ∧ x = f a) c where
  success x c' hs := by
    cases hr : reader c with
    | error e => rw [map_error hr] at hs; cases hs
    | ok p =>
      cases (map_ok hr).symm.trans hs
      obtain ⟨b, ts, hm, hb, good, same⟩ := h.success _ _ hr
      exact ⟨b, ts, hm, hb, ⟨_, good, rfl⟩, fun rest hrest => map_ok (same rest hrest)⟩
  failure e hs := by
    cases hr : reader c with
    | error e' =>
      cases (map_error hr).symm.trans hs
      obtain ⟨ts, rest, hc, ht, ⟨b, more, a, good⟩, same⟩ := h.failure e hr
      exact ⟨ts, rest, hc, ht, ⟨b, more, _, a, good, rfl⟩,
        fun rest' hrest => map_error (same rest' hrest)⟩
    | ok p => rw [map_ok hr] at hs; cases hs

/-- On a level of its own a phrase closes no absolute value of this level. -/
theorem nested (h : reader.Follows P c.enter) :
    reader.nested.Follows (fun b ts a => b = false ∧ ∃ b', P b' ts a) c where
  success a c' hs := by
    cases hr : reader c.enter with
    | error e => rw [nested_error hr] at hs; cases hs
    | ok p =>
      cases (nested_ok hr).symm.trans hs
      obtain ⟨b, ts, hm, hb, good, same⟩ := h.success _ _ hr
      refine ⟨false, ts, hm.leave, hb.leave hm, ⟨rfl, b, good⟩, fun rest hrest => ?_⟩
      have hahead : p.2.leave.ahead = p.2.ahead := by
        unfold Cursor.leave
        split <;> rfl
      rw [hahead] at hrest
      refine (nested_ok (same rest hrest)).trans ?_
      simp only [Cursor.leave, Cursor.withAhead]
      split <;> rfl
  failure e hs := by
    cases hr : reader c.enter with
    | error e' =>
      cases (nested_error hr).symm.trans hs
      obtain ⟨ts, rest, hc, ht, ⟨b, more, a, good⟩, same⟩ := h.failure e hr
      exact ⟨ts, rest, hc, ht, ⟨false, more, a, rfl, b, good⟩,
        fun rest' hrest => nested_error (same rest' hrest)⟩
    | ok p => rw [nested_ok hr] at hs; cases hs

theorem insideAbs (h : reader.Follows P (c.setAbsOpen true)) : reader.insideAbs.Follows P c where
  success a c' hs := by
    cases hr : reader (c.setAbsOpen true) with
    | error e => rw [insideAbs_error hr] at hs; cases hs
    | ok p =>
      cases (insideAbs_ok hr).symm.trans hs
      obtain ⟨b, ts, hm, hb, good, same⟩ := h.success _ _ hr
      exact ⟨b, ts, hm.setAbsOpen, hb.setAbsOpen c.absOpen, good,
        fun rest hrest => insideAbs_ok (c := c.withAhead (ts ++ rest)) (same rest hrest)⟩
  failure e hs := by
    cases hr : reader (c.setAbsOpen true) with
    | error e' =>
      cases (insideAbs_error hr).symm.trans hs
      obtain ⟨ts, rest, hc, ht, good, same⟩ := h.failure e hr
      exact ⟨ts, rest, hc, ht, good, fun rest' hrest => insideAbs_error (same rest' hrest)⟩
    | ok p => rw [insideAbs_ok hr] at hs; cases hs

/-- What is read starts with the next token. -/
theorem starting (h : reader.Follows P c) (hc : c.ahead = t :: rest)
    (hne : ∀ b ts a, P b ts a → ts ≠ []) {us : List Token} (good : P b (t :: us) a) :
    reader.Follows (fun b ts a => P b ts a ∧ ts.head? = some t) c where
  success a' c' hs := by
    obtain ⟨b', ts, hm, hb, good', same⟩ := h.success a' c' hs
    refine ⟨b', ts, hm, hb, ⟨good', ?_⟩, same⟩
    obtain ⟨t', ts', rfl⟩ := List.exists_cons_of_ne_nil (hne _ _ _ good')
    have := hc.symm.trans hm.ahead
    simp_all
  failure e hs := by
    obtain ⟨ts, rest', hc', ht, ⟨b', more, a', good'⟩, same⟩ := h.failure e hs
    cases ts with
    | nil => exact ⟨[], rest', hc', ht, ⟨b, t :: us, a, good, rfl⟩, same⟩
    | cons t' ts =>
      have := hc.symm.trans hc'
      refine ⟨t' :: ts, rest', hc', ht, ⟨b', more, a', good', ?_⟩, same⟩
      simp_all

/-! ## Tokens and lists -/

theorem expect (settled : c.Settled) (kind : TokenKind) :
    (expect kind).Follows (fun b ts t => b = false ∧ ts = [t] ∧ t.kind = kind) c := by
  have good : (Token.ofKind kind).kind = kind := rfl
  cases hc : c.ahead with
  | nil => exact error_of_nil hc (expect_of_nil rfl) rfl ⟨rfl, rfl, good⟩
  | cons t rest =>
    by_cases ht : t.kind = kind
    · exact token (Reader.pure t) hc (fun rest => expect_of_kind rfl ht)
        (pure (settled.rests_read t rest) ⟨rfl, rfl, ht⟩)
    · exact error_of_cons hc (fun rest => expect_of_ne rfl ht) rfl ⟨rfl, rfl, good⟩

theorem closeAbs (settled : c.Settled) :
    closeAbs.Follows (fun b ts t => b = true ∧ ts = [t] ∧ t.kind = .pipe) c where
  success t c' hs := by
    cases hr : Reader.expect .pipe c with
    | error e => rw [closeAbs_eq, hr] at hs; cases hs
    | ok p =>
      rw [closeAbs_eq, hr] at hs
      cases hs
      obtain ⟨b, ts, hm, -, ⟨-, hts, hk⟩, same⟩ := (expect settled .pipe).success _ _ hr
      refine ⟨true, ts, ⟨hm.behind, hm.ahead, hm.absOpen, hm.outer⟩, p.2.rests_markClosing,
        ⟨rfl, hts, hk⟩, fun rest hrest => ?_⟩
      rw [closeAbs_eq, same rest hrest]
      rfl
  failure e hs := by
    cases hr : Reader.expect .pipe c with
    | error e' =>
      rw [closeAbs_eq, hr] at hs
      cases hs
      obtain ⟨ts, rest, hc, ht, ⟨b, more, t, -, good⟩, same⟩ := (expect settled .pipe).failure _ hr
      refine ⟨ts, rest, hc, ht, ⟨true, more, t, rfl, good⟩, fun rest' hrest => ?_⟩
      rw [closeAbs_eq, same rest' hrest]
      rfl
    | ok p => rw [closeAbs_eq, hr] at hs; cases hs

section Lists

variable {item : (c : Cursor) → Step c.remaining α} {closing : TokenKind}
  {Item : List Token → α → Prop}

theorem afterItem {ts : List Token} (hne : closing ≠ .comma) (settled : c.Settled)
    (good : Item ts a)
    (others : ∀ t rest, c.ahead = t :: rest →
      (items item closing).Follows (fun b ts as => b = false ∧ Terminated closing Item ts as)
        (c.read t rest)) :
    (afterItem item closing a).Follows
      (fun b us as => b = false ∧ Terminated closing Item (ts ++ us) as) c := by
  have done (r : Token) (hr : r.kind = closing) : Terminated closing Item (ts ++ [r]) [a] :=
    ⟨ts, r, rfl, hr, .one good⟩
  cases hc : c.ahead with
  | nil => exact error_of_nil hc rfl rfl ⟨rfl, done (.ofKind closing) rfl⟩
  | cons t rest =>
    by_cases hcomma : t.kind = .comma
    · refine token ((items item closing).map (a :: ·)) hc
        (fun rest => by simp [Reader.afterItem, Cursor.withAhead, hcomma]; rfl)
        ((others t rest hc).map.imp ?_)
      rintro b us as ⟨as', ⟨rfl, vs, r, rfl, hr, list⟩, rfl⟩
      exact ⟨rfl, ts ++ t :: vs, r, by simp, hr, .more good hcomma list⟩
    by_cases hclosing : t.kind = closing
    · refine token (Reader.pure [a]) hc
        (fun rest => by simp [Reader.afterItem, Cursor.withAhead, hclosing, hne]; rfl)
        (pure (settled.rests_read t rest) ⟨rfl, done t hclosing⟩)
    · exact error_of_cons hc
        (fun rest => by simp [Reader.afterItem, Cursor.withAhead, hcomma, hclosing]; rfl) rfl
        ⟨rfl, done (.ofKind closing) rfl⟩

/-- A list follows the phrases of its items if each item does, here and further on. -/
theorem items (hne : closing ≠ .comma) (c : Cursor) (settled : c.Settled)
    (hi : ∀ c' : Cursor, c'.Settled → c'.remaining ≤ c.remaining →
      (ofParser item).Follows (fun _ ts a => Item ts a) c') :
    (items item closing).Follows
      (fun b ts as => b = false ∧ Terminated closing Item ts as) c := by
  rw [items_eq]
  refine (hi c settled (Nat.le_refl _)).andThen (fun b ts a c' hm hb good => ?_) ?_
  · refine afterItem hne hb.settled good fun t rest hc => ?_
    have smaller : (c'.read t rest).remaining < c.remaining :=
      Nat.lt_of_lt_of_le (Cursor.remaining_read hc) hm.remaining_le
    exact items hne _ (hb.settled.rests_read t rest).settled
      fun c₂ hs hle => hi c₂ hs (Nat.le_trans hle (Nat.le_of_lt smaller))
  · intro b ts a good
    exact ⟨false, [.ofKind closing], [a], rfl, ts, _, rfl, rfl, .one good⟩
termination_by c.remaining

theorem commaList (hne : closing ≠ .comma) (settled : c.Settled)
    (hi : ∀ c' : Cursor, c'.Settled → c'.remaining ≤ c.remaining →
      (ofParser item).Follows (fun _ ts a => Item ts a) c') :
    (commaList item closing).Follows (fun b ts as => b = false ∧
      ((∃ r : Token, ts = [r] ∧ r.kind = closing ∧ as = []) ∨
        Terminated closing Item ts as)) c := by
  obtain ⟨t, rest, hc, ht⟩ | hk := c.next_cases closing
  · exact token (Reader.pure []) hc (fun rest => commaList_of_closing rfl ht)
      (pure (settled.rests_read t rest) ⟨rfl, .inl ⟨t, rfl, ht, rfl⟩⟩)
  · refine ((items hne c settled hi).imp fun b ts as good => ⟨good.1, .inr good.2⟩).congr ?_
    intro rest hrest
    exact commaList_of_ne (by rwa [Cursor.peekKind?_withAhead hrest])

end Lists

end Follows

end Reader

end Formula

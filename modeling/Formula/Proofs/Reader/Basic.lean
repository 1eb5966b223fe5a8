import Formula.Cursor.Step

/-!
# Readers

A parser step carries bounds that make the recursion of the grammar well-founded. Once the parsers
are defined the bounds say nothing more, and a reader forgets them: it takes a cursor to a value and
the cursor after it, or to an error. Every parser has a reader, with one equation for each thing
that it can do; the equations of tokens and lists are here.

## Main definitions

* `Reader.ofParser` — a parser without its bounds.
* `Reader.andThen`, `Reader.map`, `Reader.nested` — the ways in which readers are put together.
-/

namespace Formula

abbrev Reader (α : Type) : Type :=
  Cursor → Except ParseError (α × Cursor)

namespace Step

variable {α β : Type} {m n : Nat}

/-- The value and the cursor of a success, or the error. -/
def result : Step n α → Except ParseError (α × Cursor)
  | done value rest _ => .ok (value, rest)
  | fault error _ _ => .error error

@[simp] theorem result_done (value : α) (rest : Cursor) (h : rest.remaining < n) :
    (done value rest h).result = .ok (value, rest) := rfl

@[simp] theorem result_fault (error : ParseError) (rest : Cursor) (h : rest.remaining ≤ n) :
    (fault error rest h : Step n α).result = .error error := rfl

@[simp] theorem result_widen (h : m ≤ n) (s : Step m α) : (s.widen h).result = s.result := by
  cases s <;> rfl

@[simp] theorem result_map (f : α → β) (s : Step n α) :
    (s.map f).result = s.result.map fun p => (f p.1, p.2) := by
  cases s <;> rfl

@[simp] theorem result_leave (s : Step n α) :
    s.leave.result = s.result.map fun p => (p.1, p.2.leave) := by
  cases s <;> rfl

@[simp] theorem result_setAbsOpen (isOpen : Bool) (s : Step n α) :
    (s.setAbsOpen isOpen).result = s.result.map fun p => (p.1, p.2.setAbsOpen isOpen) := by
  cases s <;> rfl

theorem result_bind {s : Step n α} {f : (a : α) → (c : Cursor) → c.remaining < n → Step n β}
    (next : α → Reader β) (h : ∀ a c hc, (f a c hc).result = next a c) :
    (s.bind f).result = s.result.bind fun p => next p.1 p.2 := by
  cases s with
  | done value rest shorter => exact h value rest shorter
  | fault => rfl

theorem result_andThen {s : Step n α}
    {f : (a : α) → (c : Cursor) → c.remaining < n → Step c.remaining β}
    (next : α → Reader β) (h : ∀ a c hc, (f a c hc).result = next a c) :
    (s.andThen f).result = s.result.bind fun p => next p.1 p.2 :=
  result_bind next fun a c hc => by rw [result_widen, h]

theorem outcome_eq_result (s : Step n α) : s.outcome = s.result.map Prod.fst := by
  cases s <;> rfl

theorem result_eq_ok_iff {s : Step n α} {a : α} {c : Cursor} :
    s.result = .ok (a, c) ↔ s.outcome = .ok a ∧ s.rest = c := by
  cases s <;> simp [result, outcome, rest]

theorem remaining_rest_le (s : Step n α) : s.rest.remaining ≤ n := by
  cases s with
  | done _ _ shorter => exact Nat.le_of_lt shorter
  | fault _ _ within => exact within

theorem remaining_rest_lt {s : Step n α} {a : α} (h : s.outcome = .ok a) :
    s.rest.remaining < n := by
  cases s with
  | done _ _ shorter => exact shorter
  | fault => cases h

end Step

namespace Cursor

theorem remaining_lt_succ (c : Cursor) : c.remaining < c.remaining + 1 :=
  Nat.lt_succ_self _

/-- The cursor after its next token, given that token and what follows it. -/
def read (c : Cursor) (t : Token) (rest : List Token) : Cursor :=
  { c with behind := t :: c.behind, ahead := rest }

theorem remaining_read {c : Cursor} {t : Token} {rest : List Token} (h : c.ahead = t :: rest) :
    (c.read t rest).remaining < c.remaining := by
  simp [remaining, read, h]

theorem next?_nil {c : Cursor} (h : c.ahead = []) : c.next? = none := by
  unfold next?
  split
  · rfl
  · simp_all

theorem next?_cons {c : Cursor} {t : Token} {rest : List Token} (h : c.ahead = t :: rest) :
    c.next? = some ⟨t, c.read t rest, remaining_read h⟩ := by
  unfold next?
  split
  · simp_all
  · next t' rest' h' =>
    rw [h] at h'
    cases h'
    rfl

theorem accept?_cons {c : Cursor} {t : Token} {rest : List Token} {kind : TokenKind}
    (h : c.ahead = t :: rest) (ht : t.kind = kind) :
    c.accept? kind = some ⟨t, c.read t rest, remaining_read h⟩ := by
  simp [accept?, next?_cons h, ht]

theorem accept?_ne {c : Cursor} {kind : TokenKind} (h : c.peekKind? ≠ some kind) :
    c.accept? kind = none := by
  unfold accept?
  cases hc : c.ahead with
  | nil => simp [next?_nil hc]
  | cons t rest => simp_all [next?_cons hc, peekKind?, peek?]

theorem peekKind?_cons {c : Cursor} {t : Token} {rest : List Token} (h : c.ahead = t :: rest) :
    c.peekKind? = some t.kind := by
  simp [peekKind?, peek?, h]

/-- Either a token of the given kind comes next, or something else does. -/
theorem next_cases (c : Cursor) (kind : TokenKind) :
    (∃ t rest, c.ahead = t :: rest ∧ t.kind = kind) ∨ c.peekKind? ≠ some kind := by
  cases h : c.ahead with
  | nil => exact .inr (by simp [peekKind?, peek?, h])
  | cons t rest =>
    by_cases ht : t.kind = kind
    · exact .inl ⟨t, rest, rfl, ht⟩
    · exact .inr (by simp [peekKind?_cons h, ht])

/-- Either an operator of the given sort comes next, or something else does. -/
theorem operator_cases {β : Type} (c : Cursor) (ofKind? : TokenKind → Option β) :
    (∃ t rest op, c.ahead = t :: rest ∧ ofKind? t.kind = some op) ∨
      ∀ t ∈ c.ahead.head?, ofKind? t.kind = none := by
  cases c.ahead with
  | nil => exact .inr nofun
  | cons t rest =>
    cases ht : ofKind? t.kind with
    | none => exact .inr (by simpa using ht)
    | some op => exact .inl ⟨t, rest, op, rfl, ht⟩

end Cursor

namespace Reader

variable {α β : Type}

def andThen (first : Reader α) (next : α → Reader β) : Reader β :=
  fun c => (first c).bind fun p => next p.1 p.2

def map (f : α → β) (reader : Reader α) : Reader β :=
  fun c => (reader c).map fun p => (f p.1, p.2)

/-- Reads one nesting level deeper. -/
def nested (reader : Reader α) : Reader α :=
  fun c => (reader c.enter).map fun p => (p.1, p.2.leave)

/-- Reads with an absolute value open on the current level. -/
def insideAbs (reader : Reader α) : Reader α :=
  fun c => (reader (c.setAbsOpen true)).map fun p => (p.1, p.2.setAbsOpen c.absOpen)

theorem andThen_ok {first : Reader α} {next : α → Reader β} {c c' : Cursor} {a : α}
    (h : first c = .ok (a, c')) : first.andThen next c = next a c' := by
  simp [andThen, h, Except.bind]

theorem andThen_error {first : Reader α} {next : α → Reader β} {c : Cursor} {e : ParseError}
    (h : first c = .error e) : first.andThen next c = .error e := by
  simp [andThen, h, Except.bind]

theorem map_ok {f : α → β} {reader : Reader α} {c c' : Cursor} {a : α}
    (h : reader c = .ok (a, c')) : reader.map f c = .ok (f a, c') := by
  simp [map, h, Except.map]

theorem map_error {f : α → β} {reader : Reader α} {c : Cursor} {e : ParseError}
    (h : reader c = .error e) : reader.map f c = .error e := by
  simp [map, h, Except.map]

theorem nested_ok {reader : Reader α} {c c' : Cursor} {a : α}
    (h : reader c.enter = .ok (a, c')) : reader.nested c = .ok (a, c'.leave) := by
  simp [nested, h, Except.map]

theorem nested_error {reader : Reader α} {c : Cursor} {e : ParseError}
    (h : reader c.enter = .error e) : reader.nested c = .error e := by
  simp [nested, h, Except.map]

theorem insideAbs_ok {reader : Reader α} {c c' : Cursor} {a : α}
    (h : reader (c.setAbsOpen true) = .ok (a, c')) :
    reader.insideAbs c = .ok (a, c'.setAbsOpen c.absOpen) := by
  simp [insideAbs, h, Except.map]

theorem insideAbs_error {reader : Reader α} {c : Cursor} {e : ParseError}
    (h : reader (c.setAbsOpen true) = .error e) : reader.insideAbs c = .error e := by
  simp [insideAbs, h, Except.map]

/-- A parser without its bounds. -/
def ofParser (parser : (c : Cursor) → Step c.remaining α) : Reader α :=
  fun c => (parser c).result

/-! ## Results of combined readers -/

theorem nested_eq_ok {reader : Reader α} {c c' : Cursor} {a : α}
    (h : reader.nested c = .ok (a, c')) :
    ∃ c₁, reader c.enter = .ok (a, c₁) ∧ c' = c₁.leave := by
  cases hr : reader c.enter with
  | error e =>
    rw [nested_error hr] at h
    cases h
  | ok p =>
    cases (nested_ok hr).symm.trans h
    exact ⟨_, rfl, rfl⟩

theorem andThen_eq_error {first : Reader α} {next : α → Reader β} {c : Cursor} {e : ParseError}
    (h : first.andThen next c = .error e) :
    first c = .error e ∨ ∃ a c', first c = .ok (a, c') ∧ next a c' = .error e := by
  cases hf : first c with
  | error e' =>
    cases (andThen_error hf).symm.trans h
    exact .inl rfl
  | ok p => exact .inr ⟨_, _, rfl, (andThen_ok hf).symm.trans h⟩

theorem map_result_eq_error {f : α → β} {x : Except ParseError α} {e : ParseError}
    (h : x.map f = .error e) : x = .error e := by
  cases x with
  | error e' =>
    cases h
    rfl
  | ok a => cases h

theorem map_eq_error {f : α → β} {reader : Reader α} {c : Cursor} {e : ParseError}
    (h : reader.map f c = .error e) : reader c = .error e :=
  map_result_eq_error h

theorem nested_eq_error {reader : Reader α} {c : Cursor} {e : ParseError}
    (h : reader.nested c = .error e) : reader c.enter = .error e :=
  map_result_eq_error h

theorem insideAbs_eq_error {reader : Reader α} {c : Cursor} {e : ParseError}
    (h : reader.insideAbs c = .error e) : reader (c.setAbsOpen true) = .error e :=
  map_result_eq_error h

/-! ## Single tokens -/

def expect (kind : TokenKind) : Reader Token :=
  ofParser (·.expect kind)

def closeAbs : Reader Token :=
  ofParser (·.closeAbs)

section Equations

variable {c : Cursor} {t : Token} {rest : List Token}

theorem expect_of_kind {kind : TokenKind} (h : c.ahead = t :: rest) (ht : t.kind = kind) :
    expect kind c = .ok (t, c.read t rest) := by
  simp [expect, ofParser, Cursor.expect, Cursor.next?_cons h, ht]

theorem expect_of_ne {kind : TokenKind} (h : c.ahead = t :: rest) (ht : t.kind ≠ kind) :
    expect kind c = .error (.unexpectedToken t (.kind kind)) := by
  simp [expect, ofParser, Cursor.expect, Cursor.next?_cons h, ht]

theorem expect_of_nil {kind : TokenKind} (h : c.ahead = []) :
    expect kind c = .error (.unexpectedEnd (.kind kind)) := by
  simp [expect, ofParser, Cursor.expect, Cursor.next?_nil h]

theorem closeAbs_eq (c : Cursor) :
    closeAbs c = (expect .pipe c).map fun p => (p.1, p.2.markClosing) := by
  simp only [closeAbs, expect, ofParser, Cursor.closeAbs]
  split <;> next h => rw [h]; rfl

theorem closeAbs_of_pipe (h : c.ahead = t :: rest) (ht : t.kind = .pipe) :
    closeAbs c = .ok (t, (c.read t rest).markClosing) := by
  rw [closeAbs_eq, expect_of_kind h ht]
  rfl

/-! ## Lists -/

/-- The items of a list, from the first item to the closing token. -/
def items (item : (c : Cursor) → Step c.remaining α) (closing : TokenKind) : Reader (List α) :=
  ofParser fun c => c.itemsOf item closing

/-- What follows an item: a comma and further items, or the closing token. -/
def afterItem (item : (c : Cursor) → Step c.remaining α) (closing : TokenKind) (a : α) :
    Reader (List α) := fun c =>
  match c.ahead with
  | [] => .error (.unexpectedEnd (.commaOr closing))
  | t :: rest =>
    if t.kind = .comma then (items item closing).map (a :: ·) (c.read t rest)
    else if t.kind = closing then .ok ([a], c.read t rest)
    else .error (.unexpectedToken t (.commaOr closing))

/-- The bound that `Cursor.items` is given does not show in its result. -/
theorem result_items (item : (c : Cursor) → Step c.remaining α) (closing : TokenKind) {n : Nat}
    (c : Cursor) (h : c.remaining ≤ n) :
    (Cursor.items (fun c' _ => item c') closing c h).result =
      (ofParser item).andThen (afterItem item closing) c := by
  rw [Cursor.items]
  refine Step.result_andThen (afterItem item closing) fun a c' hc => ?_
  unfold afterItem
  cases hc' : c'.ahead with
  | nil => rw [Cursor.next?_nil hc']; rfl
  | cons t rest =>
    have smaller : (c'.read t rest).remaining < c.remaining :=
      Nat.lt_trans (Cursor.remaining_read hc') hc
    rw [Cursor.next?_cons hc']
    dsimp only
    split
    · rw [Step.result_widen, Step.result_map, map, items, ofParser,
        result_items item closing (c'.read t rest), result_items item closing (c'.read t rest)]
    · split <;> rfl
termination_by c.remaining

theorem items_eq (item : (c : Cursor) → Step c.remaining α) (closing : TokenKind) :
    items item closing = (ofParser item).andThen (afterItem item closing) :=
  funext fun c => result_items item closing c (Nat.le_refl _)

theorem items_of_closing {item : (c : Cursor) → Step c.remaining α} {closing : TokenKind} {a : α}
    {c₁ : Cursor} (hi : ofParser item c = .ok (a, c₁)) (h : c₁.ahead = t :: rest)
    (ht : t.kind = closing) (hne : closing ≠ .comma) :
    items item closing c = .ok ([a], c₁.read t rest) := by
  rw [items_eq, andThen_ok hi, afterItem, h]
  simp [ht, hne]

theorem items_of_comma {item : (c : Cursor) → Step c.remaining α} {closing : TokenKind} {a : α}
    {as : List α} {c₁ c₂ : Cursor} (hi : ofParser item c = .ok (a, c₁)) (h : c₁.ahead = t :: rest)
    (ht : t.kind = .comma) (ho : items item closing (c₁.read t rest) = .ok (as, c₂)) :
    items item closing c = .ok (a :: as, c₂) := by
  rw [items_eq, andThen_ok hi, afterItem, h]
  simp only [ht, if_true]
  exact map_ok ho

/-- A list of items up to the closing token; it may be empty. -/
def commaList (item : (c : Cursor) → Step c.remaining α) (closing : TokenKind) :
    Reader (List α) :=
  ofParser fun c => c.commaListOf item closing

theorem commaList_of_closing {item : (c : Cursor) → Step c.remaining α} {closing : TokenKind}
    (h : c.ahead = t :: rest) (ht : t.kind = closing) :
    commaList item closing c = .ok ([], c.read t rest) := by
  simp [commaList, ofParser, Cursor.commaList, Cursor.accept?_cons h ht]

theorem commaList_of_ne {item : (c : Cursor) → Step c.remaining α} {closing : TokenKind}
    (h : c.peekKind? ≠ some closing) : commaList item closing c = items item closing c := by
  simp [commaList, items, ofParser, Cursor.commaList, Cursor.accept?_ne h]

end Equations

end Reader

end Formula

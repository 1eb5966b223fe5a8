import Formula.Cursor
import Formula.Error

/-!
# Parser steps

The result of running a parser: a value or an error, and the cursor as the parser left it, also
after an error. A parser that succeeds has read at least one token, and one that fails has read
none back; these bounds are what makes the recursion of the grammar well-founded.
-/

namespace Formula

inductive Step (bound : Nat) (α : Type) where
  | done (value : α) (rest : Cursor) (shorter : rest.remaining < bound)
  | fault (error : ParseError) (rest : Cursor) (within : rest.remaining ≤ bound)

namespace Step

variable {α β : Type} {m n : Nat}

def outcome : Step n α → Except ParseError α
  | done value _ _ => .ok value
  | fault error _ _ => .error error

def rest : Step n α → Cursor
  | done _ rest _ => rest
  | fault _ rest _ => rest

/-- Fails at the cursor where the parser started. -/
abbrev faultAt (error : ParseError) (c : Cursor) : Step c.remaining α :=
  fault error c (Nat.le_refl _)

/-- Fails at a cursor that tokens have been read before. -/
abbrev faultAfter (error : ParseError) (c : Cursor) (h : c.remaining < n) : Step n α :=
  fault error c (Nat.le_of_lt h)

def widen (h : m ≤ n) : Step m α → Step n α
  | done value rest shorter => done value rest (Nat.lt_of_lt_of_le shorter h)
  | fault error rest within => fault error rest (Nat.le_trans within h)

def map (f : α → β) : Step n α → Step n β
  | done value rest shorter => done (f value) rest shorter
  | fault error rest within => fault error rest within

/-- Goes on after a success, within the same bound. -/
def bind (s : Step n α) (f : (value : α) → (c : Cursor) → c.remaining < n → Step n β) : Step n β :=
  match s with
  | done value rest shorter => f value rest shorter
  | fault error rest within => fault error rest within

/-- Goes on after a success with a parser that reads at least one more token. -/
def andThen (s : Step n α)
    (f : (value : α) → (c : Cursor) → c.remaining < n → Step c.remaining β) : Step n β :=
  s.bind fun value c h => (f value c h).widen (Nat.le_of_lt h)

/-- Returns to the surrounding nesting level, after a success and after an error. -/
def leave : Step n α → Step n α
  | done value rest shorter => done value rest.leave (by simpa using shorter)
  | fault error rest within => fault error rest.leave (by simpa using within)

/-- Sets the flag of the current level, after a success and after an error. -/
def setAbsOpen (isOpen : Bool) : Step n α → Step n α
  | done value rest shorter => done value (rest.setAbsOpen isOpen) shorter
  | fault error rest within => fault error (rest.setAbsOpen isOpen) within

@[simp] theorem outcome_widen (h : m ≤ n) (s : Step m α) : (s.widen h).outcome = s.outcome := by
  cases s <;> rfl

@[simp] theorem rest_widen (h : m ≤ n) (s : Step m α) : (s.widen h).rest = s.rest := by
  cases s <;> rfl

@[simp] theorem outcome_leave (s : Step n α) : s.leave.outcome = s.outcome := by
  cases s <;> rfl

@[simp] theorem rest_leave (s : Step n α) : s.leave.rest = s.rest.leave := by
  cases s <;> rfl

@[simp] theorem outcome_setAbsOpen (isOpen : Bool) (s : Step n α) :
    (s.setAbsOpen isOpen).outcome = s.outcome := by
  cases s <;> rfl

@[simp] theorem rest_setAbsOpen (isOpen : Bool) (s : Step n α) :
    (s.setAbsOpen isOpen).rest = s.rest.setAbsOpen isOpen := by
  cases s <;> rfl

end Step

namespace Cursor

/-- Reads a token of the given kind; another token stays unread. -/
def expect (c : Cursor) (kind : TokenKind) : Step c.remaining Token :=
  match c.next? with
  | none => .faultAt (.unexpectedEnd (.kind kind)) c
  | some t =>
    if t.token.kind = kind then .done t.token t.rest t.shorter
    else .faultAt (.unexpectedToken t.token (.kind kind)) c

/-- Reads the pipe that closes an absolute value on the current level. -/
def closeAbs (c : Cursor) : Step c.remaining Token :=
  match c.expect .pipe with
  | .done pipe rest shorter => .done pipe rest.markClosing shorter
  | .fault error rest within => .fault error rest within

/-- Runs a parser one nesting level deeper. -/
def nested {α : Type} (c : Cursor) (parse : (c : Cursor) → Step c.remaining α) :
    Step c.remaining α :=
  (parse c.enter).leave

/-- The items of a list, from the first item to the closing token. A token that neither goes on
nor ends the list is read and reported. -/
def items {α : Type} {n : Nat} (item : (c : Cursor) → c.remaining ≤ n → Step c.remaining α)
    (closing : TokenKind) (c : Cursor) (h : c.remaining ≤ n) : Step c.remaining (List α) :=
  (item c h).andThen fun value rest hr =>
    match rest.next? with
    | none => .faultAt (.unexpectedEnd (.commaOr closing)) rest
    | some t =>
      if t.token.kind = .comma then
        ((items item closing t.rest (by have := t.shorter; omega)).map (value :: ·)).widen
          t.within
      else if t.token.kind = closing then .done [value] t.rest t.shorter
      else .fault (.unexpectedToken t.token (.commaOr closing)) t.rest t.within
termination_by c.remaining
decreasing_by have := t.shorter; omega

/-- A list of items separated by commas, up to the closing token; it may be empty. The item parser
is only run where at most `n` tokens remain. -/
def commaList {α : Type} {n : Nat} (item : (c : Cursor) → c.remaining ≤ n → Step c.remaining α)
    (closing : TokenKind) (c : Cursor) (h : c.remaining ≤ n) : Step c.remaining (List α) :=
  match c.accept? closing with
  | some t => .done [] t.rest t.shorter
  | none => items item closing c h

section

variable {α : Type} (c : Cursor) (item : (c : Cursor) → Step c.remaining α) (closing : TokenKind)

/-- The items of a list, when it does not matter where the item parser is run. -/
abbrev itemsOf : Step c.remaining (List α) :=
  items (fun c' _ => item c') closing c (Nat.le_refl _)

abbrev commaListOf : Step c.remaining (List α) :=
  commaList (fun c' _ => item c') closing c (Nat.le_refl _)

end

end Cursor

end Formula

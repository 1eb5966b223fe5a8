import Formula.Token

/-!
# Cursors

A cursor is a place in a token list together with the state that absolute values need: whether a
pipe is open on the current nesting level, the same for the levels around it, and where the last
closing pipe stood. Every change of place goes through `Cursor.next?`, whose result carries the
proof that fewer tokens remain.
-/

namespace Formula

/-- Where a closing pipe was read: the number of tokens before the place after it, and the number
of nesting levels there. -/
structure ClosingMark where
  position : Nat
  depth : Nat
deriving DecidableEq, Repr

structure Cursor where
  /-- The tokens already read, the latest first. -/
  behind : List Token
  ahead : List Token
  /-- Whether an absolute value is open on the current level. -/
  absOpen : Bool
  /-- The same for the surrounding levels, the nearest first. -/
  outer : List Bool
  closing : Option ClosingMark
deriving DecidableEq, Repr

namespace Cursor

def start (tokens : List Token) : Cursor :=
  { behind := [], ahead := tokens, absOpen := false, outer := [], closing := none }

def position (c : Cursor) : Nat :=
  c.behind.length

/-- The number of nesting levels, the current one included. -/
def depth (c : Cursor) : Nat :=
  c.outer.length + 1

def remaining (c : Cursor) : Nat :=
  c.ahead.length

def peek? (c : Cursor) : Option Token :=
  c.ahead.head?

def peekKind? (c : Cursor) : Option TokenKind :=
  c.peek?.map Token.kind

def previous? (c : Cursor) : Option Token :=
  c.behind.head?

def check (c : Cursor) (kind : TokenKind) : Bool :=
  c.peekKind? == some kind

/-- A token read at a cursor, and the cursor after it. -/
structure Taken (c : Cursor) where
  token : Token
  rest : Cursor
  shorter : rest.remaining < c.remaining

/-- Reads the next token. -/
def next? (c : Cursor) : Option (Taken c) :=
  match h : c.ahead with
  | [] => none
  | token :: rest => some
    { token
      rest := { c with behind := token :: c.behind, ahead := rest }
      shorter := by simp [remaining, h] }

/-- Reads the next token if it has the given kind. -/
def accept? (c : Cursor) (kind : TokenKind) : Option (Taken c) :=
  c.next?.filter fun t => t.token.kind == kind

def setAbsOpen (c : Cursor) (isOpen : Bool) : Cursor :=
  { c with absOpen := isOpen }

/-- Starts a nesting level, on which nothing is open yet. -/
def enter (c : Cursor) : Cursor :=
  { c with absOpen := false, outer := c.absOpen :: c.outer }

/-- Returns to the level around the current one. -/
def leave (c : Cursor) : Cursor :=
  match c.outer with
  | [] => c
  | isOpen :: outer => { c with absOpen := isOpen, outer }

/-- Notes that the token just read closed an absolute value on the current level. -/
def markClosing (c : Cursor) : Cursor :=
  { c with closing := some { position := c.position, depth := c.depth } }

/-- Whether the token just read closed an absolute value on the current level. -/
def justClosedAbs (c : Cursor) : Bool :=
  c.closing == some { position := c.position, depth := c.depth }

theorem Taken.within {c : Cursor} (t : Taken c) : t.rest.remaining ≤ c.remaining :=
  Nat.le_of_lt t.shorter

@[simp] theorem remaining_setAbsOpen (c : Cursor) (isOpen : Bool) :
    (c.setAbsOpen isOpen).remaining = c.remaining := rfl

@[simp] theorem remaining_enter (c : Cursor) : c.enter.remaining = c.remaining := rfl

@[simp] theorem remaining_leave (c : Cursor) : c.leave.remaining = c.remaining := by
  unfold leave
  split <;> rfl

@[simp] theorem remaining_markClosing (c : Cursor) :
    c.markClosing.remaining = c.remaining := rfl

@[simp] theorem leave_enter (c : Cursor) : c.enter.leave = c := rfl

end Cursor

end Formula

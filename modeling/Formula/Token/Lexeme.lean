import Formula.Token

/-!
# Lexemes

Text falls into lexemes: blanks, punctuation, numbers, runs of letters, and characters that belong
nowhere. Each lexeme is as long as it can be. Splitting needs no library and never fails, and the
lexemes put together again are the text.

## Main definitions

* `Lexeme.split` — the lexemes of a text.
* `Lexeme.text` — the characters of a lexeme; `Lexeme.flatMap_text_split` says nothing is lost.
-/

namespace Formula

inductive Lexeme where
  | blank (character : Char)
  | symbol (kind : TokenKind) (text : List Char)
  /-- Digits, or digits, a radix point and the digits after it, of which there may be none. -/
  | number (text : List Char)
  | word (letters : List Char)
  /-- A character that starts no lexeme. -/
  | stray (character : Char)
deriving DecidableEq, Repr

namespace Lexeme

def text : Lexeme → List Char
  | blank c => [c]
  | symbol _ text => text
  | number text => text
  | word letters => letters
  | stray c => [c]

def isBlank (c : Char) : Bool :=
  c == ' ' || c == '\t' || c == '\r' || c == '\n'

/-- The kind of a punctuation character that stands alone. -/
def symbolKind? : Char → Option TokenKind
  | '(' => some .parenOpen
  | ')' => some .parenClose
  | '\x7b' => some .braceOpen
  | '\x7d' => some .braceClose
  | '|' => some .pipe
  | '+' => some .plus
  | '-' => some .minus
  | '*' => some .star
  | '/' => some .slash
  | '^' => some .caret
  | '!' => some .bang
  | '%' => some .percent
  | '=' => some .equal
  | '>' => some .greater
  | '<' => some .less
  | ',' => some .comma
  | '_' => some .underscore
  | _ => none

/-- The comparison made of a character and the equals sign after it. -/
def orEqual? : TokenKind → Option TokenKind
  | .greater => some .greaterEqual
  | .less => some .lessEqual
  | _ => none

/-- The punctuation that starts with `c`, of the given kind, and the text after it. -/
def takeSymbol (kind : TokenKind) (c : Char) (cs : List Char) : Lexeme × List Char :=
  match orEqual? kind, cs with
  | some both, '=' :: rest => (symbol both [c, '='], rest)
  | _, _ => (symbol kind [c], cs)

/-- The number that starts with the digit `c`, and the text after it. -/
def takeNumber (c : Char) (cs : List Char) : Lexeme × List Char :=
  match cs.dropWhile Char.isDigit with
  | '.' :: rest =>
    (number (c :: cs.takeWhile Char.isDigit ++ '.' :: rest.takeWhile Char.isDigit),
      rest.dropWhile Char.isDigit)
  | rest => (number (c :: cs.takeWhile Char.isDigit), rest)

/-- The first lexeme of a text that starts with `c`, and the text after it. -/
def take (c : Char) (cs : List Char) : Lexeme × List Char :=
  if isBlank c then (blank c, cs)
  else if c.isDigit then takeNumber c cs
  else if c.isAlpha then (word (c :: cs.takeWhile Char.isAlpha), cs.dropWhile Char.isAlpha)
  else
    match symbolKind? c with
    | some kind => takeSymbol kind c cs
    | none => (stray c, cs)

theorem text_takeSymbol (kind : TokenKind) (c : Char) (cs : List Char) :
    (takeSymbol kind c cs).1.text ++ (takeSymbol kind c cs).2 = c :: cs := by
  unfold takeSymbol
  split <;> simp [text]

theorem text_takeNumber (c : Char) (cs : List Char) :
    (takeNumber c cs).1.text ++ (takeNumber c cs).2 = c :: cs := by
  unfold takeNumber
  split
  · next rest h =>
    have := List.takeWhile_append_dropWhile (p := Char.isDigit) (l := cs)
    rw [h] at this
    simp [text, this]
  · simp [text]

theorem text_take (c : Char) (cs : List Char) :
    (take c cs).1.text ++ (take c cs).2 = c :: cs := by
  unfold take
  split
  · simp [text]
  split
  · exact text_takeNumber c cs
  split
  · simp [text]
  split
  · exact text_takeSymbol _ c cs
  · simp [text]

theorem length_dropWhile_le {α : Type} (p : α → Bool) (l : List α) :
    (l.dropWhile p).length ≤ l.length :=
  (List.dropWhile_sublist p).length_le

theorem length_take_le (c : Char) (cs : List Char) : (take c cs).2.length ≤ cs.length := by
  unfold take takeNumber takeSymbol
  have digits := length_dropWhile_le Char.isDigit cs
  repeat' split
  all_goals simp_all [length_dropWhile_le]
  have := length_dropWhile_le Char.isDigit
  grind

/-- The lexemes of a text. -/
def split : List Char → List Lexeme
  | [] => []
  | c :: cs => (take c cs).1 :: split (take c cs).2
termination_by text => text.length
decreasing_by
  have := length_take_le c cs
  simp
  omega

/-- Splitting loses nothing. -/
theorem flatMap_text_split (cs : List Char) : (split cs).flatMap text = cs := by
  fun_induction split cs with
  | case1 => rfl
  | case2 c cs ih => simp [ih, text_take]

end Lexeme

end Formula

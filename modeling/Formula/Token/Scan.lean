import Formula.Token.Lexeme
import Formula.Error

/-!
# Scanning

Scanning gives each lexeme of a source its tokens and their byte offsets. A run of letters is a
function or a constant if the vocabulary has it, and otherwise one identifier for each letter, so
that `xy` is the product of `x` and `y`.
-/

namespace Formula

/-- The words a source may use for functions and constants. -/
structure Vocabulary where
  isFunction : String → Bool
  isConstant : String → Bool

namespace Token

/-- One identifier for each letter of a word. -/
def letters (offset : Nat) : List Char → List Token
  | [] => []
  | c :: cs =>
    { kind := .identifier, lexeme := String.singleton c, offset } ::
      letters (offset + c.utf8Size) cs

/-- The tokens of a word. A function hides a constant of the same name. -/
def ofWord (vocabulary : Vocabulary) (offset : Nat) (word : List Char) : List Token :=
  let lexeme := String.ofList word
  if vocabulary.isFunction lexeme then [{ kind := .function, lexeme, offset }]
  else if vocabulary.isConstant lexeme then [{ kind := .constant, lexeme, offset }]
  else letters offset word

end Token

namespace Lexeme

/-- The number of bytes of a lexeme. -/
def size (l : Lexeme) : Nat :=
  l.text.foldr (fun c n => c.utf8Size + n) 0

/-- The tokens of a lexeme at an offset. -/
def tokens (vocabulary : Vocabulary) (offset : Nat) : Lexeme → Except LexError (List Token)
  | blank _ => .ok []
  | symbol kind text => .ok [{ kind, lexeme := String.ofList text, offset }]
  | number text =>
    if text.getLast? = some '.' then .error (.malformedNumber (String.ofList text) offset)
    else .ok [{ kind := .number, lexeme := String.ofList text, offset }]
  | word letters => .ok (Token.ofWord vocabulary offset letters)
  | stray c => .error (.unexpectedCharacter c offset)

/-- The tokens of consecutive lexemes, the first of them at the given offset. -/
def allTokens (vocabulary : Vocabulary) (offset : Nat) :
    List Lexeme → Except LexError (List Token)
  | [] => .ok []
  | l :: ls => do
    let first ← l.tokens vocabulary offset
    let rest ← allTokens vocabulary (offset + l.size) ls
    return first ++ rest

end Lexeme

/-- The tokens of a source. -/
def Token.scan (vocabulary : Vocabulary) (source : String) : Except LexError (List Token) :=
  Lexeme.allTokens vocabulary 0 (Lexeme.split source.toList)

end Formula

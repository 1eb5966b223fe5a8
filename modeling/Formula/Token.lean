/-!
# Tokens

A token is a kind, the text it was read from, and the byte offset of that text in the source.
Parsing looks at kinds only; text and offset are kept for names, literals and error messages.
-/

namespace Formula

inductive TokenKind where
  | parenOpen
  | parenClose
  | braceOpen
  | braceClose
  | pipe
  | plus
  | minus
  | star
  | slash
  | caret
  | bang
  | percent
  | equal
  | greater
  | greaterEqual
  | less
  | lessEqual
  | comma
  | underscore
  | number
  | function
  | constant
  | identifier
deriving DecidableEq, Repr

namespace TokenKind

/-- How a kind is named in an error message: punctuation in quotes, the other kinds by a word. -/
def describe : TokenKind → String
  | parenOpen => "'('"
  | parenClose => "')'"
  | braceOpen => "'\x7b'"
  | braceClose => "'\x7d'"
  | pipe => "'|'"
  | plus => "'+'"
  | minus => "'-'"
  | star => "'*'"
  | slash => "'/'"
  | caret => "'^'"
  | bang => "'!'"
  | percent => "'%'"
  | equal => "'='"
  | greater => "'>'"
  | greaterEqual => "'>='"
  | less => "'<'"
  | lessEqual => "'<='"
  | comma => "','"
  | underscore => "'_'"
  | number => "number"
  | function => "function"
  | constant => "constant"
  | identifier => "identifier"

/-- The kinds that may join two sides of a guard clause. -/
def isComparison : TokenKind → Bool
  | greater | greaterEqual | less | lessEqual | equal => true
  | _ => false

/-- The kinds that start an operand multiplied with the one before it without an operator.
A pipe is not among them: whether it opens an operand depends on the nesting level. -/
def startsImplicitOperand : TokenKind → Bool
  | number | identifier | constant | parenOpen | function => true
  | _ => false

end TokenKind

structure Token where
  kind : TokenKind
  lexeme : String
  offset : Nat
deriving DecidableEq, Repr

/-- The text of a token in quotes, as error messages show it. -/
def Token.quoted (t : Token) : String :=
  "'" ++ t.lexeme ++ "'"

end Formula

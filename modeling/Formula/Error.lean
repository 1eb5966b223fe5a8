import Formula.Token

/-!
# Errors

What can be wrong with a source, by the stage that finds it, and the one place where each cause is
worded.
-/

namespace Formula

inductive LexError where
  /-- A character that starts no token. -/
  | unexpectedCharacter (character : Char) (offset : Nat)
  /-- A number that ends in its radix point. -/
  | malformedNumber (lexeme : String) (offset : Nat)
deriving DecidableEq, Repr

/-- What the grammar was ready to read when it met something else. -/
inductive Expectation where
  | kind (kind : TokenKind)
  | operand
  | guardClause
  | comparison
  | commaOr (closing : TokenKind)
deriving DecidableEq, Repr

inductive ParseError where
  | unexpectedToken (token : Token) (expected : Expectation)
  | unexpectedEnd (expected : Expectation)
  /-- Tokens are left after a complete declaration. -/
  | trailingTokens (token : Token)
  /-- An operand or a pipe stands where pipes can no longer be paired. -/
  | ambiguousAbs (token : Token)
  /-- A second guard block; the token is its opening brace. -/
  | duplicateGuard (brace : Token)
deriving DecidableEq, Repr

inductive CompileError where
  | undefinedIdentifier (name : String)
  | undefinedConstant (name : String)
  | undefinedFunction (name : String)
  | argumentCountMismatch (name : String) (expected found : Nat)
  /-- A subscript on a function that has no variants. -/
  | unexpectedVariant (name : String)
  /-- No subscript on a function that has only variants. -/
  | missingVariant (name : String)
  | undefinedOperator (operator : String)
  | invalidLiteral (lexeme : String)
deriving DecidableEq, Repr

inductive Error where
  | lex (error : LexError)
  | parse (error : ParseError)
  | compile (error : CompileError)
deriving DecidableEq, Repr

/-- The opening words of an error that points into the source. -/
def atOffset (offset : Nat) : String :=
  "Error at offset " ++ offset.repr ++ ": "

def LexError.message : LexError → String
  | unexpectedCharacter character offset =>
    atOffset offset ++ "Unexpected character '" ++ String.singleton character ++ "'."
  | malformedNumber lexeme offset =>
    atOffset offset ++ "Expected fractional part after radix point in '" ++ lexeme ++ "'."

def Expectation.describe : Expectation → String
  | kind k => k.describe
  | operand => "an operand"
  | guardClause => "a guard clause"
  | comparison => "a comparison operator"
  | commaOr closing => "',' or " ++ closing.describe

def ParseError.message : ParseError → String
  | unexpectedToken token expected =>
    atOffset token.offset ++ "Unexpected token " ++ token.quoted ++ ", expected " ++
      expected.describe ++ "."
  | unexpectedEnd expected =>
    "Unexpected end of input, expected " ++ expected.describe ++ "."
  | trailingTokens token =>
    atOffset token.offset ++ "Extra tokens after declaration, starting at " ++ token.quoted ++ "."
  | ambiguousAbs token =>
    atOffset token.offset ++ "Nested absolute value requires explicit '*' before " ++
      token.quoted ++ "."
  | duplicateGuard brace =>
    atOffset brace.offset ++ "A declaration accepts at most one guard block."

def CompileError.message : CompileError → String
  | undefinedIdentifier name => "Undefined identifier '" ++ name ++ "'."
  | undefinedConstant name => "Undefined constant '" ++ name ++ "'."
  | undefinedFunction name => "Undefined function '" ++ name ++ "'."
  | argumentCountMismatch name expected found =>
    "Function '" ++ name ++ "' expects " ++ expected.repr ++ " argument(s), but found " ++
      found.repr ++ "."
  | unexpectedVariant name => "Function '" ++ name ++ "' does not accept a variant subscript."
  | missingVariant name =>
    "Function '" ++ name ++ "' requires a variant subscript, e.g. '" ++ name ++ "_10(x)'."
  | undefinedOperator operator => "The " ++ operator ++ " operator behavior is undefined."
  | invalidLiteral lexeme => "Invalid numeric literal '" ++ lexeme ++ "'."

def Error.message : Error → String
  | lex error => error.message
  | parse error => error.message
  | compile error => error.message

end Formula

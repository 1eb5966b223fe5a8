import Formula.Clause

/-!
# Declarations

A declaration names a function, its parameters, its body and the clauses under which the body is
defined. Parameter names may repeat; the first of equal names is the one that counts.
-/

namespace Formula

structure Declaration where
  name : Token
  params : List Token
  body : Expr
  clauses : List Clause
deriving DecidableEq, Repr

namespace Declaration

def paramNames (d : Declaration) : List String :=
  d.params.map Token.lexeme

end Declaration

end Formula

import Formula.Declaration.Parser
import Formula.Scope.Resolve

/-!
# Compilation

From a declaration, or from its source text, to a compiled function.
-/

namespace Formula

variable {T : Type}

variable [Number T]

/-- Compiles a declaration; its body is resolved before its clauses. -/
def Declaration.compile (library : Library T) (d : Declaration) :
    Except CompileError (CompiledFunction T) := do
  let scope : Scope T := { params := d.paramNames, library }
  let body ← scope.resolve d.body
  let conditions ← scope.resolveClauses d.clauses
  return { declaration := d, body, conditions }

/-- Reads a declaration from its source text. -/
def Library.read (library : Library T) (source : String) : Except Error Declaration := do
  let tokens ← (Token.scan library.vocabulary source).mapError .lex
  (Declaration.parse tokens).mapError .parse

/-- Compiles a declaration from its source text. -/
def Library.compile (library : Library T) (source : String) :
    Except Error (CompiledFunction T) := do
  let declaration ← library.read source
  (declaration.compile library).mapError .compile

end Formula

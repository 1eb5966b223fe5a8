import Formula.Compiled
import Formula.Outline

/-!
# Outlines of declarations, functions and libraries

How tokens, declarations, compiled functions and libraries show their structure.
-/

namespace Formula

namespace TokenKind

def name : TokenKind → String
  | parenOpen => "ParenOpen"
  | parenClose => "ParenClose"
  | braceOpen => "BraceOpen"
  | braceClose => "BraceClose"
  | pipe => "Pipe"
  | plus => "Plus"
  | minus => "Minus"
  | star => "Star"
  | slash => "Slash"
  | caret => "Caret"
  | bang => "Bang"
  | percent => "Percent"
  | equal => "Equal"
  | greater => "Greater"
  | greaterEqual => "GreaterEqual"
  | less => "Less"
  | lessEqual => "LessEqual"
  | comma => "Comma"
  | underscore => "Underscore"
  | number => "Number"
  | function => "Function"
  | constant => "Constant"
  | identifier => "Identifier"

end TokenKind

def BinaryOp.title : BinaryOp → String
  | add => "Add"
  | sub => "Sub"
  | mul => "Mul"
  | div => "Div"
  | pow => "Pow"
  | mod => "Mod"

def UnaryOp.title : UnaryOp → String
  | negate => "Negate"
  | factorial => "Factorial"

def UnaryOperation.title : UnaryOperation → String
  | abs => "Abs"
  | neg => "Neg"
  | fac => "Fac"

def Comparison.title : Comparison → String
  | greater => "Greater"
  | greaterEqual => "GreaterEqual"
  | less => "Less"
  | lessEqual => "LessEqual"
  | equal => "Equal"

def Token.outline (t : Token) : Outline :=
  .record "Token"
    [.field "kind" (.atom t.kind.name), .field "lexeme" (.text t.lexeme),
      .field "offset" (.number t.offset)] true

namespace Expr

mutual

def outline : Expr → Outline
  | literal token => .tagged "Literal" token.outline
  | group inner => .tagged "Grouping" inner.outline
  | abs inner => .tagged "AbsGrouping" inner.outline
  | call name variant args =>
    .record "FnCall"
      [.field "ident" name.outline, .field "variant" (outlineOption variant),
        .field "args" (.list (outlines args))] true
  | unary op operand =>
    .record "Unary" [.field "op" (.atom op.title), .field "expr" operand.outline] true
  | binary op left right =>
    .record "Binary"
      [.field "left" left.outline, .field "op" (.atom op.title), .field "right" right.outline] true

def outlineOption : Option Expr → Outline
  | none => .atom "None"
  | some expr => .tagged "Some" expr.outline

def outlines : List Expr → List Outline
  | [] => []
  | expr :: exprs => expr.outline :: outlines exprs

end

end Expr

namespace Clause

/-- The outline of a link, given the outline of its left side. -/
def linkOutline (left : Outline) (op : Comparison) (right : Expr) : Outline :=
  .record "LogicalExpr"
    [.field "left" left, .field "op" (.atom op.title), .field "right" right.outline] true

def outline : Clause → Outline
  | compare left op right => linkOutline (.tagged "Expr" left.outline) op right
  | chain previous op right => linkOutline (.tagged "Logical" previous.outline) op right

end Clause

def Declaration.outline (d : Declaration) : Outline :=
  .record "FnDecl"
    [.field "ident" d.name.outline, .field "params" (.list (d.params.map Token.outline)),
      .field "body" d.body.outline, .field "clauses" (.list (d.clauses.map Clause.outline))] true

variable {T : Type}

def CompiledFunction.outline (f : CompiledFunction T) : Outline :=
  .record "CompiledFunction"
    [.field "name" (.text f.name), .field "params" (.list (f.params.map .text)),
      .field "source" (.text f.source)] false

def LibraryFunction.outline (f : LibraryFunction T) : Outline :=
  .record "LibraryFunction" [.field "arity" (.number f.arity)] false

def Library.outline (l : Library T) : Outline :=
  .record "Library"
    [.field "functions" (.list (l.functionNames.map .text)),
      .field "constants" (.list (l.constantNames.map .text)),
      .field "binary_operations" (.list (l.binaryOverrides.map fun op => .atom op.title)),
      .field "unary_operations" (.list (l.unaryOverrides.map fun op => .atom op.title))] true

end Formula

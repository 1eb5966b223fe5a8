import Formula.Declaration
import Formula.Expr.Parser

/-!
# Reading declarations

    declaration := identifier "(" (identifier ("," identifier)*)? ")" "=" guard? sum guard?
    guard       := "{" clause ("," clause)* "}"
    clause      := sum (comparison sum)+

At most one of the two guards may be present, and nothing may follow. Both sides of a comparison
are read one nesting level deeper.
-/

namespace Formula

namespace Cursor

/-- Reads a comparison; another token is read and reported. -/
def comparison (c : Cursor) : Step c.remaining Comparison :=
  match c.next? with
  | none => .faultAt (.unexpectedEnd .comparison) c
  | some t =>
    match Comparison.ofKind? t.token.kind with
    | some op => .done op t.rest t.shorter
    | none => .fault (.unexpectedToken t.token .comparison) t.rest t.within

/-- The links of a chain after the first. -/
def links {n : Nat} (clause : Clause) (c : Cursor) (h : c.remaining < n) : Step n Clause :=
  match c.next? with
  | none => .done clause c h
  | some t =>
    match Comparison.ofKind? t.token.kind with
    | none => .done clause c h
    | some op =>
      ((t.rest.nested sum).bind fun right rest hr => links (.chain clause op right) rest hr).widen
        (by have := t.shorter; omega)
termination_by c.remaining
decreasing_by have := t.shorter; omega

def clause (c : Cursor) : Step c.remaining Clause :=
  (c.nested sum).andThen fun left c₁ _ =>
  c₁.comparison.andThen fun op c₂ _ =>
  (c₂.nested sum).bind fun right c₃ h => links (.compare left op right) c₃ h

/-- The clauses of a guard block and its closing brace. A block without a clause is an error at
that brace. -/
def guardClauses (c : Cursor) : Step c.remaining (List Clause) :=
  match c.accept? .braceClose with
  | some t => .fault (.unexpectedToken t.token .guardClause) t.rest t.within
  | none => c.itemsOf (·.clause) .braceClose

/-- Reads a guard block if one opens here. -/
def guardBlock? (c : Cursor) : Option (Step c.remaining (List Clause)) :=
  (c.accept? .braceOpen).map fun t => t.rest.guardClauses.widen t.within

/-- Accepts a declaration if no token is left. -/
def finish {n : Nat} (d : Declaration) (c : Cursor) (h : c.remaining < n) : Step n Declaration :=
  match c.peek? with
  | none => .done d c h
  | some t =>
    if t.kind = .braceOpen then .faultAfter (.duplicateGuard t) c h
    else .faultAfter (.trailingTokens t) c h

/-- What stands after the equals sign of a declaration. -/
def definition (name : Token) (params : List Token) (c : Cursor) : Step c.remaining Declaration :=
  match c.guardBlock? with
  | some block =>
    block.andThen fun clauses c₁ _ =>
    c₁.sum.bind fun body c₂ h => finish { name, params, body, clauses } c₂ h
  | none =>
    c.sum.bind fun body c₁ h =>
      match c₁.guardBlock? with
      | some block =>
        (block.bind fun clauses c₂ h₂ => finish { name, params, body, clauses } c₂ h₂).widen
          (Nat.le_of_lt h)
      | none => finish { name, params, body, clauses := [] } c₁ h

def declaration (c : Cursor) : Step c.remaining Declaration :=
  (c.expect .identifier).andThen fun name c₁ _ =>
  (c₁.expect .parenOpen).andThen fun _ c₂ _ =>
  (c₂.commaListOf (·.expect .identifier) .parenClose).andThen fun params c₃ _ =>
  (c₃.expect .equal).andThen fun _ c₄ _ => definition name params c₄

end Cursor

/-- Parses the tokens of one declaration. -/
def Declaration.parse (tokens : List Token) : Except ParseError Declaration :=
  (Cursor.start tokens).declaration.outcome

end Formula

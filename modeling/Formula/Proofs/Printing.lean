import Formula.Proofs.Parsing

/-!
# Printing a declaration

A declaration that was read can be written back as tokens. Every product gets its operator, also
where two operands were only put side by side, and the guard may stand before the body or after it.
Reading the tokens gives the same declaration again, so neither choice of the writer can be told
from a declaration.

## Main definitions

* `Expr.tokens`, `Clause.tokens` — the tokens of an expression and of a clause.
* `Declaration.tokens` — the tokens of a declaration, with its guard at a given place.

## Main statements

* `Phrase.prints` — the tokens of an expression are a phrase of it on every nesting level.
* `parse_tokens` — the tokens of a declaration are read as the declaration.
-/

namespace Formula

/-! ## Tokens of expressions -/

/-- A token for each mark that is not kept in a tree. Its text and its position do not matter. -/
structure Marks where
  token : TokenKind → Token
  kind_token : ∀ kind, (token kind).kind = kind

namespace BinaryOp

def kind : BinaryOp → TokenKind
  | add => .plus
  | sub => .minus
  | mul => .star
  | div => .slash
  | pow => .caret
  | mod => .percent

end BinaryOp

theorem AdditiveMark.kind_eq {kind : TokenKind} {op : BinaryOp} (h : AdditiveMark kind op) :
    op.kind = kind := by
  cases h <;> rfl

theorem MultiplicativeMark.kind_eq {kind : TokenKind} {op : BinaryOp}
    (h : MultiplicativeMark kind op) : op.kind = kind := by
  cases h <;> rfl

namespace Comparison

def kind : Comparison → TokenKind
  | greater => .greater
  | greaterEqual => .greaterEqual
  | less => .less
  | lessEqual => .lessEqual
  | equal => .equal

theorem mark_kind (op : Comparison) : ComparisonMark op.kind op := by
  cases op <;> constructor

end Comparison

namespace Marks

variable (m : Marks)

/-- Items with commas between them. -/
def list (items : List (List Token)) : List Token :=
  [m.token .comma].intercalate items

theorem separated {α : Type} {Item : List Token → α → Prop} {tokens : α → List Token}
    {as : List α} (hne : as ≠ []) (h : ∀ a ∈ as, Item (tokens a) a) :
    Separated Item (m.list (as.map tokens)) as := by
  have joined := Separated.of_join (m.kind_token .comma) (fun as => m.list (as.map tokens)) hne h
    (fun a => by simp [list]) fun a b as => by simp [list, List.intercalate_cons_cons]
  rwa [List.map_id'] at joined

end Marks

namespace Expr

mutual

/-- The tokens of an expression. A product has its operator, whether or not it was written. -/
def tokens (m : Marks) : Expr → List Token
  | literal t => [t]
  | group e => m.token .parenOpen :: (e.tokens m ++ [m.token .parenClose])
  | abs e => m.token .pipe :: (e.tokens m ++ [m.token .pipe])
  | call f subscript args =>
    f :: subscriptTokens m subscript ++
      m.token .parenOpen :: (m.list (tokensAll m args) ++ [m.token .parenClose])
  | unary .negate e => m.token .minus :: e.tokens m
  | unary .factorial e => e.tokens m ++ [m.token .bang]
  | binary op left right => left.tokens m ++ m.token op.kind :: right.tokens m

def subscriptTokens (m : Marks) : Option Expr → List Token
  | none => []
  | some e => m.token .underscore :: e.tokens m

def tokensAll (m : Marks) : List Expr → List (List Token)
  | [] => []
  | e :: es => e.tokens m :: tokensAll m es

end

theorem tokensAll_eq_map (m : Marks) (es : List Expr) : tokensAll m es = es.map (tokens m) := by
  induction es with
  | nil => rfl
  | cons e es ih => rw [tokensAll, ih, List.map_cons]

end Expr

/-- The printed form of a tree is a phrase of the category on every nesting level. The arguments of
a call are phrases one by one. -/
def Category.Prints (m : Marks) : Category → Expr → Prop
  | .callee, .call f v _ =>
    ∀ o, Phrase .callee o false (f :: Expr.subscriptTokens m v) (.call f v [])
  | .arguments, .call _ _ es => es ≠ [] ∧ ∀ e ∈ es, ∃ b, Phrase .sum false b (e.tokens m) e
  | k, e => ∀ o, ∃ b, Phrase k o b (e.tokens m) e

theorem Phrase.prints (m : Marks) {k : Category} {o b : Bool} {ts : List Token} {e : Expr}
    (h : Phrase k o b ts e) : k.Prints m e := by
  induction h with
  | literal kind => exact fun o => ⟨_, .literal kind⟩
  | group left inner right ih =>
    intro o
    obtain ⟨b, phrase⟩ := ih false
    exact ⟨_, .group (m.kind_token _) phrase (m.kind_token _)⟩
  | abs left inner right ih =>
    intro o
    obtain ⟨b, phrase⟩ := ih true
    exact ⟨_, .abs (m.kind_token _) phrase (m.kind_token _)⟩
  | callee kind => exact fun o => .callee kind
  | subscript kind mark variant ih =>
    intro o
    obtain ⟨b, phrase⟩ := ih false
    exact .subscript kind (m.kind_token _) phrase
  | call callee left right ih =>
    intro o
    exact ⟨_, .call (ih o) (m.kind_token _) (m.kind_token _)⟩
  | apply callee left arguments right ih ih' =>
    intro o
    obtain ⟨b, phrase⟩ := (m.separated ih'.1 ih'.2).arguments _ _
    rw [Expr.tokens, Expr.tokensAll_eq_map]
    exact ⟨_, .apply (ih o) (m.kind_token _) phrase (m.kind_token _)⟩
  | argument argument ih => exact ⟨by simp, by simpa using ih false⟩
  | moreArguments first comma others ih ih' =>
    exact ⟨by simp, List.forall_mem_cons.2 ⟨ih false, ih'.2⟩⟩
  | ofPrimary primary ih => exact fun o => (ih o).imp fun _ => .ofPrimary
  | bang operand mark ih =>
    intro o
    obtain ⟨b, phrase⟩ := ih o
    exact ⟨_, .bang phrase (m.kind_token _)⟩
  | ofFactorial factorial ih => exact fun o => (ih o).imp fun _ => .ofFactorial
  | negate mark operand ih => exact fun o => (ih o).imp fun _ => .negate (m.kind_token _)
  | ofNegation negation ih => exact fun o => (ih o).imp fun _ => .ofNegation
  | raise base mark exponent ih ih' =>
    intro o
    obtain ⟨_, left⟩ := ih o
    obtain ⟨_, right⟩ := ih' false
    exact ⟨_, .raise left (m.kind_token _) right⟩
  | ofPower power ih => exact fun o => (ih o).imp fun _ => .ofPower
  | multiply left mark right ih ih' =>
    intro o
    obtain ⟨_, left⟩ := ih o
    obtain ⟨_, right⟩ := ih' false
    refine ⟨_, .multiply left ?_ right⟩
    rwa [m.kind_token, mark.kind_eq]
  | juxtapose left apart start right ih ih' =>
    -- The right operand moves from the level of the product to a level of its own.
    intro o
    obtain ⟨_, left⟩ := ih o
    obtain ⟨_, right⟩ := ih' false
    refine ⟨_, .multiply left ?_ right⟩
    rw [m.kind_token]
    exact .star
  | ofProduct product ih => exact fun o => (ih o).imp fun _ => .ofProduct
  | add left mark right ih ih' =>
    intro o
    obtain ⟨_, left⟩ := ih o
    obtain ⟨_, right⟩ := ih' o
    refine ⟨_, .add left ?_ right⟩
    rwa [m.kind_token, mark.kind_eq]

/-! ## Tokens of declarations -/

def Clause.tokens (m : Marks) : Clause → List Token
  | compare left op right => left.tokens m ++ m.token op.kind :: right.tokens m
  | chain previous op right => previous.tokens m ++ m.token op.kind :: right.tokens m

inductive GuardPlace where
  | beforeBody
  | afterBody
deriving DecidableEq, Repr

namespace Declaration

/-- The name and the parameters, up to the equals sign. -/
def headerTokens (m : Marks) (name : Token) (params : List Token) : List Token :=
  name :: m.token .parenOpen ::
    (m.list (params.map fun t => [t]) ++ [m.token .parenClose, m.token .equal])

/-- The clauses in braces, or nothing if there are none. -/
def guardTokens (m : Marks) : List Clause → List Token
  | [] => []
  | cs => m.token .braceOpen :: (m.list (cs.map (Clause.tokens m)) ++ [m.token .braceClose])

/-- The tokens of a declaration, with its guard before the body or after it. -/
def tokens (m : Marks) (place : GuardPlace) (d : Declaration) : List Token :=
  headerTokens m d.name d.params ++
    match place with
    | .beforeBody => guardTokens m d.clauses ++ d.body.tokens m
    | .afterBody => d.body.tokens m ++ guardTokens m d.clauses

end Declaration

variable {ts : List Token}

theorem ClausePhrase.prints (m : Marks) {c : Clause} (h : ClausePhrase ts c) :
    ClausePhrase (c.tokens m) c := by
  have mark (op : Comparison) : ComparisonMark (m.token op.kind).kind op := by
    rw [m.kind_token]
    exact op.mark_kind
  induction h with
  | compare left _ right =>
    obtain ⟨_, left⟩ := left.prints m false
    obtain ⟨_, right⟩ := right.prints m false
    exact .compare left (mark _) right
  | chain _ _ right ih =>
    obtain ⟨_, right⟩ := right.prints m false
    exact .chain ih (mark _) right

theorem GuardPhrase.prints (m : Marks) {cs : List Clause} (h : GuardPhrase ts cs) :
    GuardPhrase (Declaration.guardTokens m cs) cs := by
  obtain ⟨_, clauses, _⟩ := h
  have hne := clauses.ne_nil
  rw [Declaration.guardTokens]
  · refine .block (m.kind_token _) (m.separated hne fun c hc => ?_) (m.kind_token _)
    obtain ⟨_, _, clause⟩ := clauses.exists_item hc
    exact clause.prints m
  · exact hne

theorem HeaderPhrase.prints (m : Marks) {name : Token} {params : List Token}
    (h : HeaderPhrase ts name params) :
    HeaderPhrase (Declaration.headerTokens m name params) name params := by
  cases h with
  | constant kind => exact .constant kind (m.kind_token _) (m.kind_token _) (m.kind_token _)
  | function kind _ list =>
    refine .function kind (m.kind_token _) (m.separated list.ne_nil fun t ht => ⟨rfl, ?_⟩)
      (m.kind_token _) (m.kind_token _)
    obtain ⟨_, _, _, hkind⟩ := list.exists_item ht
    exact hkind

theorem DeclarationPhrase.prints (m : Marks) (place : GuardPlace) {d : Declaration}
    (h : DeclarationPhrase ts d) : DeclarationPhrase (d.tokens m place) d := by
  cases h with
  | total header expr =>
    obtain ⟨_, body⟩ := expr.prints m false
    have printed := DeclarationPhrase.total (header.prints m) body
    cases place with
    | beforeBody => exact printed
    | afterBody => simpa [Declaration.tokens, Declaration.guardTokens] using printed
  | guardFirst header block expr | guardLast header expr block =>
    obtain ⟨_, body⟩ := expr.prints m false
    cases place with
    | beforeBody => exact .guardFirst (header.prints m) (block.prints m) body
    | afterBody => exact .guardLast (header.prints m) body (block.prints m)

/-- A declaration that was read is read again from its tokens, with every product written out and
with its guard at either place. -/
theorem parse_tokens {d : Declaration} (h : Declaration.parse ts = .ok d) (m : Marks)
    (place : GuardPlace) : Declaration.parse (d.tokens m place) = .ok d :=
  ((declarationPhrase_of_parse h).prints m place).parse_eq

/-- `f(x) = |2x|x^3 { x < 4 }`, by the kinds of its tokens. -/
def juxtaposed : List Token :=
  [.identifier, .parenOpen, .identifier, .parenClose, .equal, .pipe, .number, .identifier, .pipe,
    .identifier, .caret, .number, .braceOpen, .identifier, .less, .number, .braceClose].map .ofKind

/-- `f(x) = { x < 4 } |2 * x| * x^3`, by the kinds of its tokens. -/
def writtenOut : List Token :=
  [.identifier, .parenOpen, .identifier, .parenClose, .equal, .braceOpen, .identifier, .less,
    .number, .braceClose, .pipe, .number, .star, .identifier, .pipe, .star, .identifier, .caret,
    .number].map .ofKind

/-- The declaration of both. -/
def guardedProduct : Declaration :=
  let x := Token.ofKind .identifier
  let n := Token.ofKind .number
  { name := x
    params := [x]
    body := .binary .mul (.abs (.binary .mul (.literal n) (.literal x)))
      (.binary .pow (.literal x) (.literal n))
    clauses := [.compare (.literal x) .less (.literal n)] }

theorem parse_tokens_juxtaposed :
    Declaration.parse juxtaposed = .ok guardedProduct ∧
      guardedProduct.tokens ⟨.ofKind, fun _ => rfl⟩ .beforeBody = writtenOut ∧
      ∀ m place, Declaration.parse (guardedProduct.tokens m place) = .ok guardedProduct := by
  have parsed : Declaration.parse juxtaposed = .ok guardedProduct := by with_unfolding_all rfl
  exact ⟨parsed, rfl, parse_tokens parsed⟩

end Formula

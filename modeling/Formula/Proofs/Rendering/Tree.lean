import Formula.Proofs.Grammar
import Formula.Proofs.Rendering.Lex
import Formula.Proofs.Scanning

/-!
# Trees of rendered nodes

The text of a node is the text of an expression, in which overridden operators and native absolute
values are calls and a native negation is in parentheses. This module has that expression and says
how the tokens of a node's text are made of those of its parts.

## Main definitions

* `Node.tree` — the expression that the text of a node is read as.

## Main statements

* `Rendered.phrase_call` — the text of a call is a phrase if the texts of the arguments are.
-/

namespace Formula

open Rendered

variable {T : Type}

namespace Node

mutual

/-- The expression that the text of a node is read as. -/
def tree : Node T → Expr
  | parameter name _ => .literal (named .identifier name)
  | constant name _ => .literal (named .constant ("constants." ++ name))
  | number lexeme _ => .literal (named .number lexeme)
  | group inner => .group inner.tree
  | call entry args => .call (named .function ("functions." ++ entry.name)) none (trees args)
  | abs operand => .call (named .function "abs") none [operand.tree]
  | negate operand => .group (.unary .negate operand.tree)
  | native op left right => .binary op left.tree right.tree
  | unary op _ operand => .call (named .function ("operations." ++ op.name)) none [operand.tree]
  | binary op _ left right =>
    .call (named .function ("operations." ++ op.name)) none [left.tree, right.tree]

def trees : List (Node T) → List Expr
  | [] => []
  | node :: nodes => node.tree :: trees nodes

end

end Node

namespace Rendered

/-! ## Kinds -/

theorem isRun_append {w w' : List Char} (h : IsRun w) (h' : ∀ c ∈ w', isDelimiter c = false) :
    IsRun (w ++ w') := by
  refine ⟨by simp [h.1], fun c hc => ?_⟩
  rcases List.mem_append.1 hc with hc | hc
  · exact h.2 c hc
  · exact h' c hc

theorem not_delimiter {c : Char} (h : c.isAlpha = true ∨ c.isDigit = true ∨ c = '.' ∨ c = '_') :
    isDelimiter c = false := by
  cases hd : isDelimiter c with
  | false => rfl
  | true =>
    simp only [isDelimiter, Bool.or_eq_true, beq_iff_eq] at hd
    rcases hd with (((rfl | rfl) | rfl) | rfl) | rfl <;> revert h <;> decide

theorem isRun_of_isWord {w : List Char} (h : IsWord w) : IsRun w :=
  ⟨h.1, fun c hc => not_delimiter (.inl (h.2 c hc))⟩

theorem isRun_of_isNumeral {w : List Char} (h : IsNumeral w) : IsRun w := by
  obtain ⟨⟨c, hc, -⟩, hall⟩ := h
  refine ⟨fun hw => by simp [hw] at hc, fun d hd => not_delimiter ?_⟩
  rcases hall d hd with hd | hd
  · exact .inr (.inl hd)
  · exact .inr (.inr (.inl hd))

theorem kindOf_letter {w : List Char} (h : IsWord w) (hlength : w.length = 1) :
    kindOf w = .identifier := by
  obtain ⟨c, rfl⟩ := List.length_eq_one_iff.1 hlength
  have hc : c.isAlpha = true := h.2 c (by simp)
  simp [kindOf, hc, Lexeme.isDigit_of_isAlpha hc]

theorem kindOf_numeral {w : List Char} (h : IsNumeral w) : kindOf w = .number := by
  obtain ⟨⟨c, hc, hdigit⟩, -⟩ := h
  obtain ⟨cs, rfl⟩ := List.head?_eq_some_iff.1 hc
  simp [kindOf, hdigit]

theorem kindOf_constant (name : String) : kindOf ("constants." ++ name).toList = .constant := by
  simp [kindOf]

theorem kindOf_function (name : String) : kindOf ("functions." ++ name).toList = .function := by
  simp [kindOf]

theorem kindOf_operation (name : String) : kindOf ("operations." ++ name).toList = .function := by
  simp [kindOf]

/-- A qualified name is one token. -/
theorem isRun_qualified {q name : String} (hq : IsRun q.toList)
    (hname : ∀ c ∈ name.toList, isDelimiter c = false) : IsRun (q ++ name).toList := by
  rw [String.toList_append]
  exact isRun_append hq hname

/-! ## Phrases -/

/-- The text of a node is a phrase of its tree, in every category from the given one on. -/
def ReadsAs (k : Category) (n : Node T) : Prop :=
  ∀ o, Phrase k o false (lex n.source.toList) n.tree

/-- Texts put together with a separator are the items of a list. -/
theorem separated_intercalate {α β : Type} {Item : List Token → β → Prop} {q : String} {t : Token}
    (ht : t.kind = .comma)
    (hq : ∀ a b : String, lex (a ++ q ++ b).toList = lex a.toList ++ t :: lex b.toList)
    {text : α → String} {value : α → β} {xs : List α} (hne : xs ≠ [])
    (h : ∀ x ∈ xs, Item (lex (text x).toList) (value x)) :
    Separated Item (lex (q.intercalate (xs.map text)).toList) (xs.map value) := by
  refine .of_join ht (fun xs => lex (q.intercalate (xs.map text)).toList) hne h (fun x => rfl)
    fun x y ys => ?_
  simp only [List.map_cons, String.intercalate_cons_cons, hq]

theorem sources_eq_map (nodes : List (Node T)) : Node.sources nodes = nodes.map Node.source := by
  induction nodes with
  | nil => rfl
  | cons n nodes ih => exact congrArg (n.source :: ·) ih

theorem trees_eq_map (nodes : List (Node T)) : Node.trees nodes = nodes.map Node.tree := by
  induction nodes with
  | nil => rfl
  | cons n nodes ih => exact congrArg (n.tree :: ·) ih

/-- The text of a call is a phrase if the texts of the arguments are. -/
theorem phrase_call {name : String} (hrun : IsRun name.toList)
    (hkind : kindOf name.toList = .function) (nodes : List (Node T))
    (h : ∀ n ∈ nodes, ReadsAs .sum n) (o : Bool) :
    Phrase .primary o false
      (lex (name ++ "(" ++ ", ".intercalate (Node.sources nodes) ++ ")").toList)
      (.call (named .function name) none (Node.trees nodes)) := by
  have callee : Phrase .callee o false [named .function name]
      (.call (named .function name) none []) := .callee rfl
  rw [lex_call hrun, token_eq hkind]
  by_cases hne : nodes = []
  · subst hne
    exact .call callee rfl rfl
  · have list : Separated (fun ts e => ∃ b, Phrase .sum false b ts e)
        (lex (", ".intercalate (nodes.map Node.source)).toList) (nodes.map Node.tree) :=
      separated_intercalate rfl lex_comma hne fun n hn => ⟨false, h n hn false⟩
    obtain ⟨b, arguments⟩ := list.arguments (named .function name) none
    rw [sources_eq_map, trees_eq_map]
    exact .apply callee rfl arguments rfl

section Nodes

variable {n l r : Node T}

theorem phrase_literal {kind : TokenKind} {text : String} (hrun : IsRun text.toList)
    (hkind : kindOf text.toList = kind)
    (hliteral : kind = .number ∨ kind = .identifier ∨ kind = .constant) (o : Bool) :
    Phrase .primary o false (lex text.toList) (.literal (named kind text)) := by
  rw [lex_of_run hrun, token_eq hkind]
  exact .literal hliteral

theorem readsAs_group (h : ReadsAs .sum n) : ReadsAs .primary (.group n) := by
  intro o
  show Phrase .primary o false (lex ("(" ++ n.source ++ ")").toList) (.group n.tree)
  rw [lex_parenthesized]
  exact .group rfl (h false) rfl

theorem readsAs_negate (h : ReadsAs .negation n) : ReadsAs .primary (.negate n) := by
  intro o
  have inner : Phrase .sum false false (token ['-'] :: lex n.source.toList)
      (.unary .negate n.tree) :=
    .ofProduct (.ofPower (.ofNegation (.negate rfl (h false))))
  show Phrase .primary o false (lex ("(-" ++ n.source ++ ")").toList)
    (.group (.unary .negate n.tree))
  rw [lex_negated]
  exact .group rfl inner rfl

theorem readsAs_abs (h : ReadsAs .sum n) : ReadsAs .primary (.abs n) := by
  have hrun : IsRun "abs".toList := by simp [IsRun, isDelimiter]
  have hcall := phrase_call hrun (by simp [kindOf]) [n] (by simpa using h)
  have hsource : (Node.abs n).source =
      "abs" ++ "(" ++ ", ".intercalate (Node.sources [n]) ++ ")" := by
    show "abs(" ++ n.source ++ ")" = "abs" ++ "(" ++ ", ".intercalate [n.source] ++ ")"
    simp
  intro o
  rw [hsource]
  exact hcall o

theorem isRun_operation {name : String} (h : ∀ c ∈ name.toList, c.isAlpha = true) :
    IsRun ("operations." ++ name).toList :=
  isRun_qualified (by simp [IsRun, isDelimiter]) fun c hc => not_delimiter (.inl (h c hc))

theorem readsAs_unary (op : UnaryOperation) (apply : T → T) (h : ReadsAs .sum n) :
    ReadsAs .primary (.unary op apply n) := by
  have hrun : IsRun ("operations." ++ op.name).toList :=
    isRun_operation (by cases op <;> simp [UnaryOperation.name])
  exact phrase_call hrun (kindOf_operation op.name) [n] (by simpa using h)

theorem readsAs_binary (op : BinaryOp) (apply : T → T → T) (h : ReadsAs .sum l)
    (h' : ReadsAs .sum r) : ReadsAs .primary (.binary op apply l r) := by
  have hrun : IsRun ("operations." ++ op.name).toList :=
    isRun_operation (by cases op <;> simp [BinaryOp.name])
  have hcall := phrase_call hrun (kindOf_operation op.name) [l, r] (by simpa using ⟨h, h'⟩)
  have hsource : (Node.binary op apply l r).source =
      "operations." ++ op.name ++ "(" ++ ", ".intercalate (Node.sources [l, r]) ++ ")" := by
    show "operations." ++ op.name ++ "(" ++ l.source ++ ", " ++ r.source ++ ")" =
      "operations." ++ op.name ++ "(" ++ ", ".intercalate [l.source, r.source] ++ ")"
    simp [String.append_assoc]
  intro o
  rw [hsource]
  exact hcall o

theorem readsAs_call {entry : FunctionEntry T}
    (hname : ∀ c ∈ entry.name.toList, isDelimiter c = false) {nodes : List (Node T)}
    (h : ∀ n ∈ nodes, ReadsAs .sum n) : ReadsAs .primary (.call entry nodes) := by
  have hrun : IsRun ("functions." ++ entry.name).toList :=
    isRun_qualified (by simp [IsRun, isDelimiter]) hname
  exact phrase_call hrun (kindOf_function entry.name) nodes h

/-! ## Native operators -/

theorem lex_rendered (op : BinaryOp) : lex op.rendered.toList = [token op.rendered.toList] := by
  cases op
  case sub => exact lex_cons rfl []
  all_goals exact lex_of_run (by simp [IsRun, isDelimiter, BinaryOp.rendered, BinaryOp.symbol])

theorem lex_native (op : BinaryOp) : lex (Node.native op l r).source.toList =
    lex l.source.toList ++ token op.rendered.toList :: lex r.source.toList :=
  lex_operator (lex_rendered op) l.source r.source

theorem readsAs_add {op : BinaryOp} {kind : TokenKind} (hop : AdditiveMark kind op)
    (h : ReadsAs .sum l) (h' : ReadsAs .product r) : ReadsAs .sum (.native op l r) := by
  have mark : AdditiveMark (token op.rendered.toList).kind op := by
    cases hop <;> constructor
  intro o
  rw [lex_native]
  exact .add (h o) mark (h' o)

theorem readsAs_multiply {op : BinaryOp} {kind : TokenKind}
    (hop : MultiplicativeMark kind op) (h : ReadsAs .product l)
    (h' : ReadsAs .power r) : ReadsAs .product (.native op l r) := by
  have mark : MultiplicativeMark (token op.rendered.toList).kind op := by
    cases hop <;> constructor
  intro o
  rw [lex_native]
  exact .multiply (h o) mark (h' false)

theorem readsAs_raise (h : ReadsAs .negation l) (h' : ReadsAs .power r) :
    ReadsAs .power (.native .pow l r) := by
  intro o
  rw [lex_native]
  exact .raise (h o) rfl (h' false)

end Nodes

end Rendered

end Formula

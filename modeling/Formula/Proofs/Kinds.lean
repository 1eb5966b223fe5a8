import Formula.Declaration.Parser
import Formula.Proofs.Follows

/-!
# Parsing by kinds

Tokens have a text and an offset besides their kind, but the parser makes nothing of them other than
to put them into its result. A change of all tokens that keeps their kinds is therefore the same
before parsing and after it. The proof relates each parser at one cursor to itself at the cursor
with the tokens changed, and follows the recursion of the parsers, with the same measures.

Which tokens are put into the result is told by their positions. Parsing tokens that have positions
for offsets gives the positions once for all lists of the same kinds.

## Main definitions

* `Renaming` — a change of tokens that keeps their kinds.
* `Declaration.mapTokens`, `ParseError.mapTokens` — the same tree, or error, with other tokens.
* `Declaration.kept` — the tokens that a declaration keeps.
* `Step.Renamed` — steps that differ in their tokens only.

## Main statements

* `Declaration.parse_map` — parsing commutes with renamings.
* `Declaration.mem_of_mem_kept` — the tokens of a declaration are those it was parsed from.
* `parse_by_kinds` — token lists of the same kinds differ in the tokens of their result only.
-/

namespace Formula

/-- A change of tokens that keeps their kinds. -/
structure Renaming where
  map : Token → Token
  kind_map : ∀ t, (map t).kind = t.kind

instance : CoeFun Renaming fun _ => Token → Token :=
  ⟨Renaming.map⟩

/-! ## Tokens of trees -/

namespace Expr

variable (σ τ : Token → Token)

mutual

/-- The tree with other tokens in it. -/
def mapTokens : Expr → Expr
  | literal t => literal (σ t)
  | group e => group (mapTokens e)
  | abs e => abs (mapTokens e)
  | call name variant args => call (σ name) (mapTokensOption variant) (mapTokensAll args)
  | unary op e => unary op (mapTokens e)
  | binary op left right => binary op (mapTokens left) (mapTokens right)

def mapTokensOption : Option Expr → Option Expr
  | none => none
  | some e => some (mapTokens e)

def mapTokensAll : List Expr → List Expr
  | [] => []
  | e :: es => mapTokens e :: mapTokensAll es

end

mutual

/-- The tokens that a tree keeps. -/
def kept : Expr → List Token
  | literal t => [t]
  | group e => e.kept
  | abs e => e.kept
  | call name variant args => name :: (keptOption variant ++ keptAll args)
  | unary _ e => e.kept
  | binary _ left right => left.kept ++ right.kept

def keptOption : Option Expr → List Token
  | none => []
  | some e => e.kept

def keptAll : List Expr → List Token
  | [] => []
  | e :: es => e.kept ++ keptAll es

end

theorem mapTokensAll_eq_map (es : List Expr) : mapTokensAll σ es = es.map (mapTokens σ) := by
  induction es with
  | nil => rfl
  | cons e es ih => rw [mapTokensAll, ih, List.map_cons]

variable {σ τ}

mutual

/-- What becomes of a tree tells what becomes of the tokens that it keeps, and of no others. -/
theorem mapTokens_eq_iff : ∀ {e : Expr},
    mapTokens σ e = mapTokens τ e ↔ ∀ t ∈ e.kept, σ t = τ t
  | literal t => by simp [mapTokens, kept]
  | group e => by simp [mapTokens, kept, mapTokens_eq_iff (e := e)]
  | abs e => by simp [mapTokens, kept, mapTokens_eq_iff (e := e)]
  | call name variant args => by
    simp only [mapTokens, kept, call.injEq, mapTokensOption_eq_iff, mapTokensAll_eq_iff,
      List.forall_mem_cons, List.forall_mem_append]
  | unary op e => by simp [mapTokens, kept, mapTokens_eq_iff (e := e)]
  | binary op left right => by
    simp only [mapTokens, kept, binary.injEq, true_and, mapTokens_eq_iff, List.forall_mem_append]

theorem mapTokensOption_eq_iff : ∀ {e : Option Expr},
    mapTokensOption σ e = mapTokensOption τ e ↔ ∀ t ∈ keptOption e, σ t = τ t
  | none => by simp [mapTokensOption, keptOption]
  | some e => by simp [mapTokensOption, keptOption, mapTokens_eq_iff (e := e)]

theorem mapTokensAll_eq_iff : ∀ {es : List Expr},
    mapTokensAll σ es = mapTokensAll τ es ↔ ∀ t ∈ keptAll es, σ t = τ t
  | [] => by simp [mapTokensAll, keptAll]
  | e :: es => by
    simp only [mapTokensAll, keptAll, List.cons.injEq, mapTokens_eq_iff, mapTokensAll_eq_iff,
      List.forall_mem_append]

end

end Expr

namespace Clause

variable {σ τ : Token → Token}

def mapTokens (σ : Token → Token) : Clause → Clause
  | compare left op right => compare (left.mapTokens σ) op (right.mapTokens σ)
  | chain previous op right => chain (previous.mapTokens σ) op (right.mapTokens σ)

def kept : Clause → List Token
  | compare left _ right => left.kept ++ right.kept
  | chain previous _ right => previous.kept ++ right.kept

theorem mapTokens_eq_iff {c : Clause} :
    c.mapTokens σ = c.mapTokens τ ↔ ∀ t ∈ c.kept, σ t = τ t := by
  induction c with
  | compare left op right =>
    simp only [mapTokens, kept, compare.injEq, true_and, Expr.mapTokens_eq_iff,
      List.forall_mem_append]
  | chain previous op right ih =>
    simp only [mapTokens, kept, chain.injEq, true_and, ih, Expr.mapTokens_eq_iff,
      List.forall_mem_append]

end Clause

namespace Declaration

variable {σ τ : Token → Token}

/-- The declaration with other tokens in it. -/
def mapTokens (σ : Token → Token) (d : Declaration) : Declaration :=
  { name := σ d.name
    params := d.params.map σ
    body := d.body.mapTokens σ
    clauses := d.clauses.map (Clause.mapTokens σ) }

/-- The tokens that a declaration keeps. -/
def kept (d : Declaration) : List Token :=
  d.name :: (d.params ++ d.body.kept ++ d.clauses.flatMap Clause.kept)

theorem mapTokens_eq_iff {d : Declaration} :
    d.mapTokens σ = d.mapTokens τ ↔ ∀ t ∈ d.kept, σ t = τ t := by
  simp only [mapTokens, kept, mk.injEq, List.map_inj_left, Expr.mapTokens_eq_iff,
    Clause.mapTokens_eq_iff, List.forall_mem_cons, List.forall_mem_append,
    List.forall_mem_flatMap, and_assoc]

end Declaration

namespace ParseError

variable {σ τ : Token → Token}

/-- The error with another token to blame. -/
def mapTokens (σ : Token → Token) : ParseError → ParseError
  | unexpectedToken t expected => unexpectedToken (σ t) expected
  | unexpectedEnd expected => unexpectedEnd expected
  | trailingTokens t => trailingTokens (σ t)
  | ambiguousAbs t => ambiguousAbs (σ t)
  | duplicateGuard t => duplicateGuard (σ t)

theorem mapTokens_eq_iff {e : ParseError} :
    e.mapTokens σ = e.mapTokens τ ↔ ∀ t ∈ e.token?, σ t = τ t := by
  cases e <;> simp [mapTokens, token?]

end ParseError

/-! ## Cursors -/

namespace Cursor

variable (σ : Token → Token)

/-- The cursor at the same place among other tokens. -/
def mapTokens (c : Cursor) : Cursor :=
  { c with behind := c.behind.map σ, ahead := c.ahead.map σ }

@[simp] theorem remaining_mapTokens (c : Cursor) : (c.mapTokens σ).remaining = c.remaining := by
  simp [mapTokens, remaining]

theorem position_mapTokens (c : Cursor) : (c.mapTokens σ).position = c.position := by
  simp [mapTokens, position]

theorem absOpen_mapTokens (c : Cursor) : (c.mapTokens σ).absOpen = c.absOpen := rfl

theorem peek?_mapTokens (c : Cursor) : (c.mapTokens σ).peek? = c.peek?.map σ := by
  simp [mapTokens, peek?]

theorem leave_mapTokens (c : Cursor) : (c.mapTokens σ).leave = c.leave.mapTokens σ := by
  obtain ⟨behind, ahead, absOpen, outer, closing⟩ := c
  cases outer <;> rfl

theorem markClosing_mapTokens (c : Cursor) :
    (c.mapTokens σ).markClosing = c.markClosing.mapTokens σ := by
  rw [markClosing, position_mapTokens]
  rfl

theorem justClosedAbs_mapTokens (c : Cursor) :
    (c.mapTokens σ).justClosedAbs = c.justClosedAbs := by
  rw [justClosedAbs, position_mapTokens]
  rfl

def Taken.mapTokens {c : Cursor} (t : Taken c) : Taken (c.mapTokens σ) where
  token := σ t.token
  rest := t.rest.mapTokens σ
  shorter := by simpa using t.shorter

theorem next?_mapTokens (c : Cursor) :
    (c.mapTokens σ).next? = c.next?.map (Taken.mapTokens σ) := by
  cases hc : c.ahead with
  | nil =>
    have hmapped : (c.mapTokens σ).ahead = [] := by simp [mapTokens, hc]
    rw [next?_nil hc, next?_nil hmapped]
    rfl
  | cons t rest =>
    have hmapped : (c.mapTokens σ).ahead = σ t :: rest.map σ := by simp [mapTokens, hc]
    rw [next?_cons hc, next?_cons hmapped]
    rfl

end Cursor

/-! ## Steps -/

namespace Step

variable {α β α' β' : Type} {σ : Token → Token} {f : α → α'} {g : β → β'} {m n m' n' : Nat}

/-- The second step is the first among other tokens: both are done, with values that correspond, or
both fail with the same error, at the same place. -/
inductive Renamed (σ : Token → Token) (f : α → α') : Step n α → Step n' α' → Prop where
  | done {a : α} {c : Cursor} {h : c.remaining < n} {h' : (c.mapTokens σ).remaining < n'} :
    Renamed σ f (.done a c h) (.done (f a) (c.mapTokens σ) h')
  | fault {e : ParseError} {c : Cursor} {h : c.remaining ≤ n}
      {h' : (c.mapTokens σ).remaining ≤ n'} :
    Renamed σ f (.fault e c h) (.fault (e.mapTokens σ) (c.mapTokens σ) h')

namespace Renamed

theorem widen {s : Step m α} {s' : Step m' α'} {hn : m ≤ n} {hn' : m' ≤ n'}
    (h : s.Renamed σ f s') : (s.widen hn).Renamed σ f (s'.widen hn') := by
  cases h with
  | done => exact .done
  | fault => exact .fault

theorem map {s : Step n α} {s' : Step n' α'} {k : α → β} {k' : α' → β'} (h : s.Renamed σ f s')
    (hk : ∀ a, k' (f a) = g (k a)) : (s.map k).Renamed σ g (s'.map k') := by
  cases h with
  | done =>
    rw [Step.map, Step.map, hk]
    exact .done
  | fault => exact .fault

theorem bind {s : Step n α} {s' : Step n' α'}
    {k : (a : α) → (c : Cursor) → c.remaining < n → Step n β}
    {k' : (a : α') → (c : Cursor) → c.remaining < n' → Step n' β'} (h : s.Renamed σ f s')
    (hk : ∀ a c hc hc', (k a c hc).Renamed σ g (k' (f a) (c.mapTokens σ) hc')) :
    (s.bind k).Renamed σ g (s'.bind k') := by
  cases h with
  | done => exact hk _ _ _ _
  | fault => exact .fault

theorem andThen {s : Step n α} {s' : Step n' α'}
    {k : (a : α) → (c : Cursor) → c.remaining < n → Step c.remaining β}
    {k' : (a : α') → (c : Cursor) → c.remaining < n' → Step c.remaining β'}
    (h : s.Renamed σ f s')
    (hk : ∀ a c hc hc', (k a c hc).Renamed σ g (k' (f a) (c.mapTokens σ) hc')) :
    (s.andThen k).Renamed σ g (s'.andThen k') :=
  h.bind fun a c hc hc' => (hk a c hc hc').widen

theorem leave {s : Step n α} {s' : Step n' α'} (h : s.Renamed σ f s') :
    s.leave.Renamed σ f s'.leave := by
  cases h with
  | done =>
    simp only [Step.leave, Cursor.leave_mapTokens]
    exact .done
  | fault =>
    simp only [Step.leave, Cursor.leave_mapTokens]
    exact .fault

theorem setAbsOpen {s : Step n α} {s' : Step n' α'} (h : s.Renamed σ f s') (isOpen : Bool) :
    (s.setAbsOpen isOpen).Renamed σ f (s'.setAbsOpen isOpen) := by
  cases h with
  | done => exact .done
  | fault => exact .fault

theorem outcome {s : Step n α} {s' : Step n' α'} (h : s.Renamed σ f s') :
    s'.outcome = (s.outcome.map f).mapError (ParseError.mapTokens σ) := by
  cases h <;> rfl

end Renamed

end Step

/-! ## Tokens and lists -/

namespace Cursor

variable {σ : Renaming}

theorem accept?_mapTokens (c : Cursor) (kind : TokenKind) :
    (c.mapTokens σ).accept? kind = (c.accept? kind).map (Taken.mapTokens σ) := by
  rw [accept?, accept?, next?_mapTokens, Option.filter_map]
  congr 2
  funext t
  exact congrArg (· == kind) (σ.kind_map t.token)

theorem mayOpenAbs_mapTokens (c : Cursor) : (c.mapTokens σ).mayOpenAbs = c.mayOpenAbs := by
  simp [mayOpenAbs, mapTokens, previous?, Option.any_map, σ.kind_map]

theorem renamed_expect (c : Cursor) (kind : TokenKind) :
    (c.expect kind).Renamed σ σ ((c.mapTokens σ).expect kind) := by
  rw [expect, expect, next?_mapTokens]
  cases c.next? with
  | none => exact .fault
  | some t =>
    dsimp only [Option.map, Taken.mapTokens]
    rw [σ.kind_map]
    split
    · exact .done
    · exact .fault

theorem renamed_closeAbs (c : Cursor) :
    c.closeAbs.Renamed σ σ (c.mapTokens σ).closeAbs := by
  have h : (c.expect .pipe).Renamed σ σ ((c.mapTokens σ).expect .pipe) := renamed_expect c .pipe
  rw [closeAbs, closeAbs]
  generalize c.expect .pipe = s, (c.mapTokens σ).expect .pipe = s' at h
  cases h with
  | done =>
    simp only [markClosing_mapTokens]
    exact .done
  | fault => exact .fault

section Lists

variable {α α' : Type} {f : α → α'} {n n' : Nat}
  {item : (c : Cursor) → c.remaining ≤ n → Step c.remaining α}
  {item' : (c : Cursor) → c.remaining ≤ n' → Step c.remaining α'} {closing : TokenKind}

theorem renamed_items (hi : ∀ c h h', (item c h).Renamed σ f (item' (c.mapTokens σ) h'))
    (c : Cursor) (h : c.remaining ≤ n) (h' : (c.mapTokens σ).remaining ≤ n') :
    (items item closing c h).Renamed σ (List.map f)
      (items item' closing (c.mapTokens σ) h') := by
  rw [items, items]
  refine (hi c h h').andThen fun a rest hr _ => ?_
  rw [next?_mapTokens]
  cases rest.next? with
  | none => exact .fault
  | some t =>
    have := t.shorter
    dsimp only [Option.map, Taken.mapTokens]
    rw [σ.kind_map]
    split
    · exact .widen (.map (renamed_items hi t.rest _ _) fun _ => rfl)
    · split
      · exact .done
      · exact .fault
termination_by c.remaining

theorem renamed_commaList (hi : ∀ c h h', (item c h).Renamed σ f (item' (c.mapTokens σ) h'))
    (c : Cursor) (h : c.remaining ≤ n) (h' : (c.mapTokens σ).remaining ≤ n') :
    (commaList item closing c h).Renamed σ (List.map f)
      (commaList item' closing (c.mapTokens σ) h') := by
  rw [commaList, commaList, accept?_mapTokens]
  cases c.accept? closing with
  | none => exact renamed_items hi c h h'
  | some t => exact .done

end Lists

/-! ## Expressions -/

theorem renamed_bangs {n n' : Nat} (operand : Expr) (c : Cursor) (h : c.remaining < n)
    (h' : (c.mapTokens σ).remaining < n') :
    (bangs operand c h).Renamed σ (Expr.mapTokens σ)
      (bangs (operand.mapTokens σ) (c.mapTokens σ) h') := by
  rw [bangs, bangs, accept?_mapTokens]
  cases c.accept? .bang with
  | none => exact .done
  | some t =>
    have := t.shorter
    exact renamed_bangs _ t.rest _ _
termination_by c.remaining

mutual

theorem renamed_sum (c : Cursor) :
    c.sum.Renamed σ (Expr.mapTokens σ) (c.mapTokens σ).sum := by
  rw [sum, sum]
  exact (renamed_product c).bind fun left rest _ _ => renamed_sumTail left rest _ _
termination_by 8 * c.remaining + 7

theorem renamed_sumTail {n n' : Nat} (left : Expr) (c : Cursor) (h : c.remaining < n)
    (h' : (c.mapTokens σ).remaining < n') :
    (c.sumTail left h).Renamed σ (Expr.mapTokens σ)
      ((c.mapTokens σ).sumTail (left.mapTokens σ) h') := by
  rw [sumTail, sumTail, next?_mapTokens]
  cases c.next? with
  | none => exact .done
  | some t =>
    have := t.shorter
    dsimp only [Option.map, Taken.mapTokens]
    rw [σ.kind_map]
    cases BinaryOp.ofAdditive? t.token.kind with
    | none => exact .done
    | some op =>
      refine .widen (.bind (renamed_product t.rest) fun right rest _ _ => ?_)
      exact renamed_sumTail (.binary op left right) rest _ _
termination_by 8 * c.remaining + 6

theorem renamed_product (c : Cursor) :
    c.product.Renamed σ (Expr.mapTokens σ) (c.mapTokens σ).product := by
  rw [product, product]
  exact (renamed_power c).bind fun left rest _ _ => renamed_productTail left rest _ _
termination_by 8 * c.remaining + 5

theorem renamed_productTail {n n' : Nat} (left : Expr) (c : Cursor) (h : c.remaining < n)
    (h' : (c.mapTokens σ).remaining < n') :
    (c.productTail left h).Renamed σ (Expr.mapTokens σ)
      ((c.mapTokens σ).productTail (left.mapTokens σ) h') := by
  rw [productTail, productTail, next?_mapTokens]
  cases c.next? with
  | none => exact .done
  | some t =>
    have := t.shorter
    dsimp only [Option.map, Taken.mapTokens]
    rw [σ.kind_map, justClosedAbs_mapTokens, absOpen_mapTokens]
    cases BinaryOp.ofMultiplicative? t.token.kind with
    | some op =>
      refine .widen (.bind (renamed_power t.rest.enter).leave fun right rest hr _ => ?_)
      have shorter : rest.remaining < t.rest.remaining := hr
      exact renamed_productTail (.binary op left right) rest _ _
    | none =>
      dsimp only
      split
      · exact .fault
      · split
        · refine .widen (.bind (renamed_power c) fun right rest _ _ => ?_)
          exact renamed_productTail (.binary .mul left right) rest _ _
        · exact .done
termination_by 8 * c.remaining + 4

theorem renamed_power (c : Cursor) :
    c.power.Renamed σ (Expr.mapTokens σ) (c.mapTokens σ).power := by
  rw [power, power]
  refine (renamed_negation c).bind fun base rest _ _ => ?_
  rw [accept?_mapTokens]
  cases rest.accept? .caret with
  | none => exact .done
  | some t =>
    have := t.shorter
    exact .widen (.map (renamed_power t.rest.enter).leave fun _ => rfl)
termination_by 8 * c.remaining + 3

theorem renamed_negation (c : Cursor) :
    c.negation.Renamed σ (Expr.mapTokens σ) (c.mapTokens σ).negation := by
  rw [negation, negation, accept?_mapTokens]
  cases c.accept? .minus with
  | none => exact renamed_factorial c
  | some t =>
    have := t.shorter
    exact .widen (.map (renamed_negation t.rest) fun _ => rfl)
termination_by 8 * c.remaining + 2

theorem renamed_factorial (c : Cursor) :
    c.factorial.Renamed σ (Expr.mapTokens σ) (c.mapTokens σ).factorial := by
  rw [factorial, factorial]
  exact (renamed_primary c).bind fun operand rest _ _ => renamed_bangs operand rest _ _
termination_by 8 * c.remaining + 1

theorem renamed_primary (c : Cursor) :
    c.primary.Renamed σ (Expr.mapTokens σ) (c.mapTokens σ).primary := by
  rw [primary, primary, next?_mapTokens]
  cases c.next? with
  | none => exact .fault
  | some t =>
    have := t.shorter
    dsimp only [Option.map, Taken.mapTokens]
    rw [σ.kind_map, mayOpenAbs_mapTokens]
    -- the kinds and the levels agree, so both cursors go the same way
    split
    · exact .done
    · exact .done
    · exact .done
    · refine .widen (.andThen (renamed_sum t.rest.enter).leave fun inner rest _ _ => ?_)
      exact .map (renamed_expect rest _) fun _ => rfl
    · split
      · refine .widen (.andThen ((renamed_sum (t.rest.setAbsOpen true)).setAbsOpen _) ?_)
        exact fun inner rest _ _ => .map (renamed_closeAbs rest) fun _ => rfl
      · exact .fault
    · refine .widen ?_
      rw [accept?_mapTokens]
      cases t.rest.accept? .underscore with
      | none => exact renamed_callArguments t.token none t.rest
      | some u =>
        have := u.shorter
        refine .widen (.andThen (renamed_primary u.rest.enter).leave fun variant rest hr _ => ?_)
        have shorter : rest.remaining < u.rest.remaining := hr
        exact renamed_callArguments t.token (some variant) rest
    · exact .fault
termination_by 8 * c.remaining

theorem renamed_callArguments (name : Token) (variant : Option Expr) (c : Cursor) :
    (c.callArguments name variant).Renamed σ (Expr.mapTokens σ)
      ((c.mapTokens σ).callArguments (σ name) (Expr.mapTokensOption σ variant)) := by
  rw [callArguments, callArguments]
  refine (renamed_expect c _).andThen fun _ rest _ _ => ?_
  refine (renamed_commaList (fun c' _ _ => (renamed_sum c'.enter).leave) rest _ _).map ?_
  intro args
  rw [Expr.mapTokens, Expr.mapTokensAll_eq_map]
termination_by 8 * c.remaining

end

/-! ## Declarations -/

theorem renamed_nested (c : Cursor) :
    (c.nested sum).Renamed σ (Expr.mapTokens σ) ((c.mapTokens σ).nested sum) :=
  (renamed_sum c.enter).leave

theorem renamed_comparison (c : Cursor) :
    c.comparison.Renamed σ id (c.mapTokens σ).comparison := by
  rw [comparison, comparison, next?_mapTokens]
  cases c.next? with
  | none => exact .fault
  | some t =>
    dsimp only [Option.map, Taken.mapTokens]
    rw [σ.kind_map]
    cases Comparison.ofKind? t.token.kind with
    | none => exact .fault
    | some op => exact .done

theorem renamed_links {n n' : Nat} (clause : Clause) (c : Cursor) (h : c.remaining < n)
    (h' : (c.mapTokens σ).remaining < n') :
    (c.links clause h).Renamed σ (Clause.mapTokens σ)
      ((c.mapTokens σ).links (clause.mapTokens σ) h') := by
  rw [links, links, next?_mapTokens]
  cases c.next? with
  | none => exact .done
  | some t =>
    have := t.shorter
    dsimp only [Option.map, Taken.mapTokens]
    rw [σ.kind_map]
    cases Comparison.ofKind? t.token.kind with
    | none => exact .done
    | some op =>
      refine .widen (.bind (renamed_nested t.rest) fun right rest _ _ => ?_)
      exact renamed_links (.chain clause op right) rest _ _
termination_by c.remaining

theorem renamed_clause (c : Cursor) :
    c.clause.Renamed σ (Clause.mapTokens σ) (c.mapTokens σ).clause := by
  refine .andThen (renamed_nested c) fun left c₁ _ _ => ?_
  refine .andThen (renamed_comparison c₁) fun op c₂ _ _ => ?_
  exact .bind (renamed_nested c₂) fun right c₃ _ _ => renamed_links (.compare left op right) c₃ _ _

theorem renamed_guardClauses (c : Cursor) :
    c.guardClauses.Renamed σ (List.map (Clause.mapTokens σ)) (c.mapTokens σ).guardClauses := by
  rw [guardClauses, guardClauses, accept?_mapTokens]
  cases c.accept? .braceClose with
  | none => exact renamed_items (fun c' _ _ => renamed_clause c') c _ _
  | some t => exact .fault

theorem renamed_finish {n n' : Nat} (d : Declaration) (c : Cursor) (h : c.remaining < n)
    (h' : (c.mapTokens σ).remaining < n') :
    (c.finish d h).Renamed σ (Declaration.mapTokens σ)
      ((c.mapTokens σ).finish (d.mapTokens σ) h') := by
  rw [finish, finish, peek?_mapTokens]
  cases c.peek? with
  | none => exact .done
  | some t =>
    dsimp only [Option.map]
    rw [σ.kind_map]
    split <;> exact .fault

theorem renamed_definition (name : Token) (params : List Token) (c : Cursor) :
    (c.definition name params).Renamed σ (Declaration.mapTokens σ)
      ((c.mapTokens σ).definition (σ name) (params.map σ)) := by
  rw [definition, definition, guardBlock?, guardBlock?, accept?_mapTokens]
  cases c.accept? .braceOpen with
  | some t =>
    refine .andThen (.widen (renamed_guardClauses t.rest)) fun clauses c₁ _ _ => ?_
    exact .bind (renamed_sum c₁) fun body c₂ _ _ =>
      renamed_finish { name, params, body, clauses } c₂ _ _
  | none =>
    refine .bind (renamed_sum c) fun body c₁ _ _ => ?_
    rw [guardBlock?, guardBlock?, accept?_mapTokens]
    cases c₁.accept? .braceOpen with
    | some t =>
      refine .widen (.bind (.widen (renamed_guardClauses t.rest)) fun clauses c₂ _ _ => ?_)
      exact renamed_finish { name, params, body, clauses } c₂ _ _
    | none => exact renamed_finish { name, params, body, clauses := [] } c₁ _ _

theorem renamed_declaration (c : Cursor) :
    c.declaration.Renamed σ (Declaration.mapTokens σ) (c.mapTokens σ).declaration := by
  refine .andThen (renamed_expect c _) fun name c₁ _ _ => ?_
  refine .andThen (renamed_expect c₁ _) fun _ c₂ _ _ => ?_
  refine .andThen (renamed_commaList (fun c' _ _ => renamed_expect c' _) c₂ _ _)
    fun params c₃ _ _ => ?_
  exact .andThen (renamed_expect c₃ _) fun _ c₄ _ _ => renamed_definition name params c₄

end Cursor

/-! ## Parsing -/

namespace Renaming

/-- Keeps all tokens. -/
def refl : Renaming :=
  ⟨fun t => t, fun _ => rfl⟩

/-- Moves all tokens that are not in the list. -/
def moving (ts : List Token) : Renaming where
  map t := if t ∈ ts then t else { t with offset := t.offset + 1 }
  kind_map t := by split <;> rfl

theorem moving_eq_self_iff {ts : List Token} {t : Token} : moving ts t = t ↔ t ∈ ts := by
  obtain ⟨kind, lexeme, offset⟩ := t
  simp [moving]

/-- Changes the tokens whose kinds are kept. -/
def ofFun (σ : Token → Token) : Renaming where
  map t := if (σ t).kind = t.kind then σ t else t
  kind_map t := by
    split
    · assumption
    · rfl

end Renaming

namespace Declaration

variable {ts : List Token} {t : Token}

/-- Other tokens of the same kinds are parsed to the same declaration, or to the same error, with
those tokens in it. -/
theorem parse_map (σ : Renaming) (ts : List Token) :
    parse (ts.map σ) = ((parse ts).map (mapTokens σ)).mapError (ParseError.mapTokens σ) :=
  (Cursor.start ts).renamed_declaration.outcome

theorem parse_moving (ts : List Token) :
    ((parse ts).map (mapTokens (Renaming.moving ts))).mapError
      (ParseError.mapTokens (Renaming.moving ts)) =
        ((parse ts).map (mapTokens Renaming.refl)).mapError
          (ParseError.mapTokens Renaming.refl) := by
  rw [← parse_map, ← parse_map]
  exact congrArg parse (List.map_congr_left fun t ht => Renaming.moving_eq_self_iff.2 ht)

/-- A declaration has no tokens but those it was parsed from: the parser would not notice if one of
the others were moved. -/
theorem mem_of_mem_kept {d : Declaration} (h : parse ts = .ok d) (ht : t ∈ d.kept) : t ∈ ts := by
  have hmoving := parse_moving ts
  rw [h] at hmoving
  exact Renaming.moving_eq_self_iff.1 (mapTokens_eq_iff.1 (Except.ok.inj hmoving) t ht)

theorem mem_of_mem_token? {e : ParseError} (h : parse ts = .error e) (ht : t ∈ e.token?) :
    t ∈ ts := by
  have hmoving := parse_moving ts
  rw [h] at hmoving
  exact Renaming.moving_eq_self_iff.1
    (ParseError.mapTokens_eq_iff.1 (Except.error.inj hmoving) t ht)

/-- It is enough that the kinds of the tokens in the list are kept. -/
theorem parse_map_of_mem {σ : Token → Token} (hσ : ∀ t ∈ ts, (σ t).kind = t.kind) :
    parse (ts.map σ) = ((parse ts).map (mapTokens σ)).mapError (ParseError.mapTokens σ) := by
  have agree : ∀ t ∈ ts, Renaming.ofFun σ t = σ t := fun t ht => if_pos (hσ t ht)
  rw [← List.map_congr_left agree, parse_map]
  cases h : parse ts with
  | ok d =>
    exact congrArg Except.ok (mapTokens_eq_iff.2 fun t ht => agree t (mem_of_mem_kept h ht))
  | error e =>
    exact congrArg Except.error
      (ParseError.mapTokens_eq_iff.2 fun t ht => agree t (mem_of_mem_token? h ht))

end Declaration

/-! ## Positions -/

namespace Token

/-- Tokens of the given kinds, each with its position for an offset. -/
def numbered (kinds : List TokenKind) : List Token :=
  kinds.mapIdx fun i kind => { kind, lexeme := "", offset := i }

/-- The token in a list at the position that `t` has for an offset. -/
def among (ts : List Token) (t : Token) : Token :=
  ts.getD t.offset t

theorem map_among_numbered (ts : List Token) :
    (numbered (ts.map kind)).map (among ts) = ts := by
  refine List.ext_getElem (by simp [numbered]) fun i _ hi => ?_
  simp [numbered, among, List.getElem?_eq_getElem hi]

theorem mem_numbered {kinds : List TokenKind} {t : Token} (h : t ∈ numbered kinds) :
    kinds[t.offset]? = some t.kind := by
  obtain ⟨i, hi, rfl⟩ := List.mem_mapIdx.1 h
  exact List.getElem?_eq_getElem hi

theorem kind_among {ts : List Token} {t : Token} (h : t ∈ numbered (ts.map kind)) :
    (among ts t).kind = t.kind := by
  have hkind := mem_numbered h
  rw [List.getElem?_map, Option.map_eq_some_iff] at hkind
  obtain ⟨u, hu, hkind⟩ := hkind
  rw [among, List.getD_eq_getElem?_getD, hu]
  exact hkind

theorem offset_lt_of_mem_numbered {kinds : List TokenKind} {t : Token} (h : t ∈ numbered kinds) :
    t.offset < kinds.length :=
  (List.getElem?_eq_some_iff.1 (mem_numbered h)).1

end Token

/-- What a list is parsed to is told by the kinds in it, up to its tokens. -/
theorem Declaration.parse_eq_numbered (ts : List Token) :
    parse ts = ((parse (Token.numbered (ts.map Token.kind))).map
      (mapTokens (Token.among ts))).mapError (ParseError.mapTokens (Token.among ts)) := by
  rw [← parse_map_of_mem fun t => Token.kind_among, Token.map_among_numbered]

/-- Parsing looks at nothing but kinds. Two lists of tokens that have the same kinds are parsed to
one and the same declaration, or to one and the same error, apart from the tokens in it, which are
those at the same positions of the two lists. -/
theorem parse_by_kinds {ts ts' : List Token} (h : ts.map Token.kind = ts'.map Token.kind) :
    (∃ d, Declaration.parse (Token.numbered (ts.map Token.kind)) = .ok d ∧
      (∀ t ∈ d.kept, t.offset < ts.length) ∧
      Declaration.parse ts = .ok (d.mapTokens (Token.among ts)) ∧
      Declaration.parse ts' = .ok (d.mapTokens (Token.among ts'))) ∨
    ∃ e, Declaration.parse (Token.numbered (ts.map Token.kind)) = .error e ∧
      (∀ t ∈ e.token?, t.offset < ts.length) ∧
      Declaration.parse ts = .error (e.mapTokens (Token.among ts)) ∧
      Declaration.parse ts' = .error (e.mapTokens (Token.among ts')) := by
  have hts := Declaration.parse_eq_numbered ts
  have hts' := Declaration.parse_eq_numbered ts'
  rw [← h] at hts'
  cases hparse : Declaration.parse (Token.numbered (ts.map Token.kind)) with
  | ok d =>
    rw [hparse] at hts hts'
    refine .inl ⟨d, rfl, fun t ht => ?_, hts, hts'⟩
    simpa using Token.offset_lt_of_mem_numbered (Declaration.mem_of_mem_kept hparse ht)
  | error e =>
    rw [hparse] at hts hts'
    refine .inr ⟨e, rfl, fun t ht => ?_, hts, hts'⟩
    simpa using Token.offset_lt_of_mem_numbered (Declaration.mem_of_mem_token? hparse ht)

/-- `f(x, y) = 2 y`, with positions in place of tokens. -/
def numberedProduct : Declaration :=
  let token (kind : TokenKind) (position : Nat) : Token :=
    { kind, lexeme := "", offset := position }
  { name := token .identifier 0
    params := [token .identifier 2, token .identifier 4]
    body := .binary .mul (.literal (token .number 7)) (.literal (token .identifier 8))
    clauses := [] }

theorem parse_by_kinds_product :
    let kinds : List TokenKind := [.identifier, .parenOpen, .identifier, .comma, .identifier,
      .parenClose, .equal, .number, .identifier]
    let ts := kinds.map Token.ofKind
    let ts' := kinds.mapIdx fun i kind => { kind, lexeme := "y", offset := 2 * i }
    (Declaration.parse ts = .ok (numberedProduct.mapTokens (Token.among ts)) ∧
      Declaration.parse ts' = .ok (numberedProduct.mapTokens (Token.among ts'))) ∧
    Declaration.parse (ts.drop 1) =
      .error (.unexpectedToken (.ofKind .parenOpen) (.kind .identifier)) ∧
    Declaration.parse (ts'.drop 1) =
      .error (.unexpectedToken { kind := .parenOpen, lexeme := "y", offset := 2 }
        (.kind .identifier)) := by
  intro kinds ts ts'
  have h : ts.map Token.kind = ts'.map Token.kind := rfl
  have hdrop : (ts.drop 1).map Token.kind = (ts'.drop 1).map Token.kind := rfl
  have hparse : Declaration.parse (Token.numbered kinds) = .ok numberedProduct := by
    with_unfolding_all rfl
  have hfails : Declaration.parse (Token.numbered (kinds.drop 1)) =
      .error (.unexpectedToken (.ofKind .parenOpen) (.kind .identifier)) := by
    with_unfolding_all rfl
  constructor
  · obtain ⟨d, hd, -, hts⟩ | ⟨e, he, -⟩ := parse_by_kinds h
    · cases hparse.symm.trans hd
      exact hts
    · cases hparse.symm.trans he
  · obtain ⟨d, hd, -⟩ | ⟨e, he, -, hts⟩ := parse_by_kinds hdrop
    · cases hfails.symm.trans hd
    · cases hfails.symm.trans he
      exact hts

end Formula

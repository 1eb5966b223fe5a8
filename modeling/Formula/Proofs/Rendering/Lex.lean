import Formula.Compiled

/-!
# Tokens of a rendered text

The text of a compiled function can be split into tokens again. Blanks, commas, parentheses and
the minus sign stand alone, and everything between them is one token. The kinds are chosen so that
the tokens of a rendered guard and body are those of a declaration: `if` opens a guard block, `&&`
separates its clauses, the brace after them closes it, and all qualified names but those of
constants are names of functions.

## Main definitions

* `Rendered.lex` — the tokens of a rendered text.
-/

namespace Formula.Rendered

/-- The characters that stand alone. -/
def isDelimiter (c : Char) : Bool :=
  c == ' ' || c == '(' || c == ')' || c == ',' || c == '-'

/-- The kind of a token that starts with neither a letter nor a digit. -/
def symbolKind : List Char → TokenKind
  | ['('] => .parenOpen
  | [')'] => .parenClose
  | [','] | ['&', '&'] => .comma
  | ['+'] => .plus
  | ['-'] => .minus
  | ['*'] => .star
  | ['/'] => .slash
  | ['%'] => .percent
  | ['*', '*'] => .caret
  | ['>'] => .greater
  | ['>', '='] => .greaterEqual
  | ['<'] => .less
  | ['<', '='] => .lessEqual
  | ['=', '='] => .equal
  | ['\x7b'] => .braceClose
  | _ => .function

def kindOf : List Char → TokenKind
  | [] => .function
  | c :: cs =>
    if c.isDigit then .number
    else if !c.isAlpha then symbolKind (c :: cs)
    else if cs = [] then .identifier
    else if c :: cs = ['i', 'f'] then .braceOpen
    else if "constants.".toList.isPrefixOf (c :: cs) then .constant
    else .function

/-- The token with a given text. -/
def token (w : List Char) : Token :=
  { kind := kindOf w, lexeme := String.ofList w, offset := 0 }

/-- The token of a given kind and text. -/
def named (kind : TokenKind) (text : String) : Token :=
  { kind, lexeme := text, offset := 0 }

theorem token_eq {kind : TokenKind} {text : String} (h : kindOf text.toList = kind) :
    token text.toList = named kind text := by
  simp [token, named, h]

/-- The token of a delimiter; a blank has none. -/
def delimiter (d : Char) : List Token :=
  if d = ' ' then [] else [token [d]]

/-- The token of a run of characters, if there are any. -/
def run (w : List Char) : List Token :=
  if w = [] then [] else [token w]

/-- The tokens of a text, of whose first token some characters have been read. -/
def lexFrom (w : List Char) : List Char → List Token
  | [] => run w
  | c :: cs =>
    if isDelimiter c then run w ++ delimiter c ++ lexFrom [] cs else lexFrom (w ++ [c]) cs

/-- The tokens of a text. -/
def lex (cs : List Char) : List Token :=
  lexFrom [] cs

/-- A text that is one token. -/
def IsRun (w : List Char) : Prop :=
  w ≠ [] ∧ ∀ c ∈ w, isDelimiter c = false

variable {w cs ds : List Char} {d : Char}

theorem lexFrom_append (hd : isDelimiter d = true) :
    lexFrom w (cs ++ d :: ds) = lexFrom w cs ++ (delimiter d ++ lex ds) := by
  induction cs generalizing w with
  | nil => simp [lexFrom, lex, hd]
  | cons c cs ih =>
    by_cases hc : isDelimiter c = true
    · simp [lexFrom, hc, ih]
    · simp [lexFrom, hc, ih]

/-- A delimiter divides a text. -/
theorem lex_append (cs : List Char) (hd : isDelimiter d = true) (ds : List Char) :
    lex (cs ++ d :: ds) = lex cs ++ (delimiter d ++ lex ds) :=
  lexFrom_append hd

theorem lex_cons (hd : isDelimiter d = true) (ds : List Char) :
    lex (d :: ds) = delimiter d ++ lex ds :=
  lex_append [] hd ds

theorem lexFrom_of_run (h : ∀ c ∈ cs, isDelimiter c = false) : lexFrom w cs = run (w ++ cs) := by
  induction cs generalizing w with
  | nil => simp [lexFrom]
  | cons c cs ih =>
    rw [lexFrom, if_neg (by simp [h c (by simp)]), ih fun d hd => h d (List.mem_cons_of_mem c hd)]
    simp

theorem lex_of_run (h : IsRun w) : lex w = [token w] := by
  rw [lex, lexFrom_of_run h.2, List.nil_append, run, if_neg h.1]

/-! ## The texts of which a rendering is made -/

theorem lex_parenthesized (s : String) :
    lex ("(" ++ s ++ ")").toList = token ['('] :: (lex s.toList ++ [token [')']]) := by
  have hlist : ("(" ++ s ++ ")").toList = '(' :: (s.toList ++ [')']) := by simp
  rw [hlist, lex_cons rfl, lex_append _ rfl]
  rfl

theorem lex_negated (s : String) :
    lex ("(-" ++ s ++ ")").toList =
      token ['('] :: token ['-'] :: (lex s.toList ++ [token [')']]) := by
  have hlist : ("(-" ++ s ++ ")").toList = '(' :: '-' :: (s.toList ++ [')']) := by simp
  rw [hlist, lex_cons rfl, lex_cons rfl, lex_append _ rfl]
  rfl

theorem lex_comma (s s' : String) :
    lex (s ++ ", " ++ s').toList = lex s.toList ++ token [','] :: lex s'.toList := by
  have hlist : (s ++ ", " ++ s').toList = s.toList ++ ',' :: ' ' :: s'.toList := by simp
  rw [hlist, lex_append _ rfl, lex_cons rfl]
  rfl

theorem lex_operator {op : String} (hop : lex op.toList = [token op.toList]) (s s' : String) :
    lex (s ++ " " ++ op ++ " " ++ s').toList =
      lex s.toList ++ token op.toList :: lex s'.toList := by
  have hlist : (s ++ " " ++ op ++ " " ++ s').toList =
      s.toList ++ ' ' :: (op.toList ++ ' ' :: s'.toList) := by simp
  rw [hlist, lex_append _ rfl, lex_append _ rfl, hop]
  rfl

theorem lex_call {name : String} (hname : IsRun name.toList) (s : String) :
    lex (name ++ "(" ++ s ++ ")").toList =
      token name.toList :: token ['('] :: (lex s.toList ++ [token [')']]) := by
  have hlist : (name ++ "(" ++ s ++ ")").toList = name.toList ++ '(' :: (s.toList ++ [')']) := by
    simp
  rw [hlist, lex_append _ rfl, lex_append _ rfl, lex_of_run hname]
  rfl

end Formula.Rendered

import Formula.Proofs.Conditions
import Formula.Proofs.Parsing
import Formula.Proofs.Rendering.Tree

/-!
# Reading the text of a compiled function

The parameters in the text of a compiled function end at the second pipe. With them as a header, the
text after them is read as a declaration: the conditions are a guard before the body, and the body
is a call of `Some`. The grammar of declarations is unambiguous, so the text has one reading.

## Main definitions

* `CompiledFunction.reading` — the declaration that the text of a function is read as.

## Main statements

* `CompiledFunction.Legible.reading_eq` — functions with the same text have the same reading.
-/

namespace Formula

open Rendered

variable {T : Type}

namespace Rendered

/-! ## Conditions -/

def pairText : Node T × Comparison × Node T → String
  | (l, op, r) => l.source ++ " " ++ op.symbol ++ " " ++ r.source

def pairClause : Node T × Comparison × Node T → Clause
  | (l, op, r) => .compare l.tree op r.tree

theorem linkSources_eq (left : Node T) (links : List (Comparison × Node T)) :
    Condition.linkSources left.source links =
      ((left :: links.map Prod.snd).zip
        ((links.map Prod.fst).zip (links.map Prod.snd))).map pairText := by
  induction links generalizing left with
  | nil => rfl
  | cons link links ih => exact congrArg (pairText (left, link.1, link.2) :: ·) (ih link.2)

theorem source_condition (c : Condition T) :
    c.source = " && ".intercalate (c.pairs.map pairText) :=
  congrArg _ (linkSources_eq c.first c.links)

theorem mem_operands_of_pairs {c : Condition T} {l r : Node T} {op : Comparison}
    (h : (l, op, r) ∈ c.pairs) : l ∈ c.operands ∧ r ∈ c.operands := by
  obtain ⟨hl, hr⟩ := List.of_mem_zip h
  exact ⟨hl, List.mem_of_mem_tail (List.of_mem_zip hr).2⟩

theorem pairs_ne_nil {c : Condition T} (h : c.links ≠ []) : c.pairs ≠ [] := by
  obtain ⟨link, links, hlinks⟩ := List.exists_cons_of_ne_nil h
  simp [Condition.pairs, Condition.operands, Condition.comparisons, hlinks]

theorem phrase_pair {l r : Node T} (op : Comparison) (hl : ReadsAs .sum l) (hr : ReadsAs .sum r) :
    ClausePhrase (lex (pairText (l, op, r)).toList) (pairClause (l, op, r)) := by
  have hop : lex op.symbol.toList = [token op.symbol.toList] := by
    cases op <;> exact lex_of_run (by simp [IsRun, isDelimiter, Comparison.symbol])
  have mark : ComparisonMark (token op.symbol.toList).kind op := by
    cases op <;> constructor
  rw [pairText, lex_operator hop]
  exact .compare (hl false) mark (hr false)

theorem lex_conjunction (a b : String) :
    lex (a ++ " && " ++ b).toList = lex a.toList ++ token ['&', '&'] :: lex b.toList := by
  have hlist : (a ++ " && " ++ b).toList = a.toList ++ ' ' :: (['&', '&'] ++ ' ' :: b.toList) := by
    simp
  have hrun : IsRun ['&', '&'] := by simp [IsRun, isDelimiter]
  rw [hlist, lex_append _ rfl, lex_append _ rfl, lex_of_run hrun]
  rfl

theorem phrase_condition {c : Condition T} (hlinks : c.links ≠ [])
    (h : ∀ n ∈ c.operands, ReadsAs .sum n) :
    Separated ClausePhrase (lex c.source.toList) (c.pairs.map pairClause) := by
  rw [source_condition]
  refine separated_intercalate rfl lex_conjunction (pairs_ne_nil hlinks) ?_
  rintro ⟨l, op, r⟩ hpair
  obtain ⟨hl, hr⟩ := mem_operands_of_pairs hpair
  exact phrase_pair op (h l hl) (h r hr)

theorem phrase_conditions {cs : List (Condition T)} (hne : cs ≠ [])
    (hlinks : ∀ c ∈ cs, c.links ≠ []) (h : ∀ c ∈ cs, ∀ n ∈ c.operands, ReadsAs .sum n) :
    Separated ClausePhrase (lex (" && ".intercalate (cs.map Condition.source)).toList)
      ((cs.flatMap Condition.pairs).map pairClause) := by
  induction cs with
  | nil => exact absurd rfl hne
  | cons c cs ih =>
    have first := phrase_condition (hlinks c (by simp)) (h c (by simp))
    cases cs with
    | nil => simpa using first
    | cons c' cs =>
      have others := ih (by simp) (fun d hd => hlinks d (List.mem_cons_of_mem c hd))
        fun d hd => h d (List.mem_cons_of_mem c hd)
      rw [List.map_cons, List.map_cons, String.intercalate_cons_cons, lex_conjunction,
        List.flatMap_cons, List.map_append]
      exact first.append rfl others

theorem lex_guarded (conditions value : String) :
    lex ("if " ++ conditions ++ " \x7b " ++ value).toList =
      token ['i', 'f'] :: (lex conditions.toList ++ [token ['\x7b']]) ++ lex value.toList := by
  have hlist : ("if " ++ conditions ++ " \x7b " ++ value).toList =
      ['i', 'f'] ++ ' ' :: (conditions.toList ++ ' ' :: (['\x7b'] ++ ' ' :: value.toList)) := by
    simp
  have hif : IsRun ['i', 'f'] := by simp [IsRun, isDelimiter]
  have hbrace : IsRun ['\x7b'] := by simp [IsRun, isDelimiter]
  rw [hlist, lex_append _ rfl, lex_append _ rfl, lex_append _ rfl, lex_of_run hif,
    lex_of_run hbrace]
  simp [delimiter]

/-! ## Parameters -/

theorem mem_intercalate {ps : List String} {c : Char} (h : c ∈ (", ".intercalate ps).toList) :
    c = ',' ∨ c = ' ' ∨ ∃ p ∈ ps, c ∈ p.toList := by
  induction ps with
  | nil => simp at h
  | cons p ps ih =>
    cases ps with
    | nil => exact .inr (.inr ⟨p, by simp, by simpa using h⟩)
    | cons q ps =>
      rw [String.intercalate_cons_cons] at h
      simp only [String.toList_append, List.mem_append] at h
      rcases h with (h | h) | h
      · exact .inr (.inr ⟨p, by simp, h⟩)
      · have : c = ',' ∨ c = ' ' := by simpa using h
        exact this.imp_right .inl
      · rcases ih h with h | h | ⟨p', hp, h⟩
        · exact .inl h
        · exact .inr (.inl h)
        · exact .inr (.inr ⟨p', by simp [List.mem_cons.1 hp], h⟩)

/-- The names of parameters are single letters. -/
def Letters (ps : List String) : Prop :=
  ∀ p ∈ ps, IsWord p.toList ∧ p.toList.length = 1

theorem phrase_parameters {ps : List String} (h : Letters ps) (hne : ps ≠ []) :
    Separated ParameterPhrase (lex (", ".intercalate ps).toList) (ps.map (named .identifier)) := by
  have list : Separated ParameterPhrase (lex (", ".intercalate (ps.map id)).toList)
      (ps.map (named .identifier)) := by
    refine separated_intercalate rfl lex_comma hne fun p hp => ?_
    obtain ⟨hword, hlength⟩ := h p hp
    rw [id, lex_of_run (isRun_of_isWord hword), token_eq (kindOf_letter hword hlength)]
    exact ⟨rfl, rfl⟩
  rwa [List.map_id] at list

theorem pipe_notMem {ps : List String} (h : Letters ps) : '|' ∉ (", ".intercalate ps).toList := by
  intro hmem
  rcases mem_intercalate hmem with hc | hc | ⟨p, hp, hc⟩
  · cases hc
  · cases hc
  · have := (h p hp).1.2 _ hc
    simp at this

/-- A text is divided at the first place of a character in one way only. -/
theorem append_cons_injective {c : Char} {xs xs' ys ys' : List Char} (hxs : c ∉ xs)
    (hxs' : c ∉ xs') (h : xs ++ c :: ys = xs' ++ c :: ys') : xs = xs' ∧ ys = ys' := by
  have cut (zs ws : List Char) (hzs : c ∉ zs) : (zs ++ c :: ws).takeWhile (· != c) = zs := by
    have hall : ∀ d ∈ zs, (d != c) = true := fun d hd => by
      simp only [bne_iff_ne]
      rintro rfl
      exact hzs hd
    simp [List.takeWhile_append_of_pos hall]
  have hfirst : xs = xs' := by rw [← cut xs ys hxs, h, cut xs' ys' hxs']
  subst hfirst
  exact ⟨rfl, (List.cons.inj (List.append_cancel_left h)).2⟩

end Rendered

namespace CompiledFunction

/-- The text of the value where the conditions hold. -/
def valueText (f : CompiledFunction T) : String :=
  "Some(" ++ f.body.source ++ ")"

/-- The text between the parameters and the branch in which the conditions fail. -/
def definitionText (f : CompiledFunction T) : String :=
  if f.conditions.isEmpty then f.valueText
  else "if " ++ " && ".intercalate (f.conditions.map Condition.source) ++ " \x7b " ++ f.valueText

/-- The text of the branch in which the conditions fail. -/
def elseText (f : CompiledFunction T) : String :=
  if f.conditions.isEmpty then "" else " \x7d else \x7b None \x7d"

theorem source_eq (f : CompiledFunction T) :
    f.source = "|" ++ ", ".intercalate f.params ++ "| " ++ (f.definitionText ++ f.elseText) := by
  unfold source definitionText elseText valueText
  split
  · rw [String.append_empty]
  · simp only [String.append_assoc]

/-- The declaration that the text of a function is read as. -/
def reading (f : CompiledFunction T) : Declaration :=
  { name := named .identifier "f"
    params := f.params.map (named .identifier)
    body := .call (named .function "Some") none [f.body.tree]
    clauses := (f.conditions.flatMap Condition.pairs).map pairClause }

theorem params_eq {f g : CompiledFunction T} (h : f.reading = g.reading) :
    f.params = g.params := by
  have hlexemes := congrArg Declaration.paramNames h
  simpa [reading, Declaration.paramNames, named, Function.comp_def] using hlexemes

/-- Every part of the text of a function is one that can be read. -/
structure Legible (f : CompiledFunction T) : Prop where
  letters : Letters f.params
  links_ne_nil : ∀ c ∈ f.conditions, c.links ≠ []
  readsAs_operand : ∀ c ∈ f.conditions, ∀ n ∈ c.operands, ReadsAs .sum n
  readsAs_body : ReadsAs .sum f.body

/-- The tokens that the text of the parameters and the text after them stand for. -/
def readingTokens (params definition : String) : List Token :=
  named .identifier "f" :: .ofKind .parenOpen ::
    (lex params.toList ++ [.ofKind .parenClose, .ofKind .equal]) ++ lex definition.toList

namespace Legible

variable {f g : CompiledFunction T}

theorem phrase_header (h : f.Legible) :
    HeaderPhrase (named .identifier "f" :: .ofKind .parenOpen ::
      (lex (", ".intercalate f.params).toList ++ [.ofKind .parenClose, .ofKind .equal]))
      f.reading.name f.reading.params := by
  by_cases hne : f.params = []
  · have hparams : f.reading.params = [] := by simp [reading, hne]
    rw [hparams, hne]
    exact .constant rfl rfl rfl rfl
  · exact .function rfl rfl (phrase_parameters h.letters hne) rfl rfl

theorem phrase_value (h : f.Legible) :
    Phrase .sum false false (lex f.valueText.toList) f.reading.body := by
  have hrun : IsRun "Some".toList := by simp [IsRun, isDelimiter]
  have hcall := phrase_call hrun (by simp [kindOf]) [f.body] (by simpa using h.readsAs_body) false
  have htext : f.valueText = "Some" ++ "(" ++ ", ".intercalate (Node.sources [f.body]) ++ ")" := by
    show "Some(" ++ f.body.source ++ ")" = "Some" ++ "(" ++ ", ".intercalate [f.body.source] ++ ")"
    simp
  rw [htext]
  exact hcall.power_of_primary.sum_of_power

theorem phrase_reading (h : f.Legible) :
    DeclarationPhrase (readingTokens (", ".intercalate f.params) f.definitionText) f.reading := by
  by_cases hempty : f.conditions = []
  · have htext : f.definitionText = f.valueText := by simp [definitionText, hempty]
    have hclauses : f.reading = { f.reading with clauses := [] } := by simp [reading, hempty]
    rw [htext, hclauses]
    exact .total h.phrase_header h.phrase_value
  · have htext : f.definitionText = "if " ++
        " && ".intercalate (f.conditions.map Condition.source) ++ " \x7b " ++ f.valueText := by
      simp [definitionText, hempty]
    rw [htext, readingTokens, lex_guarded]
    have clauses := phrase_conditions hempty h.links_ne_nil h.readsAs_operand
    exact .guardFirst h.phrase_header (.block rfl clauses rfl) h.phrase_value

theorem texts_eq (h : f.Legible) (h' : g.Legible) (heq : f.source = g.source) :
    ", ".intercalate f.params = ", ".intercalate g.params ∧
      f.definitionText ++ f.elseText = g.definitionText ++ g.elseText := by
  have split (f : CompiledFunction T) : f.source.toList =
      '|' :: ((", ".intercalate f.params).toList ++
        '|' :: (' ' :: (f.definitionText ++ f.elseText).toList)) := by
    rw [source_eq]
    simp
  have hlist := congrArg String.toList heq
  rw [split f, split g] at hlist
  obtain ⟨hparams, htext⟩ := append_cons_injective (pipe_notMem h.letters)
    (pipe_notMem h'.letters) (List.cons.inj hlist).2
  exact ⟨String.toList_inj.1 hparams, String.toList_inj.1 (List.cons.inj htext).2⟩

/-- The text after the parameters shows by its first letter whether there are conditions. -/
theorem definitionText_eq
    (h : f.definitionText ++ f.elseText = g.definitionText ++ g.elseText) :
    f.definitionText = g.definitionText := by
  have hlist := congrArg String.toList h
  have starts (f : CompiledFunction T) : (f.definitionText ++ f.elseText).toList.head? =
      some (if f.conditions.isEmpty then 'S' else 'i') := by
    unfold definitionText valueText
    split <;> simp
  have hconditions : f.conditions.isEmpty = g.conditions.isEmpty := by
    have hhead := congrArg List.head? hlist
    rw [starts f, starts g] at hhead
    revert hhead
    cases f.conditions.isEmpty <;> cases g.conditions.isEmpty <;> decide
  -- either both texts have the branch for failed conditions or neither does
  have helse : f.elseText = g.elseText := by rw [elseText, elseText, hconditions]
  rw [helse, String.toList_append, String.toList_append] at hlist
  exact String.toList_inj.1 (List.append_cancel_right hlist)

/-- Functions with the same text have the same reading. -/
theorem reading_eq (h : f.Legible) (h' : g.Legible) (heq : f.source = g.source) :
    f.reading = g.reading := by
  obtain ⟨hparams, htext⟩ := h.texts_eq h' heq
  have phrase := h.phrase_reading
  rw [hparams, definitionText_eq htext] at phrase
  exact phrase.unique h'.phrase_reading

end Legible

end CompiledFunction

end Formula

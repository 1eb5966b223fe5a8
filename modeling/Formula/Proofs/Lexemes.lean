import Formula.Token.Lexeme
import Mathlib.Data.List.TakeWhile

/-!
# Lexemes of a text

Which lexeme a text starts with can be said without following the scan: it is a well-formed lexeme
whose text stands there and which the next character would not make longer. So the lexemes of a text
are determined by the places where it is cut, and a text may be split on its own on both sides of
such a place.

## Main definitions

* `MaximalRun` — a run of characters of one sort that cannot be made longer.
* `Lexeme.WellFormed` — the lexemes there are.
* `Lexeme.growsWith` — whether a character right after a lexeme would belong to it.

## Main statements

* `Lexeme.WellFormed.take_eq` — the first lexeme of a text.
* `Lexeme.split_append` — the lexemes on both sides of a place where a text can be cut.
* `Lexeme.split_eq_append` — lexemes at the beginning of a text are the lexemes of their own text.
-/

namespace Formula

/-! ## Runs of characters -/

/-- A run of letters. -/
def IsWord (w : List Char) : Prop :=
  w ≠ [] ∧ ∀ c ∈ w, c.isAlpha = true

def IsDigits (w : List Char) : Prop :=
  w ≠ [] ∧ ∀ c ∈ w, c.isDigit = true

/-- Digits, or digits on both sides of a radix point. -/
def IsDecimal (w : List Char) : Prop :=
  IsDigits w ∨ ∃ whole fraction, IsDigits whole ∧ IsDigits fraction ∧ w = whole ++ '.' :: fraction

/-- Between `before` and `after`, the text `w` is a run of characters with a property and has no
such character next to it. -/
structure MaximalRun (p : Char → Bool) (before w after : List Char) : Prop where
  ne_nil : w ≠ []
  all : ∀ c ∈ w, p c = true
  starts : ∀ c ∈ before.getLast?, p c = false
  ends : ∀ c ∈ after.head?, p c = false

section Runs

variable {p : Char → Bool} {w rest : List Char}

theorem takeWhile_append_of_head? (hw : ∀ c ∈ w, p c = true)
    (hrest : ∀ c ∈ rest.head?, p c = false) :
    (w ++ rest).takeWhile p = w ∧ (w ++ rest).dropWhile p = rest := by
  rw [List.takeWhile_append_of_pos hw, List.dropWhile_append_of_pos hw]
  cases rest <;> simp_all

theorem head?_dropWhile (p : Char → Bool) (cs : List Char) :
    ∀ c ∈ (cs.dropWhile p).head?, p c = false := by
  intro c hc
  have := List.head?_dropWhile_not p cs
  rwa [Option.mem_def.1 hc] at this

end Runs

namespace Lexeme

/-! ## The first lexeme -/

/-- The lexemes that a text can have. -/
inductive WellFormed : Lexeme → Prop where
  | blank {c : Char} (h : isBlank c = true) : WellFormed (.blank c)
  | symbol {c : Char} {kind : TokenKind} (h : symbolKind? c = some kind) :
      WellFormed (.symbol kind [c])
  | orEqual {c : Char} {kind both : TokenKind} (h : symbolKind? c = some kind)
      (hboth : orEqual? kind = some both) : WellFormed (.symbol both [c, '='])
  | integer {w : List Char} (h : IsDigits w) : WellFormed (.number w)
  /-- A number with a radix point, after which there may be no digits. -/
  | fraction {whole digits : List Char} (h : IsDigits whole)
      (hdigits : ∀ c ∈ digits, c.isDigit = true) : WellFormed (.number (whole ++ '.' :: digits))
  | word {w : List Char} (h : IsWord w) : WellFormed (.word w)
  | stray {c : Char} (hblank : isBlank c = false) (hdigit : c.isDigit = false)
      (halpha : c.isAlpha = false) (h : symbolKind? c = none) : WellFormed (.stray c)

/-- Whether the lexeme would be longer if the character stood right after it. -/
def growsWith : Lexeme → Char → Bool
  | number text, c => c.isDigit || (c == '.' && !text.contains '.')
  | word _, c => c.isAlpha
  | symbol kind _, c => (orEqual? kind).isSome && c == '='
  | _, _ => false

theorem WellFormed.text_ne_nil {l : Lexeme} (h : l.WellFormed) : l.text ≠ [] := by
  cases h with
  | integer h | word h => exact h.1
  | _ => simp [text]

theorem WellFormed.mem_text {l : Lexeme} (h : l.WellFormed) {c : Char} {cs rest : List Char}
    (htext : c :: cs = l.text ++ rest) : c ∈ l.text := by
  obtain ⟨d, ds, hds⟩ := List.exists_cons_of_ne_nil h.text_ne_nil
  rw [hds] at htext ⊢
  simp [(List.cons.inj htext).1]

/-! ### Classes of characters -/

theorem val_of_isAlpha {c : Char} (h : c.isAlpha = true) :
    65 ≤ c.val ∧ c.val ≤ 90 ∨ 97 ≤ c.val ∧ c.val ≤ 122 := by
  have hrange : (decide (65 ≤ c.val ∧ c.val ≤ 90) ||
      decide (97 ≤ c.val) && decide (c.val ≤ 122)) = true := h
  simpa only [Bool.or_eq_true, Bool.and_eq_true, decide_eq_true_eq] using hrange

theorem isDigit_of_isAlpha {c : Char} (h : c.isAlpha = true) : c.isDigit = false := by
  have hrange := val_of_isAlpha h
  show (decide (48 ≤ c.val) && decide (c.val ≤ 57)) = false
  grind

theorem utf8Size_of_isAlpha {c : Char} (h : c.isAlpha = true) : c.utf8Size = 1 := by
  have hrange := val_of_isAlpha h
  rw [Char.utf8Size_eq_one_iff]
  grind

theorem classes_of_isBlank {c : Char} (h : isBlank c = true) :
    c.isDigit = false ∧ c.isAlpha = false := by
  simp only [isBlank, Bool.or_eq_true, beq_iff_eq] at h
  rcases h with ((rfl | rfl) | rfl) | rfl <;> decide

theorem classes_of_symbolKind? {c : Char} {kind : TokenKind} (h : symbolKind? c = some kind) :
    isBlank c = false ∧ c.isDigit = false ∧ c.isAlpha = false := by
  unfold symbolKind? at h
  split at h <;> first | decide | cases h

theorem isBlank_of_isDigit {c : Char} (h : c.isDigit = true) : isBlank c = false := by
  cases hblank : isBlank c with
  | false => rfl
  | true => simp [classes_of_isBlank hblank] at h

theorem isBlank_of_isAlpha {c : Char} (h : c.isAlpha = true) : isBlank c = false := by
  cases hblank : isBlank c with
  | false => rfl
  | true => simp [classes_of_isBlank hblank] at h

/-! ### Taking the first lexeme -/

theorem not_mem_of_isDigit {w : List Char} (h : ∀ c ∈ w, c.isDigit = true) : '.' ∉ w := fun hdot =>
  absurd (h _ hdot) (by decide)

/-- A number of digits only is followed by neither a digit nor a radix point. -/
theorem growsWith_integer {w : List Char} (h : IsDigits w) (c : Char) :
    (number w).growsWith c = (c.isDigit || c == '.') := by
  simp [growsWith, not_mem_of_isDigit h.2]

theorem growsWith_fraction (whole digits : List Char) (c : Char) :
    (number (whole ++ '.' :: digits)).growsWith c = c.isDigit := by
  simp [growsWith]

theorem takeNumber_integer {c : Char} {w rest : List Char} (hw : ∀ d ∈ w, d.isDigit = true)
    (hrest : ∀ b ∈ rest.head?, (b.isDigit || b == '.') = false) :
    takeNumber c (w ++ rest) = (number (c :: w), rest) := by
  have hdigit : ∀ b ∈ rest.head?, b.isDigit = false := fun b hb => by grind
  obtain ⟨htake, hdrop⟩ := takeWhile_append_of_head? hw hdigit
  unfold takeNumber
  rw [htake, hdrop]
  split
  · simp at hrest
  · rfl

theorem takeNumber_fraction {c : Char} {w digits rest : List Char}
    (hw : ∀ d ∈ w, d.isDigit = true) (hdigits : ∀ d ∈ digits, d.isDigit = true)
    (hrest : ∀ b ∈ rest.head?, b.isDigit = false) :
    takeNumber c (w ++ '.' :: (digits ++ rest)) = (number (c :: w ++ '.' :: digits), rest) := by
  have hpoint : ∀ b ∈ ('.' :: (digits ++ rest)).head?, b.isDigit = false := by simp
  obtain ⟨htake, hdrop⟩ := takeWhile_append_of_head? hw hpoint
  obtain ⟨htake', hdrop'⟩ := takeWhile_append_of_head? hdigits hrest
  unfold takeNumber
  rw [htake, hdrop]
  simp [htake', hdrop']

/-- A text starts with the lexeme that stands there and that the next character does not make
longer. -/
theorem WellFormed.take_eq {l : Lexeme} (h : l.WellFormed) {c : Char} {cs rest : List Char}
    (htext : c :: cs = l.text ++ rest) (hrest : ∀ b ∈ rest.head?, l.growsWith b = false) :
    take c cs = (l, rest) := by
  cases h with
  | blank h =>
    obtain ⟨rfl, rfl⟩ := List.cons.inj htext
    simp [take, h]
  | @symbol _ kind h =>
    obtain ⟨rfl, rfl⟩ := List.cons.inj htext
    obtain ⟨hblank, hdigit, halpha⟩ := classes_of_symbolKind? h
    have hsymbol : take c cs = takeSymbol kind c cs := by simp [take, hblank, hdigit, halpha, h]
    rw [hsymbol]
    unfold takeSymbol
    split
    · next both rest hboth =>
      simp [growsWith, hboth] at hrest
    · rfl
  | orEqual h hboth =>
    obtain ⟨rfl, rfl⟩ := List.cons.inj htext
    obtain ⟨hblank, hdigit, halpha⟩ := classes_of_symbolKind? h
    simp [take, hblank, hdigit, halpha, h, takeSymbol, hboth]
  | @integer w h =>
    obtain ⟨d, w, rfl⟩ := List.exists_cons_of_ne_nil h.1
    obtain ⟨rfl, rfl⟩ := List.cons.inj htext
    have hdigits := List.forall_mem_cons.1 h.2
    rw [take, isBlank_of_isDigit hdigits.1, hdigits.1]
    refine takeNumber_integer hdigits.2 fun b hb => ?_
    rw [← growsWith_integer h]
    exact hrest b hb
  | @fraction whole digits h hdigits =>
    obtain ⟨d, w, rfl⟩ := List.exists_cons_of_ne_nil h.1
    have hwhole := List.forall_mem_cons.1 h.2
    simp only [text, List.cons_append, List.append_assoc] at htext
    obtain ⟨rfl, rfl⟩ := List.cons.inj htext
    rw [take, isBlank_of_isDigit hwhole.1, hwhole.1]
    refine takeNumber_fraction hwhole.2 hdigits fun b hb => ?_
    rw [← growsWith_fraction]
    exact hrest b hb
  | @word w h =>
    obtain ⟨d, w, rfl⟩ := List.exists_cons_of_ne_nil h.1
    obtain ⟨rfl, rfl⟩ := List.cons.inj htext
    have hletters := List.forall_mem_cons.1 h.2
    obtain ⟨htake, hdrop⟩ := takeWhile_append_of_head? hletters.2 hrest
    simp [take, isBlank_of_isAlpha hletters.1, isDigit_of_isAlpha hletters.1, hletters.1, htake,
      hdrop]
  | stray hblank hdigit halpha h =>
    obtain ⟨rfl, rfl⟩ := List.cons.inj htext
    simp [take, hblank, hdigit, halpha, h]

theorem wellFormed_takeNumber {c : Char} (hc : c.isDigit = true) (cs : List Char) :
    (takeNumber c cs).1.WellFormed ∧
      ∀ b ∈ (takeNumber c cs).2.head?, (takeNumber c cs).1.growsWith b = false := by
  have whole : IsDigits (c :: cs.takeWhile Char.isDigit) := by
    refine ⟨by simp, List.forall_mem_cons.2 ⟨hc, fun d hd => List.mem_takeWhile_imp hd⟩⟩
  have hstop := head?_dropWhile Char.isDigit cs
  unfold takeNumber
  split
  · next rest hdrop =>
    refine ⟨.fraction whole fun d hd => List.mem_takeWhile_imp hd, fun b hb => ?_⟩
    rw [growsWith_fraction]
    exact head?_dropWhile _ rest b hb
  · next hdot =>
    refine ⟨.integer whole, fun b hb => ?_⟩
    have hpoint : b ≠ '.' := by
      rintro rfl
      obtain ⟨rest, hrest⟩ := List.head?_eq_some_iff.1 hb
      exact hdot rest hrest
    rw [growsWith_integer whole]
    simpa [hpoint] using hstop b hb

/-- The first lexeme of a text is well formed and as long as it can be. -/
theorem wellFormed_take (c : Char) (cs : List Char) :
    (take c cs).1.WellFormed ∧ ∀ b ∈ (take c cs).2.head?, (take c cs).1.growsWith b = false := by
  unfold take
  split
  · next hblank => exact ⟨.blank hblank, by simp [growsWith]⟩
  split
  · next hdigit => exact wellFormed_takeNumber hdigit cs
  split
  · next halpha =>
    refine ⟨.word ⟨by simp, ?_⟩, ?_⟩
    · exact List.forall_mem_cons.2 ⟨halpha, fun d hd => List.mem_takeWhile_imp hd⟩
    exact head?_dropWhile _ cs
  split
  · next kind hkind =>
    unfold takeSymbol
    split
    · next both rest hboth =>
      refine ⟨.orEqual hkind hboth, fun b hb => ?_⟩
      unfold orEqual? at hboth
      split at hboth <;> cases hboth <;> rfl
    · next hboth =>
      refine ⟨.symbol hkind, fun b hb => ?_⟩
      obtain ⟨rest, rfl⟩ := List.head?_eq_some_iff.1 hb
      cases horEqual : orEqual? kind with
      | none => simp [growsWith, horEqual]
      | some both =>
        have hb : b ≠ '=' := by
          rintro rfl
          exact hboth both rest horEqual rfl
        simp [growsWith, hb]
  · next hblank hdigit halpha _ hkind =>
    exact ⟨.stray (by simpa using hblank) (by simpa using hdigit) (by simpa using halpha) hkind,
      by simp [growsWith]⟩

/-! ## Cutting a text -/

theorem WellFormed.split_append {l : Lexeme} (h : l.WellFormed) {rest : List Char}
    (hrest : ∀ b ∈ rest.head?, l.growsWith b = false) :
    split (l.text ++ rest) = l :: split rest := by
  obtain ⟨c, cs, htext⟩ := List.exists_cons_of_ne_nil h.text_ne_nil
  rw [htext, List.cons_append, split, h.take_eq (by rw [htext]; rfl) hrest]

theorem split_eq_cons {cs : List Char} {l : Lexeme} {ls : List Lexeme} (h : split cs = l :: ls) :
    l.WellFormed ∧ ∃ rest, cs = l.text ++ rest ∧ split rest = ls ∧
      ∀ b ∈ rest.head?, l.growsWith b = false := by
  cases cs with
  | nil => simp [split] at h
  | cons c cs =>
    rw [split] at h
    obtain ⟨rfl, rfl⟩ := List.cons.inj h
    obtain ⟨hl, hrest⟩ := wellFormed_take c cs
    exact ⟨hl, _, (text_take c cs).symm, rfl, hrest⟩

/-- A text can be cut where the last lexeme before the place does not grow with the character after
it. -/
theorem split_append {before rest : List Char}
    (h : ∀ l ∈ (split before).getLast?, ∀ b ∈ rest.head?, l.growsWith b = false) :
    split (before ++ rest) = split before ++ split rest := by
  fun_induction split before with
  | case1 => rfl
  | case2 c cs ih =>
    obtain ⟨hl, hgrows⟩ := wellFormed_take c cs
    have htext := text_take c cs
    cases hrest : (take c cs).2 with
    | nil =>
      rw [hrest, List.append_nil] at htext
      rw [← htext, hl.split_append (h _ (by simp [hrest, split]))]
      simp [split]
    | cons d ds =>
      rw [hrest] at htext hgrows ih
      have hsplit : split (d :: ds) ≠ [] := by simp [split]
      rw [← htext, List.append_assoc, hl.split_append (by simpa using hgrows), ih, List.cons_append]
      rwa [hrest, List.getLast?_cons_of_ne_nil hsplit] at h

/-- A text can be cut behind any of its lexemes. -/
theorem split_eq_append {cs : List Char} {xs ys : List Lexeme} (h : split cs = xs ++ ys) :
    ∃ before rest, cs = before ++ rest ∧ split before = xs ∧ split rest = ys ∧
      ∀ l ∈ xs.getLast?, ∀ b ∈ rest.head?, l.growsWith b = false := by
  induction xs generalizing cs with
  | nil => exact ⟨[], cs, rfl, by simp [split], h, by simp⟩
  | cons l xs ih =>
    obtain ⟨hl, rest, rfl, hsplit, hgrows⟩ := split_eq_cons h
    obtain ⟨before, rest, rfl, hbefore, hrest, hlast⟩ := ih hsplit
    have htext := flatMap_text_split before
    cases xs with
    | nil =>
      obtain rfl : before = [] := by simpa [hbefore] using htext.symm
      refine ⟨l.text, rest, by simp, ?_, hrest, by simpa using hgrows⟩
      have hnil : ∀ b ∈ ([] : List Char).head?, l.growsWith b = false := by simp
      simpa [split] using hl.split_append hnil
    | cons l' xs =>
      cases before with
      | nil => simp [split] at hbefore
      | cons c cs =>
        refine ⟨l.text ++ c :: cs, rest, by simp, ?_, hrest, by simpa using hlast⟩
        rw [hl.split_append (by simpa using hgrows), hbefore]

theorem wellFormed_of_mem_split {cs : List Char} {l : Lexeme} (h : l ∈ split cs) :
    l.WellFormed := by
  obtain ⟨xs, ys, hsplit⟩ := List.append_of_mem h
  obtain ⟨-, rest, -, -, hrest, -⟩ := split_eq_append hsplit
  exact (split_eq_cons hrest).1

/-- The last character of a text is that of its last lexeme. -/
theorem getLast?_of_mem_split {cs : List Char} {l : Lexeme} (h : l ∈ (split cs).getLast?) :
    l.WellFormed ∧ ∃ a, cs.getLast? = some a ∧ l.text.getLast? = some a := by
  obtain ⟨ls, hls⟩ := List.getLast?_eq_some_iff.1 h
  have hl := wellFormed_of_mem_split (List.mem_of_getLast? h)
  have hlast := List.getLast?_eq_some_getLast hl.text_ne_nil
  have htext := flatMap_text_split cs
  rw [hls, List.flatMap_append, List.flatMap_singleton] at htext
  refine ⟨hl, _, ?_, hlast⟩
  rw [← htext, List.getLast?_append, hlast, Option.some_or]

theorem exists_getLast?_split {cs : List Char} {a : Char} (h : a ∈ cs.getLast?) :
    ∃ l ∈ (split cs).getLast?, l.WellFormed ∧ a ∈ l.text.getLast? := by
  cases hlast : (split cs).getLast? with
  | none =>
    have htext := flatMap_text_split cs
    rw [List.getLast?_eq_none_iff.1 hlast] at htext
    simp [← htext] at h
  | some l =>
    obtain ⟨hl, a', ha', htext⟩ := getLast?_of_mem_split hlast
    cases h.symm.trans ha'
    exact ⟨l, rfl, hl, htext⟩

/-! ### Characters on both sides of a cut -/

/-- The characters of numbers. -/
def isNumeric (c : Char) : Bool :=
  c.isDigit || c == '.'

/-- A decimal is a number. -/
theorem WellFormed.of_isDecimal {w : List Char} (h : IsDecimal w) : (number w).WellFormed := by
  obtain h | ⟨whole, digits, hwhole, hdigits, rfl⟩ := h
  · exact .integer h
  · exact .fraction hwhole hdigits.2

theorem isAlpha_of_isNumeric {c : Char} (h : isNumeric c = true) : c.isAlpha = false := by
  cases halpha : c.isAlpha with
  | false => rfl
  | true =>
    have hpoint : c ≠ '.' := by
      rintro rfl
      exact absurd halpha (by decide)
    simp [isNumeric, isDigit_of_isAlpha halpha, hpoint] at h

theorem isNumeric_of_symbolKind? {c : Char} {kind : TokenKind} (h : symbolKind? c = some kind) :
    isNumeric c = false := by
  unfold symbolKind? at h
  split at h <;> first | decide | cases h

theorem WellFormed.isNumeric_number {w : List Char} (h : (number w).WellFormed) :
    ∀ c ∈ w, isNumeric c = true := by
  intro c hc
  cases h with
  | integer h => simp [isNumeric, h.2 c hc]
  | fraction h hdigits => grind [isNumeric, IsDigits]

/-- A number is a decimal, unless it ends in its radix point. -/
theorem WellFormed.isDecimal {w : List Char} (h : (number w).WellFormed)
    (hlast : w.getLast? ≠ some '.') : IsDecimal w := by
  cases h with
  | integer h => exact .inl h
  | @fraction whole digits h hdigits =>
    refine .inr ⟨whole, digits, h, ⟨?_, hdigits⟩, rfl⟩
    rintro rfl
    exact hlast List.getLast?_concat

section LastCharacter

variable {l : Lexeme} {a c : Char}

/-- A letter makes a lexeme longer if that ends in a letter. -/
theorem growsWith_of_isAlpha (h : l.WellFormed) (ha : a ∈ l.text.getLast?)
    (hc : c.isAlpha = true) : l.growsWith c = a.isAlpha := by
  have hpoint : c ≠ '.' := by
    rintro rfl
    exact absurd hc (by decide)
  have hequal : c ≠ '=' := by
    rintro rfl
    exact absurd hc (by decide)
  cases l with
  | number w =>
    rw [isAlpha_of_isNumeric (h.isNumeric_number a (List.mem_of_getLast? ha))]
    simp [growsWith, isDigit_of_isAlpha hc, hpoint]
  | word w =>
    cases h with
    | word h => rw [growsWith, hc, h.2 a (List.mem_of_getLast? ha)]
  | symbol kind w =>
    have halpha : a.isAlpha = false := by
      cases h with
      | symbol h =>
        cases ha
        exact (classes_of_symbolKind? h).2.2
      | orEqual =>
        cases ha
        rfl
    simp [growsWith, hequal, halpha]
  | blank d =>
    cases h with
    | blank h =>
      cases ha
      exact (classes_of_isBlank h).2.symm
  | stray d =>
    cases h with
    | stray _ _ halpha _ =>
      cases ha
      exact halpha.symm

/-- A digit or a radix point can only make a lexeme longer that ends in one. -/
theorem growsWith_of_isNumeric (h : l.WellFormed) (ha : a ∈ l.text.getLast?)
    (hc : isNumeric c = true) (hgrows : l.growsWith c = true) : isNumeric a = true := by
  cases l with
  | number w => exact h.isNumeric_number a (List.mem_of_getLast? ha)
  | word w =>
    rw [growsWith, isAlpha_of_isNumeric hc] at hgrows
    cases hgrows
  | symbol kind w =>
    have hequal : c ≠ '=' := by
      rintro rfl
      exact absurd hc (by decide)
    simp [growsWith, hequal] at hgrows
  | blank | stray => cases hgrows

end LastCharacter

/-! ### Words -/

/-- A maximal run of letters is a lexeme of its own. -/
theorem split_of_maximalRun {before w after : List Char}
    (h : MaximalRun Char.isAlpha before w after) :
    split (before ++ w ++ after) = split before ++ word w :: split after := by
  have hsplit : split (w ++ after) = word w :: split after :=
    (WellFormed.word ⟨h.ne_nil, h.all⟩).split_append h.ends
  rw [List.append_assoc, split_append, hsplit]
  intro l hl c hc
  have hletter : c.isAlpha = true := by
    obtain ⟨d, w, rfl⟩ := List.exists_cons_of_ne_nil h.ne_nil
    obtain rfl : d = c := by simpa using hc
    exact h.all d (by simp)
  obtain ⟨hl, a, ha, hlast⟩ := getLast?_of_mem_split hl
  rw [growsWith_of_isAlpha hl hlast hletter]
  exact h.starts a ha

/-- A word among the lexemes of a text is a maximal run of letters. -/
theorem maximalRun_of_split {cs w : List Char} {xs ys : List Lexeme}
    (h : split cs = xs ++ word w :: ys) :
    ∃ before after, cs = before ++ w ++ after ∧ split before = xs ∧ split after = ys ∧
      MaximalRun Char.isAlpha before w after := by
  obtain ⟨before, rest, rfl, rfl, hrest, hlast⟩ := split_eq_append h
  obtain ⟨hwell, after, rfl, hafter, hgrows⟩ := split_eq_cons hrest
  have hword : IsWord w := by
    cases hwell with
    | word hword => exact hword
  refine ⟨before, after, by simp [text], rfl, hafter, hword.1, hword.2, fun a ha => ?_, hgrows⟩
  obtain ⟨l, hl, hwell', ha⟩ := exists_getLast?_split ha
  obtain ⟨c, w, rfl⟩ := List.exists_cons_of_ne_nil hword.1
  rw [← growsWith_of_isAlpha hwell' ha (hword.2 c (by simp))]
  exact hlast l hl c rfl

/-! ### Numbers and comparisons -/

/-- A text can be cut before a digit or a radix point that does not stand behind another. -/
theorem split_append_of_isNumeric {before rest : List Char}
    (hbefore : ∀ a ∈ before.getLast?, isNumeric a = false)
    (hrest : ∀ b ∈ rest.head?, isNumeric b = true) :
    split (before ++ rest) = split before ++ split rest := by
  refine split_append fun l hl b hb => ?_
  obtain ⟨hl, a, ha, hlast⟩ := getLast?_of_mem_split hl
  cases hgrows : l.growsWith b with
  | false => rfl
  | true =>
    have hnumeric := growsWith_of_isNumeric hl hlast (hrest b hb) hgrows
    rw [hbefore a ha] at hnumeric
    cases hnumeric

/-- Digits and radix points stand in numbers, or are left over. -/
theorem WellFormed.number_or_stray {l : Lexeme} (h : l.WellFormed) {c : Char} (hc : c ∈ l.text)
    (hnumeric : isNumeric c = true) : (∃ w, l = number w) ∨ l = Lexeme.stray c := by
  cases h with
  | integer | fraction => exact .inl ⟨_, rfl⟩
  | blank h =>
    cases List.mem_singleton.1 hc
    simp only [isBlank, Bool.or_eq_true, beq_iff_eq] at h
    rcases h with ((rfl | rfl) | rfl) | rfl <;> cases hnumeric
  | symbol h =>
    cases List.mem_singleton.1 hc
    simp [isNumeric_of_symbolKind? h] at hnumeric
  | orEqual h =>
    rcases List.mem_cons.1 hc with rfl | hc
    · simp [isNumeric_of_symbolKind? h] at hnumeric
    · cases List.mem_singleton.1 hc
      cases hnumeric
  | word h =>
    have halpha := h.2 c hc
    rw [isAlpha_of_isNumeric hnumeric] at halpha
    cases halpha
  | stray =>
    cases List.mem_singleton.1 hc
    exact .inr rfl

/-- A radix point without digits before it is left over. -/
theorem split_point (cs : List Char) : split ('.' :: cs) = stray '.' :: split cs :=
  (WellFormed.stray (c := '.') rfl rfl rfl rfl).split_append (by simp [growsWith])

/-- Whether a lexeme has no place in a source: a character that starts no lexeme, or a number that
ends in its radix point. -/
def isFaulty : Lexeme → Bool
  | stray _ => true
  | number text => text.getLast? == some '.'
  | _ => false

/-- A maximal run of digits and radix points is one number, if no character is left over. -/
theorem split_of_numericRun {before w after : List Char}
    (h : MaximalRun isNumeric before w after)
    (hstray : ∀ c, stray c ∉ split (before ++ w ++ after)) :
    split (before ++ w ++ after) = split before ++ number w :: split after := by
  obtain ⟨c, cs, rfl⟩ := List.exists_cons_of_ne_nil h.ne_nil
  have hc := h.all c (by simp)
  rw [List.append_assoc, split_append_of_isNumeric h.starts (by simpa using hc)] at hstray ⊢
  obtain ⟨l, ls, hsplit⟩ := List.exists_cons_of_ne_nil (l := split (c :: cs ++ after))
    (by simp [split])
  obtain ⟨hl, rest, htext, rfl, hgrows⟩ := split_eq_cons hsplit
  rw [hsplit] at hstray ⊢
  obtain ⟨v, rfl⟩ | rfl := hl.number_or_stray (hl.mem_text htext) hc
  · -- the number stops where the run does, for a second radix point would be left over
    have hrest : ∀ b ∈ rest.head?, isNumeric b = false := by
      intro b hb
      have hdigit := hgrows b hb
      obtain ⟨bs, rfl⟩ := List.head?_eq_some_iff.1 hb
      cases hnumeric : isNumeric b with
      | false => rfl
      | true =>
        obtain ⟨-, hdot⟩ : b.isDigit = false ∧ b = '.' := by
          simp_all [growsWith, isNumeric]
        subst hdot
        exact absurd (by simp [split_point]) (hstray '.')
    obtain ⟨hv, hrest'⟩ := takeWhile_append_of_head? hl.isNumeric_number hrest
    obtain ⟨hw, hafter⟩ := takeWhile_append_of_head? h.all h.ends
    have htext : c :: cs ++ after = v ++ rest := htext
    rw [htext] at hw hafter
    rw [← hw, ← hafter, hv, hrest']
  · exact absurd (by simp) (hstray c)

/-- If the text has no faults, that number is a decimal. -/
theorem isDecimal_of_numericRun {before w after : List Char}
    (h : MaximalRun isNumeric before w after)
    (hfaulty : ∀ l ∈ split (before ++ w ++ after), l.isFaulty = false) :
    split (before ++ w ++ after) = split before ++ number w :: split after ∧ IsDecimal w := by
  have hsplit := split_of_numericRun h fun c hc => by simpa [isFaulty] using hfaulty _ hc
  have hnumber : number w ∈ split (before ++ w ++ after) := by
    rw [hsplit]
    simp
  have hlast : w.getLast? ≠ some '.' := by simpa [isFaulty] using hfaulty _ hnumber
  exact ⟨hsplit, (wellFormed_of_mem_split hnumber).isDecimal hlast⟩

/-- A comparison and the equals sign right after it are one lexeme. -/
theorem split_orEqual {c : Char} {kind both : TokenKind} (hkind : symbolKind? c = some kind)
    (hboth : orEqual? kind = some both) (before after : List Char) :
    split (before ++ c :: '=' :: after) = split before ++ symbol both [c, '='] :: split after := by
  have hwell := WellFormed.orEqual hkind hboth
  have hsplit : split (c :: '=' :: after) = symbol both [c, '='] :: split after := by
    refine hwell.split_append fun b hb => ?_
    unfold orEqual? at hboth
    split at hboth <;> cases hboth <;> rfl
  rw [split_append, hsplit]
  rintro l - b hb
  cases hb
  obtain ⟨-, hdigit, halpha⟩ := classes_of_symbolKind? hkind
  have hpoint : c ≠ '.' := by
    rintro rfl
    cases hkind
  have hequal : c ≠ '=' := by
    rintro rfl
    cases hkind
    cases hboth
  cases l <;> simp [growsWith, hdigit, halpha, hpoint, hequal]

end Lexeme

end Formula

import Formula.Proofs.Lexemes
import Formula.Proofs.Stages

/-!
# The spelling of tokens

What the text of a scanned token can be: an identifier is one letter, functions and constants are
runs of letters, and a number starts with a digit and has only digits and radix points.
-/

namespace Formula

/-- A text that starts with a digit and has only digits and radix points. -/
def IsNumeral (w : List Char) : Prop :=
  (∃ c ∈ w.head?, c.isDigit = true) ∧ ∀ c ∈ w, c.isDigit = true ∨ c = '.'

/-- The text of the token is as its kind demands. -/
def Token.Spelled (t : Token) : Prop :=
  match t.kind with
  | .identifier => IsWord t.lexeme.toList ∧ t.lexeme.toList.length = 1
  | .constant | .function => IsWord t.lexeme.toList
  | .number => IsNumeral t.lexeme.toList
  | _ => True

/-- The text of the lexeme is as its shape demands, and a symbol is no word and no number. -/
def Lexeme.Spelled : Lexeme → Prop
  | symbol kind _ => ∀ lexeme offset, ({ kind, lexeme, offset } : Token).Spelled
  | number text => IsNumeral text
  | word letters => IsWord letters
  | _ => True

/-- The kinds of token that are neither names nor numbers. -/
def TokenKind.isPunctuation : TokenKind → Bool
  | .number | .function | .constant | .identifier => false
  | _ => true

theorem Token.spelled_of_punctuation {t : Token} (h : t.kind.isPunctuation = true) :
    t.Spelled := by
  unfold Spelled
  split <;> simp_all [TokenKind.isPunctuation]

theorem Lexeme.WellFormed.isPunctuation {kind : TokenKind} {text : List Char}
    (h : (Lexeme.symbol kind text).WellFormed) : kind.isPunctuation = true := by
  cases h with
  | symbol h =>
    unfold symbolKind? at h
    split at h <;> cases h <;> rfl
  | orEqual _ h =>
    unfold orEqual? at h
    split at h <;> cases h <;> rfl

theorem Lexeme.WellFormed.isNumeral {w : List Char} (h : (number w).WellFormed) : IsNumeral w := by
  refine ⟨?_, fun c hc => by simpa [isNumeric] using h.isNumeric_number c hc⟩
  cases h with
  | integer h =>
    obtain ⟨c, w, rfl⟩ := List.exists_cons_of_ne_nil h.1
    exact ⟨c, rfl, h.2 c (by simp)⟩
  | fraction h =>
    obtain ⟨c, w, rfl⟩ := List.exists_cons_of_ne_nil h.1
    exact ⟨c, rfl, h.2 c (by simp)⟩

theorem Lexeme.WellFormed.spelled {l : Lexeme} (h : l.WellFormed) : l.Spelled := by
  cases l with
  | symbol kind text => exact fun _ _ => Token.spelled_of_punctuation h.isPunctuation
  | number w => exact h.isNumeral
  | word w =>
    cases h with
    | word h => exact h
  | blank | stray => trivial

theorem Token.spelled_letters {letters : List Char} (h : ∀ c ∈ letters, c.isAlpha = true)
    (offset : Nat) : ∀ t ∈ Token.letters offset letters, t.Spelled := by
  induction letters generalizing offset with
  | nil => simp [Token.letters]
  | cons c cs ih =>
    intro t ht
    rcases List.mem_cons.1 ht with rfl | ht
    · simp [Spelled, IsWord, h c (by simp)]
    · exact ih (fun d hd => h d (List.mem_cons_of_mem c hd)) _ t ht

theorem Token.spelled_ofWord {word : List Char} (h : IsWord word) (v : Vocabulary) (offset : Nat) :
    ∀ t ∈ Token.ofWord v offset word, t.Spelled := by
  unfold ofWord
  dsimp only
  split
  · simpa [Spelled] using h
  split
  · simpa [Spelled] using h
  · exact spelled_letters h.2 offset

theorem Lexeme.spelled_tokens {l : Lexeme} (h : l.Spelled) {v : Vocabulary} {offset : Nat}
    {ts : List Token} (hts : l.tokens v offset = .ok ts) : ∀ t ∈ ts, t.Spelled := by
  cases l with
  | blank c =>
    cases hts
    simp
  | symbol kind text =>
    cases hts
    simpa using h _ _
  | number text =>
    rw [tokens] at hts
    split at hts
    · cases hts
    · cases hts
      simpa [Token.Spelled, Spelled] using h
  | word letters =>
    cases hts
    exact Token.spelled_ofWord h v offset
  | stray c => cases hts

/-! ## Faults -/

/-- Faulty lexemes are the errors of a scan. -/
theorem Lexeme.exists_tokens_iff (l : Lexeme) (v : Vocabulary) (offset : Nat) :
    (∃ us, l.tokens v offset = .ok us) ↔ l.isFaulty = false := by
  cases l with
  | number text => by_cases h : text.getLast? = some '.' <;> simp [tokens, isFaulty, h]
  | _ => simp [tokens, isFaulty]

/-! ## Tokens of consecutive lexemes -/

/-- The number of bytes of a text. -/
def byteSize (cs : List Char) : Nat :=
  (String.ofList cs).utf8ByteSize

@[simp] theorem byteSize_nil : byteSize [] = 0 := by
  simp [byteSize]

@[simp] theorem byteSize_cons (c : Char) (cs : List Char) :
    byteSize (c :: cs) = c.utf8Size + byteSize cs := by
  simp [byteSize]

@[simp] theorem byteSize_append (cs ds : List Char) :
    byteSize (cs ++ ds) = byteSize cs + byteSize ds := by
  simp [byteSize]

@[simp] theorem byteSize_toList (text : String) : byteSize text.toList = text.utf8ByteSize := by
  simp [byteSize]

namespace Lexeme

variable {v : Vocabulary}

theorem size_eq (l : Lexeme) : l.size = byteSize l.text := by
  unfold size
  induction l.text with
  | nil => simp
  | cons c cs ih => simp [ih]

theorem allTokens_append (v : Vocabulary) (offset : Nat) (xs ys : List Lexeme) :
    allTokens v offset (xs ++ ys) = do
      let us ← allTokens v offset xs
      let ws ← allTokens v (offset + byteSize (xs.flatMap text)) ys
      return us ++ ws := by
  induction xs generalizing offset with
  | nil =>
    show allTokens v offset ys =
      allTokens v (offset + byteSize []) ys >>= fun ws => pure ([] ++ ws)
    simp
  | cons l xs ih =>
    rw [List.cons_append, allTokens, allTokens, size_eq]
    simp only [ih, bind_assoc, pure_bind, List.flatMap_cons, byteSize_append, List.append_assoc,
      Nat.add_assoc]

theorem allTokens_append_eq_ok {offset : Nat} {xs ys : List Lexeme} {ts : List Token}
    (h : allTokens v offset (xs ++ ys) = .ok ts) :
    ∃ us ws, allTokens v offset xs = .ok us ∧
      allTokens v (offset + byteSize (xs.flatMap text)) ys = .ok ws ∧ ts = us ++ ws := by
  rw [allTokens_append] at h
  obtain ⟨us, hus, h⟩ := bind_eq_ok.1 h
  obtain ⟨ws, hws, h⟩ := bind_eq_ok.1 h
  cases h
  exact ⟨us, ws, hus, hws, rfl⟩

theorem allTokens_cons_eq_ok {offset : Nat} {l : Lexeme} {ls : List Lexeme} {ts : List Token} :
    allTokens v offset (l :: ls) = .ok ts ↔
      ∃ us ws, l.tokens v offset = .ok us ∧ allTokens v (offset + byteSize l.text) ls = .ok ws ∧
        ts = us ++ ws := by
  rw [allTokens, size_eq]
  constructor
  · intro h
    obtain ⟨us, hus, h⟩ := bind_eq_ok.1 h
    obtain ⟨ws, hws, h⟩ := bind_eq_ok.1 h
    cases h
    exact ⟨us, ws, hus, hws, rfl⟩
  · rintro ⟨us, ws, hus, hws, rfl⟩
    exact bind_eq_ok.2 ⟨us, hus, bind_eq_ok.2 ⟨ws, hws, rfl⟩⟩

theorem exists_allTokens_iff (v : Vocabulary) (offset : Nat) (ls : List Lexeme) :
    (∃ ts, allTokens v offset ls = .ok ts) ↔ ∀ l ∈ ls, l.isFaulty = false := by
  induction ls generalizing offset with
  | nil => simp [allTokens]
  | cons l ls ih =>
    rw [List.forall_mem_cons, ← l.exists_tokens_iff v offset, ← ih (offset + byteSize l.text)]
    constructor
    · rintro ⟨ts, hts⟩
      obtain ⟨us, ws, hus, hws, -⟩ := allTokens_cons_eq_ok.1 hts
      exact ⟨⟨us, hus⟩, ws, hws⟩
    · rintro ⟨⟨us, hus⟩, ws, hws⟩
      exact ⟨us ++ ws, allTokens_cons_eq_ok.2 ⟨us, ws, hus, hws, rfl⟩⟩

/-- Every token comes from one of the lexemes, at the offset where the lexemes before it end. -/
theorem exists_of_mem_allTokens {offset : Nat} {ls : List Lexeme} {ts : List Token}
    (hts : allTokens v offset ls = .ok ts) {t : Token} (ht : t ∈ ts) :
    ∃ xs l ys us, ls = xs ++ l :: ys ∧
      l.tokens v (offset + byteSize (xs.flatMap text)) = .ok us ∧ t ∈ us := by
  induction ls generalizing offset ts with
  | nil =>
    cases hts
    cases ht
  | cons l ls ih =>
    obtain ⟨us, ws, hus, hws, rfl⟩ := allTokens_cons_eq_ok.1 hts
    rcases List.mem_append.1 ht with ht | ht
    · exact ⟨[], l, ls, us, rfl, by simpa using hus, ht⟩
    · obtain ⟨xs, l', ys, us', rfl, hus', ht⟩ := ih hws ht
      exact ⟨l :: xs, l', ys, us', rfl, by simpa [Nat.add_assoc] using hus', ht⟩

end Lexeme

theorem Token.spelled_scan {v : Vocabulary} {source : String} {ts : List Token}
    (h : Token.scan v source = .ok ts) : ∀ t ∈ ts, t.Spelled := by
  intro t ht
  obtain ⟨xs, l, ys, us, hsplit, hus, ht⟩ := Lexeme.exists_of_mem_allTokens h ht
  have hl : l ∈ Lexeme.split source.toList := by simp [hsplit]
  exact Lexeme.spelled_tokens (Lexeme.wellFormed_of_mem_split hl).spelled hus t ht

end Formula

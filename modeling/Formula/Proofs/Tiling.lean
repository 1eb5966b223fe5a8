import Formula.Proofs.Lookup
import Formula.Proofs.Scanning

/-!
# Where tokens stand

The tokens of a source tile it: each has the text at its offset, one comes behind the other, and
only blanks are left over. Which tokens a place has can be read off the text around it. A run of
letters that cannot be made longer is one name if the library has it and otherwise falls into
letters, and nothing else is a name; a run of digits is a number together with its fraction.

## Main definitions

* `Tiles` — tokens side by side, with blanks between them.
* `Token.Occupy` — the tokens of a stretch of the source.
* `Tokenization` — what the tokens of a source are.

## Main statements

* `Lexeme.tiles_split` — the tokens of a text tile it.
* `scan_tokenizes` — scanning gives the tokens of a source.
-/

namespace Formula

/-! ## Tilings -/

/-- The offset behind the last byte of a token. -/
def Token.stop (t : Token) : Nat :=
  t.offset + t.lexeme.utf8ByteSize

theorem Token.stop_eq (t : Token) : t.stop = t.offset + t.lexeme.utf8ByteSize := rfl

/-- From an offset on, the text consists of the tokens in order and of blanks between them. -/
inductive Tiles : Nat → List Char → List Token → Prop where
  | nil {offset : Nat} : Tiles offset [] []
  | blank {offset : Nat} {c : Char} {cs : List Char} {ts : List Token}
      (h : Lexeme.isBlank c = true) (rest : Tiles (offset + c.utf8Size) cs ts) :
      Tiles offset (c :: cs) ts
  | token {t : Token} {cs : List Char} {ts : List Token} (h : t.lexeme ≠ "")
      (rest : Tiles t.stop cs ts) : Tiles t.offset (t.lexeme.toList ++ cs) (t :: ts)

namespace Tiles

variable {offset : Nat} {cs : List Char} {ts : List Token}

theorem offset_le (h : Tiles offset cs ts) : ∀ t ∈ ts, offset ≤ t.offset := by
  induction h with
  | nil => simp
  | blank _ _ ih =>
    intro t ht
    have := ih t ht
    omega
  | @token t _ _ _ _ ih =>
    intro u hu
    rcases List.mem_cons.1 hu with rfl | hu
    · exact Nat.le_refl _
    · have := ih u hu
      have := t.stop_eq
      omega

theorem pairwise (h : Tiles offset cs ts) : ts.Pairwise fun t u => t.stop ≤ u.offset := by
  induction h with
  | nil => exact .nil
  | blank _ _ ih => exact ih
  | token _ rest ih => exact .cons rest.offset_le ih

/-- The text of a token stands at its offset and is not empty. -/
theorem exists_text (h : Tiles offset cs ts) : ∀ t ∈ ts, t.lexeme ≠ "" ∧
    ∃ before after, cs = before ++ t.lexeme.toList ++ after ∧
      t.offset = offset + byteSize before := by
  induction h with
  | nil => simp
  | @blank _ c _ _ _ _ ih =>
    intro t ht
    obtain ⟨hne, before, after, rfl, hoffset⟩ := ih t ht
    exact ⟨hne, c :: before, after, by simp, by simp [hoffset, Nat.add_assoc]⟩
  | @token t cs _ hne _ ih =>
    intro u hu
    rcases List.mem_cons.1 hu with rfl | hu
    · exact ⟨hne, [], cs, by simp, by simp⟩
    · obtain ⟨hne, before, after, rfl, hoffset⟩ := ih u hu
      exact ⟨hne, t.lexeme.toList ++ before, after, by simp, by
        simp [hoffset, Token.stop, Nat.add_assoc]⟩

theorem increasing (h : Tiles offset cs ts) : ts.Pairwise fun t u => t.offset < u.offset := by
  refine h.pairwise.imp_of_mem fun {t u} ht _ hle => ?_
  have hsize : t.lexeme.utf8ByteSize ≠ 0 := fun hzero =>
    (h.exists_text t ht).1 (String.utf8ByteSize_eq_zero_iff.1 hzero)
  have := t.stop_eq
  omega

theorem stop_le (h : Tiles offset cs ts) : ∀ t ∈ ts, t.stop ≤ offset + byteSize cs := by
  intro t ht
  obtain ⟨-, before, after, rfl, hoffset⟩ := h.exists_text t ht
  have := t.stop_eq
  simp only [byteSize_append, byteSize_toList]
  omega

/-- A character that is no blank belongs to a token. -/
theorem covers (h : Tiles offset cs ts) {before after : List Char} {c : Char}
    (hcs : cs = before ++ c :: after) (hc : Lexeme.isBlank c = false) :
    ∃ t ∈ ts, t.offset ≤ offset + byteSize before ∧
      offset + byteSize before + c.utf8Size ≤ t.stop := by
  induction h generalizing before with
  | nil => simp at hcs
  | blank hd _ ih =>
    cases before with
    | nil =>
      obtain ⟨rfl, -⟩ := List.cons.inj hcs
      simp [hd] at hc
    | cons d before =>
      obtain ⟨rfl, rfl⟩ := List.cons.inj hcs
      obtain ⟨t, ht, hle, hstop⟩ := ih rfl
      exact ⟨t, ht, by rw [byteSize_cons]; omega, by rw [byteSize_cons]; omega⟩
  | @token t _ _ _ _ ih =>
    have := t.stop_eq
    -- the character stands in the first token or behind it
    rcases List.append_eq_append_iff.1 hcs with ⟨skipped, rfl, hrest⟩ | ⟨text, htext, hrest⟩
    · obtain ⟨u, hu, hle, hstop⟩ := ih hrest
      rw [byteSize_append, byteSize_toList]
      exact ⟨u, List.mem_cons_of_mem t hu, by omega, by omega⟩
    · have hsize : t.lexeme.utf8ByteSize = byteSize before + byteSize text := by
        simpa using congrArg byteSize htext
      cases text with
      | nil =>
        obtain ⟨u, hu, hle, hstop⟩ := @ih [] (by simpa using hrest.symm)
        rw [byteSize_nil] at hsize hle hstop
        exact ⟨u, List.mem_cons_of_mem t hu, by omega, by omega⟩
      | cons d text =>
        obtain ⟨rfl, -⟩ := List.cons.inj hrest
        rw [byteSize_cons] at hsize
        exact ⟨t, by simp, by omega, by omega⟩

end Tiles

/-! ## Tokens of lexemes -/

section Lexemes

variable {v : Vocabulary} {offset : Nat} {cs w : List Char} {ts us : List Token}

theorem tiles_cons (kind : TokenKind) (hw : w ≠ []) (rest : Tiles (offset + byteSize w) cs ts) :
    Tiles offset (w ++ cs) ({ kind, lexeme := String.ofList w, offset } :: ts) := by
  have h : ({ kind, lexeme := String.ofList w, offset } : Token).lexeme ≠ "" := by
    simpa using hw
  simpa using Tiles.token h rest

theorem tiles_letters (rest : Tiles (offset + byteSize w) cs ts) :
    Tiles offset (w ++ cs) (Token.letters offset w ++ ts) := by
  induction w generalizing offset with
  | nil => exact rest
  | cons c w ih =>
    rw [byteSize_cons, ← Nat.add_assoc] at rest
    let t : Token := { kind := .identifier, lexeme := String.singleton c, offset }
    have hstop : t.stop = offset + c.utf8Size := by simp [t, Token.stop]
    have htext : t.lexeme.toList = [c] := by simp [t]
    have tile := Tiles.token (t := t) (by simp [t]) (hstop.symm ▸ ih rest)
    rw [htext, hstop] at tile
    exact tile

namespace Lexeme

theorem tiles_tokens {l : Lexeme} (hl : l.WellFormed) (h : l.tokens v offset = .ok us)
    (rest : Tiles (offset + byteSize l.text) cs ts) : Tiles offset (l.text ++ cs) (us ++ ts) := by
  have hne := hl.text_ne_nil
  cases l with
  | blank c =>
    cases h
    cases hl with
    | blank hc => exact .blank hc (by simpa [text] using rest)
  | symbol kind w =>
    cases h
    exact tiles_cons kind hne rest
  | number w =>
    rw [tokens] at h
    split at h
    · cases h
    · cases h
      exact tiles_cons .number hne rest
  | word w =>
    cases h
    unfold Token.ofWord
    dsimp only
    split
    · exact tiles_cons .function hne rest
    split
    · exact tiles_cons .constant hne rest
    · exact tiles_letters rest
  | stray c => cases h

theorem tiles_allTokens {ls : List Lexeme} (hls : ∀ l ∈ ls, l.WellFormed)
    (h : allTokens v offset ls = .ok ts) : Tiles offset (ls.flatMap text) ts := by
  induction ls generalizing offset ts with
  | nil =>
    cases h
    exact .nil
  | cons l ls ih =>
    obtain ⟨us, ws, hus, hws, rfl⟩ := allTokens_cons_eq_ok.1 h
    obtain ⟨hl, hls⟩ := List.forall_mem_cons.1 hls
    exact tiles_tokens hl hus (ih hls hws)

/-- The tokens of a text tile it. -/
theorem tiles_split (h : allTokens v offset (split cs) = .ok ts) : Tiles offset cs ts := by
  have htiles := tiles_allTokens (fun l hl => wellFormed_of_mem_split hl) h
  rwa [flatMap_text_split] at htiles

end Lexeme

end Lexemes

/-! ## Tokens of a place -/

/-- The tokens between two offsets; all others end before the first or start behind the second. -/
def Token.Occupy (ts : List Token) (start stop : Nat) (us : List Token) : Prop :=
  ∃ earlier later, ts = earlier ++ us ++ later ∧ (∀ t ∈ earlier, t.stop ≤ start) ∧
    ∀ t ∈ later, stop ≤ t.offset

/-- The tokens of a lexeme occupy the place of the lexeme. -/
theorem Lexeme.occupy {v : Vocabulary} {source : String} {ts : List Token}
    (h : Token.scan v source = .ok ts) {before : List Char} {l : Lexeme} {ls : List Lexeme}
    (hsplit : split source.toList = split before ++ l :: ls) :
    ∃ us, l.tokens v (byteSize before) = .ok us ∧
      Token.Occupy ts (byteSize before) (byteSize before + byteSize l.text) us := by
  have hls : ∀ l' ∈ ls, l'.WellFormed := fun l' hl' =>
    wellFormed_of_mem_split (by rw [hsplit]; simp [hl'])
  rw [Token.scan, hsplit] at h
  obtain ⟨earlier, ws, hearlier, hws, rfl⟩ := allTokens_append_eq_ok h
  rw [flatMap_text_split, Nat.zero_add] at hws
  obtain ⟨us, later, hus, hlater, rfl⟩ := allTokens_cons_eq_ok.1 hws
  refine ⟨us, hus, earlier, later, by simp, ?_, (tiles_allTokens hls hlater).offset_le⟩
  simpa using (tiles_split hearlier).stop_le

/-! ## Words -/

/-- The letters of a word stand at consecutive offsets. -/
theorem Token.letters_eq {w : List Char} (h : ∀ c ∈ w, c.isAlpha = true) (offset : Nat) :
    Token.letters offset w = w.mapIdx fun i c =>
      { kind := .identifier, lexeme := String.singleton c, offset := offset + i } := by
  induction w generalizing offset with
  | nil => rfl
  | cons c w ih =>
    obtain ⟨hc, hw⟩ := List.forall_mem_cons.1 h
    rw [letters, ih hw, Lexeme.utf8Size_of_isAlpha hc, List.mapIdx_cons]
    simp only [Nat.add_assoc, Nat.add_comm 1, Nat.add_zero]

variable {T : Type}

/-- A run of letters is a name of a function if it is registered with the mark of a subscript or
without it. -/
theorem Library.isFunctionName_iff (l : Library T) {word : String} (hword : IsWord word.toList) :
    l.isFunctionName word = true ↔
      (l.function? word).isSome = true ∨ (l.function? (word.push '_')).isSome = true := by
  have hlast : word.toList.getLast? ≠ some FunctionName.variantMark := fun hlast => by
    have := hword.2 _ (List.mem_of_getLast? hlast)
    simp [FunctionName.variantMark] at this
  have hcanonical : FunctionName.canonical word = word := by
    rw [FunctionName.canonical, if_neg hlast]
  have found (name : String) : (l.function? name).isSome = true ↔ name ∈ l.functionNames :=
    (l.functions.mem_names_iff name).symm
  rw [isFunctionName, List.any_eq_true, found, found]
  constructor
  · rintro ⟨name, hname, heq⟩
    obtain rfl := beq_iff_eq.1 heq
    obtain ⟨stem, rfl⟩ | ⟨-, heq, -⟩ := FunctionName.name_cases name
    · rw [FunctionName.canonical_push]
      exact .inr hname
    · rw [heq]
      exact .inl hname
  · rintro (hname | hname)
    · exact ⟨word, hname, by simp [hcanonical]⟩
    · exact ⟨_, hname, beq_iff_eq.2 (FunctionName.canonical_push word)⟩

/-- The tokens that a run of letters at an offset has under a library. -/
def Library.wordTokens (l : Library T) (offset : Nat) (w : List Char) : List Token :=
  let word := String.ofList w
  if (l.function? word).isSome || (l.function? (word.push '_')).isSome then
    [{ kind := .function, lexeme := word, offset }]
  else if (l.constant? word).isSome then [{ kind := .constant, lexeme := word, offset }]
  else w.mapIdx fun i c =>
    { kind := .identifier, lexeme := String.singleton c, offset := offset + i }

theorem Library.ofWord_eq (l : Library T) {w : List Char} (hw : IsWord w) (offset : Nat) :
    Token.ofWord l.vocabulary offset w = l.wordTokens offset w := by
  have hfunction : l.isFunctionName (String.ofList w) =
      ((l.function? (String.ofList w)).isSome ||
        (l.function? ((String.ofList w).push '_')).isSome) := by
    rw [Bool.eq_iff_iff, Bool.or_eq_true]
    exact l.isFunctionName_iff (by simpa using hw)
  unfold Token.ofWord wordTokens
  dsimp only
  rw [← Token.letters_eq hw.2, ← hfunction]
  rfl

/-! ## The tokens of a source -/

/-- What the tokens of a source are under a library. All offsets are in bytes. -/
structure Tokenization (l : Library T) (source : String) (ts : List Token) : Prop where
  increasing : ts.Pairwise fun t u => t.offset < u.offset
  apart : ts.Pairwise fun t u => t.stop ≤ u.offset
  text : ∀ t ∈ ts, ∃ before after : String,
    source = before ++ t.lexeme ++ after ∧ before.utf8ByteSize = t.offset
  /-- A character that no token covers is a blank. -/
  blank : ∀ before c after, source.toList = before ++ c :: after →
    c ∈ [' ', '\t', '\r', '\n'] ∨
      ∃ t ∈ ts, t.offset ≤ byteSize before ∧ byteSize before + c.utf8Size ≤ t.stop
  word : ∀ before w after, source.toList = before ++ w ++ after →
    MaximalRun Char.isAlpha before w after →
      Token.Occupy ts (byteSize before) (byteSize before + byteSize w)
        (l.wordTokens (byteSize before) w)
  /-- Names come from runs of letters only. -/
  name : ∀ t ∈ ts, t.kind ∈ [TokenKind.function, .constant, .identifier] →
    ∃ before w after, source.toList = before ++ w ++ after ∧
      MaximalRun Char.isAlpha before w after ∧ t ∈ l.wordTokens (byteSize before) w
  /-- Digits are one number with the fraction after them, if there is one. -/
  number : ∀ before w after, source.toList = before ++ w ++ after →
    MaximalRun Lexeme.isNumeric before w after → IsDecimal w ∧
      Token.Occupy ts (byteSize before) (byteSize before + byteSize w)
        [{ kind := .number, lexeme := String.ofList w, offset := byteSize before }]
  orEqual : ∀ before c kind after, (c, kind) ∈ [('>', TokenKind.greaterEqual), ('<', .lessEqual)] →
    source.toList = before ++ c :: '=' :: after →
      Token.Occupy ts (byteSize before) (byteSize before + 2)
        [{ kind, lexeme := String.ofList [c, '='], offset := byteSize before }]

section Scan

variable {l : Library T} {source : String} {ts : List Token}

theorem occupy_word (h : Token.scan l.vocabulary source = .ok ts) {before w after : List Char}
    (hsource : source.toList = before ++ w ++ after)
    (hw : MaximalRun Char.isAlpha before w after) :
    Token.Occupy ts (byteSize before) (byteSize before + byteSize w)
      (l.wordTokens (byteSize before) w) := by
  obtain ⟨us, hus, hoccupy⟩ := Lexeme.occupy h (hsource ▸ Lexeme.split_of_maximalRun hw)
  cases hus
  rw [← l.ofWord_eq ⟨hw.ne_nil, hw.all⟩]
  exact hoccupy

theorem occupy_number {v : Vocabulary} (h : Token.scan v source = .ok ts)
    {before w after : List Char} (hsource : source.toList = before ++ w ++ after)
    (hw : MaximalRun Lexeme.isNumeric before w after) :
    IsDecimal w ∧ Token.Occupy ts (byteSize before) (byteSize before + byteSize w)
      [{ kind := .number, lexeme := String.ofList w, offset := byteSize before }] := by
  have hfaulty := (Lexeme.exists_allTokens_iff ..).1 ⟨ts, h⟩
  rw [hsource] at hfaulty
  obtain ⟨hsplit, hdecimal⟩ := Lexeme.isDecimal_of_numericRun hw hfaulty
  obtain ⟨us, hus, hoccupy⟩ := Lexeme.occupy h (hsource ▸ hsplit)
  rw [Lexeme.tokens] at hus
  split at hus <;> cases hus
  exact ⟨hdecimal, hoccupy⟩

theorem occupy_orEqual {v : Vocabulary} (h : Token.scan v source = .ok ts)
    {before after : List Char} {c : Char} {kind : TokenKind}
    (hkind : (c, kind) ∈ [('>', TokenKind.greaterEqual), ('<', .lessEqual)])
    (hsource : source.toList = before ++ c :: '=' :: after) :
    Token.Occupy ts (byteSize before) (byteSize before + 2)
      [{ kind, lexeme := String.ofList [c, '='], offset := byteSize before }] := by
  obtain ⟨single, hsingle, hboth, hsize⟩ : ∃ single, Lexeme.symbolKind? c = some single ∧
      Lexeme.orEqual? single = some kind ∧ byteSize [c, '='] = 2 := by
    simp only [List.mem_cons, Prod.mk.injEq, List.not_mem_nil, or_false] at hkind
    rcases hkind with ⟨rfl, rfl⟩ | ⟨rfl, rfl⟩
    · exact ⟨.greater, rfl, rfl, rfl⟩
    · exact ⟨.less, rfl, rfl, rfl⟩
  obtain ⟨us, hus, hoccupy⟩ := Lexeme.occupy h
    (hsource ▸ Lexeme.split_orEqual hsingle hboth before after)
  cases hus
  rw [← hsize]
  exact hoccupy

/-- A name is read from a word. -/
theorem exists_word {v : Vocabulary} (h : Token.scan v source = .ok ts) {t : Token} (ht : t ∈ ts)
    (hkind : t.kind ∈ [TokenKind.function, .constant, .identifier]) :
    ∃ before w after, source.toList = before ++ w ++ after ∧
      MaximalRun Char.isAlpha before w after ∧ t ∈ Token.ofWord v (byteSize before) w := by
  obtain ⟨xs, lexeme, ys, us, hsplit, hus, ht⟩ := Lexeme.exists_of_mem_allTokens h ht
  have hwell : lexeme.WellFormed := Lexeme.wellFormed_of_mem_split (by rw [hsplit]; simp)
  cases lexeme with
  | word w =>
    obtain ⟨before, after, hsource, rfl, -, hw⟩ := Lexeme.maximalRun_of_split hsplit
    rw [Lexeme.flatMap_text_split, Nat.zero_add] at hus
    cases hus
    exact ⟨before, w, after, hsource, hw, ht⟩
  | symbol kind w =>
    have hpunctuation := hwell.isPunctuation
    cases hus
    cases List.mem_singleton.1 ht
    simp only [List.mem_cons, List.not_mem_nil, or_false] at hkind
    rcases hkind with rfl | rfl | rfl <;> cases hpunctuation
  | number w =>
    rw [Lexeme.tokens] at hus
    split at hus <;> cases hus
    cases List.mem_singleton.1 ht
    simp at hkind
  | blank =>
    cases hus
    cases ht
  | stray => cases hus

end Scan

/-- Scanning gives the tokens of a source. -/
theorem scan_tokenizes (l : Library T) (source : String) (ts : List Token)
    (h : Token.scan l.vocabulary source = .ok ts) : Tokenization l source ts := by
  have tiles := Lexeme.tiles_split h
  refine { increasing := tiles.increasing, apart := tiles.pairwise, text := ?_, blank := ?_,
           word := fun before w after => occupy_word h, name := ?_,
           number := fun before w after => occupy_number h, orEqual := ?_ }
  · intro t ht
    obtain ⟨-, before, after, hsource, hoffset⟩ := tiles.exists_text t ht
    refine ⟨String.ofList before, String.ofList after, ?_, by simp [hoffset, byteSize]⟩
    rw [← String.toList_inj]
    simpa using hsource
  · intro before c after hsource
    cases hblank : Lexeme.isBlank c with
    | true => exact .inl (by simpa [Lexeme.isBlank, or_assoc] using hblank)
    | false => exact .inr (by simpa using tiles.covers hsource hblank)
  · intro t ht hkind
    obtain ⟨before, w, after, hsource, hw, ht⟩ := exists_word h ht hkind
    exact ⟨before, w, after, hsource, hw, l.ofWord_eq ⟨hw.ne_nil, hw.all⟩ _ ▸ ht⟩
  · intro before c kind after hkind hsource
    exact occupy_orEqual h hkind hsource

/-- In `log pi ab2.5>=1`, a library that has `log_` and `pi` finds the two names, while `ab` falls
into letters. -/
theorem scan_tokenizes_names :
    let l : Library Int := (Library.empty.addFunction "log_" 1 fun _ => .ok 0).addConstant "pi" 3
    let ts : List Token :=
      [⟨.function, "log", 0⟩, ⟨.constant, "pi", 4⟩, ⟨.identifier, "a", 7⟩, ⟨.identifier, "b", 8⟩,
        ⟨.number, "2.5", 9⟩, ⟨.greaterEqual, ">=", 12⟩, ⟨.number, "1", 14⟩]
    Token.scan l.vocabulary "log pi ab2.5>=1" = .ok ts ∧ Tokenization l "log pi ab2.5>=1" ts := by
  intro l ts
  have scanned : Token.scan l.vocabulary "log pi ab2.5>=1" = .ok ts := by
    with_unfolding_all rfl
  exact ⟨scanned, scan_tokenizes l _ ts scanned⟩

end Formula

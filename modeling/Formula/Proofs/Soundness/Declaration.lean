import Formula.Proofs.Reader.Declaration
import Formula.Proofs.Soundness.Expr

/-!
# The reader of declarations follows the grammar

From expressions to clauses, guards and whole declarations. A declaration is only read if no token
is left, so what has been read is then the whole input.
-/

namespace Formula.Reader

variable {c : Cursor} {t : Token} {rest : List Token}

/-! ## Guards -/

theorem follows_side (settled : c.Settled) :
    sum.nested.Follows (fun b ts e => b = false ∧ ∃ b', Phrase .sum false b' ts e) c :=
  .nested (follows_sum settled.ready_enter)

theorem follows_comparison (settled : c.Settled) :
    comparison.Follows
      (fun _ ts op => ∃ t : Token, ts = [t] ∧ ComparisonMark t.kind op) c := by
  have good : ComparisonMark (Token.ofKind .less).kind .less := .less
  cases hc : c.ahead with
  | nil => exact .error_of_nil (b := false) hc (comparison_of_nil rfl) rfl ⟨_, rfl, good⟩
  | cons t rest =>
    cases ht : Comparison.ofKind? t.kind with
    | none =>
      exact .error_of_cons (b := false) hc (fun rest => comparison_of_none rfl ht) rfl
        ⟨_, rfl, good⟩
    | some op =>
      exact .token (pure op) hc (fun rest => comparison_of_some rfl ht)
        (.pure (settled.rests_read t rest) ⟨t, rfl, ofKind?_eq_some_iff.1 ht⟩)

theorem follows_links {c : Cursor} {b : Bool} {ts : List Token} {clause : Clause} (hb : c.Rests b)
    (previous : ClausePhrase ts clause) :
    (links clause).Follows (fun _ us clause => ClausePhrase (ts ++ us) clause) c := by
  obtain ⟨t, rest, op, hc, ht⟩ | stop := comparison_cases c
  · have hlt := Cursor.remaining_read hc
    refine .token _ hc (fun rest => links_of_some clause rfl ht) ?_
    refine (follows_side (hb.settled.rests_read t rest).settled).andThen ?_ ?_
    · rintro b' us r c' hm hb' ⟨-, b₂, right⟩
      have hle := hm.remaining_le
      refine (follows_links hb' (.chain previous (ofKind?_eq_some_iff.1 ht) right)).imp ?_
      intro b vs clause phrase
      rwa [List.append_assoc] at phrase
    · rintro b' us r ⟨-, b₂, right⟩
      exact ⟨b', [], _, by
        rw [List.append_nil]
        exact .chain previous (ofKind?_eq_some_iff.1 ht) right⟩
  · refine (Follows.pure (a := clause) hb ?_).congr fun rest hrest =>
      links_of_not clause (by rw [← hrest] at stop; exact stop)
    rwa [List.append_nil]
termination_by c.remaining

theorem follows_clause (settled : c.Settled) :
    clause.Follows (fun _ ts clause => ClausePhrase ts clause) c := by
  have number := Phrase.sum_number false
  rw [clause_eq]
  refine (follows_side settled).andThen ?_ ?_
  · rintro b ts l c₁ - hb ⟨-, b₁, left⟩
    refine (follows_comparison hb.settled).andThen ?_ ?_
    · rintro b _ op c₂ - hb ⟨t, rfl, ht⟩
      refine (follows_side hb.settled).andThen ?_ ?_
      · rintro b us r c₃ - hb ⟨-, b₂, right⟩
        refine (follows_links hb (.compare left ht right)).imp ?_
        intro b vs clause phrase
        rwa [List.append_assoc] at phrase
      · rintro b us r ⟨-, b₂, right⟩
        exact ⟨b, [], _, by rw [List.append_nil]; exact .compare left ht right⟩
    · rintro b _ op ⟨t, rfl, ht⟩
      exact ⟨b, [.ofKind .number], _, .compare left ht number⟩
  · rintro b ts l ⟨-, b₁, left⟩
    exact ⟨b, [.ofKind .less, .ofKind .number], _, .compare left .less number⟩

theorem follows_guardClauses (settled : c.Settled) :
    guardClauses.Follows (fun b ts cs => b = false ∧ Terminated .braceClose ClausePhrase ts cs)
      c := by
  have number := Phrase.sum_number false
  have clause : ClausePhrase [.ofKind .number, .ofKind .less, .ofKind .number] _ :=
    .compare number .less number
  obtain ⟨t, rest, hc, ht⟩ | hk := c.next_cases .braceClose
  · exact .error_of_cons hc (fun rest => guardClauses_of_braceClose rfl ht) rfl
      ⟨rfl, _, .ofKind .braceClose, rfl, rfl, .one clause⟩
  · refine (Follows.items (by decide) c settled fun c' hs _ => follows_clause hs).congr ?_
    intro rest hrest
    exact guardClauses_of_ne (by rwa [Cursor.peekKind?_withAhead hrest])

/-! ## Declarations -/

theorem follows_finish {b : Bool} {ts : List Token} {d : Declaration} (hb : c.Rests b)
    (phrase : DeclarationPhrase ts d) :
    (finish d).Follows (fun _ us d => DeclarationPhrase (ts ++ us) d) c := by
  have done : DeclarationPhrase (ts ++ []) d := by rwa [List.append_nil]
  cases hc : c.ahead with
  | nil =>
    refine (Follows.pure (a := d) hb done).congr fun rest hrest => finish_of_nil d ?_
    simpa [hc, Cursor.withAhead] using hrest
  | cons t rest =>
    by_cases ht : t.kind = .braceOpen
    · exact .error_of_cons (b := b) hc (fun rest => finish_of_braceOpen d rfl ht) rfl done
    · exact .error_of_cons (b := b) hc (fun rest => finish_of_ne d rfl ht) rfl done

theorem follows_afterBody {b : Bool} {hs ts params : List Token} {name : Token} {body : Expr}
    (hb : c.Rests b) (header : HeaderPhrase hs name params) (expr : Phrase .sum false b ts body) :
    (afterBody name params body).Follows
      (fun _ us d => DeclarationPhrase (hs ++ (ts ++ us)) d) c := by
  obtain ⟨t, rest, hc, ht⟩ | hk := c.next_cases .braceOpen
  · refine .token _ hc (fun rest => afterBody_of_braceOpen name params body rfl ht) ?_
    refine (follows_guardClauses (hb.settled.rests_read t rest).settled).andThen ?_ ?_
    · rintro b _ cs c' - hb ⟨-, us, r, rfl, hr, list⟩
      refine (follows_finish hb (.guardLast header expr (.block ht list hr))).imp ?_
      intro b vs d phrase
      simpa using phrase
    · rintro b _ cs ⟨-, us, r, rfl, hr, list⟩
      exact ⟨b, [], _, by simpa using .guardLast header expr (.block ht list hr)⟩
  · refine ((follows_finish hb (.total header expr)).imp ?_).congr fun rest hrest =>
      afterBody_of_ne name params body (by rwa [Cursor.peekKind?_withAhead hrest])
    intro b vs d phrase
    rwa [List.append_assoc] at phrase

theorem follows_definition {hs params : List Token} {name : Token} (settled : c.Settled)
    (ho : c.absOpen = false) (header : HeaderPhrase hs name params) :
    (definition name params).Follows (fun _ us d => DeclarationPhrase (hs ++ us) d) c := by
  obtain ⟨t, rest, hc, ht⟩ | hk := c.next_cases .braceOpen
  · refine .token _ hc (fun rest => definition_of_braceOpen name params rfl ht) ?_
    refine (follows_guardClauses (settled.rests_read t rest).settled).andThen ?_ ?_
    · rintro b _ cs c₁ hm hb ⟨-, us, r, rfl, hr, list⟩
      have ho' : c₁.absOpen = false := hm.absOpen.trans ho
      have block := GuardPhrase.block ht list hr
      refine (ho' ▸ follows_sum (hb.settled.ready_of_closed ho')).andThen ?_ ?_
      · intro b ts body c₂ _ hb expr
        refine (follows_finish hb (.guardFirst header block expr)).imp ?_
        intro b vs d phrase
        simpa using phrase
      · intro b ts body expr
        exact ⟨b, [], _, by simpa using DeclarationPhrase.guardFirst header block expr⟩
    · rintro b _ cs ⟨-, us, r, rfl, hr, list⟩
      have block := GuardPhrase.block ht list hr
      have phrase := DeclarationPhrase.guardFirst header block (Phrase.sum_number false)
      exact ⟨b, [.ofKind .number], _, by simpa using phrase⟩
  · have body : (sum.andThen (afterBody name params)).Follows
        (fun _ us d => DeclarationPhrase (hs ++ us) d) c := by
      refine (ho ▸ follows_sum (settled.ready_of_closed ho)).andThen ?_ ?_
      · intro b ts body c₁ _ hb expr
        exact follows_afterBody hb header expr
      · intro b ts body expr
        exact ⟨b, [], _, by simpa using .total header expr⟩
    exact body.congr fun rest hrest =>
      definition_of_ne name params (by rwa [Cursor.peekKind?_withAhead hrest])

theorem follows_equal {hs params : List Token} {name : Token} (settled : c.Settled)
    (ho : c.absOpen = false)
    (header : ∀ eq : Token, eq.kind = .equal → HeaderPhrase (hs ++ [eq]) name params) :
    ((expect .equal).andThen fun _ => definition name params).Follows
      (fun _ us d => DeclarationPhrase (hs ++ us) d) c := by
  refine (Follows.expect settled .equal).andThen ?_ ?_
  · rintro b _ eq c' hm hb ⟨-, rfl, heq⟩
    refine (follows_definition hb.settled (hm.absOpen.trans ho) (header eq heq)).imp ?_
    intro b us d phrase
    rwa [List.append_assoc] at phrase
  · rintro b _ eq ⟨-, rfl, heq⟩
    have phrase := DeclarationPhrase.total (header eq heq) (Phrase.sum_number false)
    exact ⟨b, [.ofKind .number], _, by rwa [List.append_assoc] at phrase⟩

theorem follows_parameters {name l : Token} (hname : name.kind = .identifier)
    (hl : l.kind = .parenOpen) (settled : c.Settled) (ho : c.absOpen = false) :
    ((commaList (·.expect .identifier) .parenClose).andThen fun params =>
      (expect .equal).andThen fun _ => definition name params).Follows
      (fun _ us d => DeclarationPhrase (name :: l :: us) d) c := by
  have item (c' : Cursor) (hs : c'.Settled) (_ : c'.remaining ≤ c.remaining) :
      (ofParser (·.expect .identifier)).Follows (fun _ ts t => ParameterPhrase ts t) c' :=
    (Follows.expect hs .identifier).imp fun _ _ _ h => h.2
  have header {ts params : List Token} (list : (∃ r : Token, ts = [r] ∧ r.kind = .parenClose ∧
      params = []) ∨ Terminated .parenClose ParameterPhrase ts params) (eq : Token)
      (heq : eq.kind = .equal) : HeaderPhrase (name :: l :: ts ++ [eq]) name params := by
    rcases list with ⟨r, rfl, hr, rfl⟩ | ⟨us, r, rfl, hr, list⟩
    · exact .constant hname hl hr heq
    · simpa using HeaderPhrase.function hname hl list hr heq
  refine (Follows.commaList (by decide) settled item).andThen ?_ ?_
  · rintro b ts params c' hm hb ⟨-, list⟩
    exact follows_equal hb.settled (hm.absOpen.trans ho) (header list)
  · rintro b ts params ⟨-, list⟩
    have phrase := DeclarationPhrase.total (header list (.ofKind .equal) rfl)
      (Phrase.sum_number false)
    exact ⟨b, [.ofKind .equal, .ofKind .number], _, by simpa using phrase⟩

theorem follows_declaration (settled : c.Settled) (ho : c.absOpen = false) :
    declaration.Follows (fun _ ts d => DeclarationPhrase ts d) c := by
  -- the shortest declaration with the given name and opening parenthesis
  have shortest {name l : Token} (hname : name.kind = .identifier) (hl : l.kind = .parenOpen) :
      DeclarationPhrase [name, l, .ofKind .parenClose, .ofKind .equal, .ofKind .number] _ :=
    .total (.constant hname hl rfl rfl) (Phrase.sum_number false)
  rw [declaration_eq]
  refine (Follows.expect settled .identifier).andThen ?_ ?_
  · rintro b _ name c₁ hm hb ⟨-, rfl, hname⟩
    refine (Follows.expect hb.settled .parenOpen).andThen ?_ ?_
    · rintro b _ l c₂ hm' hb ⟨-, rfl, hl⟩
      exact follows_parameters hname hl hb.settled (hm'.absOpen.trans (hm.absOpen.trans ho))
    · rintro b _ l ⟨-, rfl, hl⟩
      exact ⟨b, _, _, shortest hname hl⟩
  · rintro b _ name ⟨-, rfl, hname⟩
    exact ⟨b, _, _, shortest (l := .ofKind .parenOpen) hname rfl⟩

/-! ## The end of the input -/

/-- A reader that is only done at the end of the input. -/
def ReadsAll {α : Type} (reader : Reader α) : Prop :=
  ∀ c a c', reader c = .ok (a, c') → c'.ahead = []

theorem ReadsAll.andThen {α β : Type} (reader : Reader α) {next : α → Reader β}
    (h : ∀ a, (next a).ReadsAll) : (reader.andThen next).ReadsAll := by
  intro c x c' hs
  cases hr : reader c with
  | error e => rw [andThen_error hr] at hs; cases hs
  | ok p => exact h p.1 p.2 x c' ((andThen_ok hr).symm.trans hs)

theorem readsAll_finish (d : Declaration) : (finish d).ReadsAll := by
  intro c d' c' hs
  cases hc : c.ahead with
  | nil =>
    cases (finish_of_nil d hc).symm.trans hs
    exact hc
  | cons t rest =>
    by_cases ht : t.kind = .braceOpen
    · rw [finish_of_braceOpen d hc ht] at hs
      cases hs
    · rw [finish_of_ne d hc ht] at hs
      cases hs

theorem readsAll_afterBody (name : Token) (params : List Token) (body : Expr) :
    (afterBody name params body).ReadsAll := by
  intro c d c' hs
  obtain ⟨t, rest, hc, ht⟩ | hk := c.next_cases .braceOpen
  · rw [afterBody_of_braceOpen name params body hc ht] at hs
    exact ReadsAll.andThen _ (fun clauses => readsAll_finish _) _ _ _ hs
  · rw [afterBody_of_ne name params body hk] at hs
    exact readsAll_finish _ _ _ _ hs

theorem readsAll_definition (name : Token) (params : List Token) :
    (definition name params).ReadsAll := by
  intro c d c' hs
  obtain ⟨t, rest, hc, ht⟩ | hk := c.next_cases .braceOpen
  · rw [definition_of_braceOpen name params hc ht] at hs
    exact ReadsAll.andThen _ (fun clauses => .andThen _ fun body => readsAll_finish _) _ _ _ hs
  · rw [definition_of_ne name params hk] at hs
    exact ReadsAll.andThen _ (readsAll_afterBody name params) _ _ _ hs

theorem readsAll_declaration : declaration.ReadsAll := by
  rw [declaration_eq]
  exact .andThen _ fun name => .andThen _ fun _ => .andThen _ fun params => .andThen _ fun _ =>
    readsAll_definition name params

end Formula.Reader

import ArrowLang.Proofs.Token.Lexing

/-!
# Layout

The tokens of a text are found again in every text that has the same lexemes in the same order, with
any gaps around them, as long as each lexeme is followed by a blank or by the end of the text.  A
blank ends every lexeme, and it keeps a slash from starting a comment with the text before it.
-/

namespace ArrowLang.Token

variable {c : Char} {chars gap rest : List Char}

/-- Blanks and comments in any order, where each comment ends with its line. -/
inductive IsGap : List Char → Prop
  | nil : IsGap []
  | blank {c : Char} {gap : List Char} (hc : isBlank c) (hgap : IsGap gap) : IsGap (c :: gap)
  | comment {body gap : List Char} (hbody : '\n' ∉ body) (hgap : IsGap gap) :
      IsGap ('/' :: '/' :: (body ++ '\n' :: gap))

/-- A gap at the end of a text; the last comment may end with the text. -/
inductive IsLastGap : List Char → Prop
  | closed {gap : List Char} (hgap : IsGap gap) : IsLastGap gap
  | comment {gap body : List Char} (hgap : IsGap gap) (hbody : '\n' ∉ body) :
      IsLastGap (gap ++ '/' :: '/' :: body)

/-- A comment goes on to the end of its line. -/
theorem spanGap_true (chars : List Char) :
    spanGap true chars =
      (chars.takeWhile (· != '\n') ++ (spanGap false (chars.dropWhile (· != '\n'))).1,
        (spanGap false (chars.dropWhile (· != '\n'))).2) := by
  induction chars with
  | nil => rfl
  | cons c chars ih =>
    by_cases hc : c = '\n'
    · subst hc
      rfl
    · have hne : (c != '\n') = true := bne_iff_ne.mpr hc
      rw [spanGap, hne, ih]
      simp [hc]

theorem spanGap_comment {body : List Char} (hbody : '\n' ∉ body) (rest : List Char) :
    (spanGap true (body ++ rest)).2 = (spanGap true rest).2 := by
  have hne : ∀ c ∈ body, (c != '\n') = true := fun c hmem ↦
    bne_iff_ne.mpr fun hc ↦ hbody (hc ▸ hmem)
  rw [spanGap_true, spanGap_true, List.dropWhile_append_of_pos hne]

theorem spanGap_slashes (rest : List Char) :
    (spanGap false ('/' :: '/' :: rest)).2 = (spanGap true rest).2 := by
  simp [spanGap, isBlank]

theorem IsGap.spanGap_append (hgap : IsGap gap) (rest : List Char) :
    (spanGap false (gap ++ rest)).2 = (spanGap false rest).2 := by
  induction hgap with
  | nil => rfl
  | blank hc hgap ih => simp [spanGap, hc, ih]
  | @comment body gap hbody hgap ih =>
    calc
      (spanGap false ('/' :: '/' :: (body ++ '\n' :: gap) ++ rest)).2 =
          (spanGap true (body ++ '\n' :: (gap ++ rest))).2 := by
        simp [spanGap_slashes]
      _ = (spanGap true ('\n' :: (gap ++ rest))).2 := spanGap_comment hbody _
      _ = (spanGap false (gap ++ rest)).2 := rfl
      _ = (spanGap false rest).2 := ih

theorem IsLastGap.spanGap_eq_nil (hgap : IsLastGap gap) : (spanGap false gap).2 = [] := by
  cases hgap with
  | closed hgap =>
    have hspan := hgap.spanGap_append []
    rwa [List.append_nil] at hspan
  | @comment gap body hgap hbody =>
    have hspan := spanGap_comment hbody []
    rw [List.append_nil] at hspan
    rw [hgap.spanGap_append, spanGap_slashes, hspan]
    rfl

/-- The text is empty or starts with a blank. -/
def StartsBlank (rest : List Char) : Prop := ∀ c ∈ rest.head?, isBlank c

namespace StartsBlank

theorem stops {p : Char → Bool} (hrest : StartsBlank rest)
    (hp : [' ', '\t', '\r', '\n'].any p = false) : Stops p rest := by
  intro c hmem
  have hblank := hrest c hmem
  simp only [isBlank, Bool.or_eq_true, beq_iff_eq] at hblank
  have hc : c ∈ [' ', '\t', '\r', '\n'] := by
    obtain ((rfl | rfl) | rfl) | rfl := hblank <;> decide
  exact Bool.eq_false_iff.mpr (List.any_eq_false.mp hp c hc)

theorem head?_ne (hrest : StartsBlank rest) (hc : isBlank c = false) : rest.head? ≠ some c := by
  intro hhead
  rw [hrest c hhead] at hc
  cases hc

end StartsBlank

/-- No gap ends before a blank. -/
theorem isBlank_of_spanGap {inComment : Bool} (h : (spanGap inComment chars).2 = c :: rest) :
    isBlank c = false := by
  fun_induction spanGap inComment chars <;> simp_all

/-- A lexeme is scanned again where a blank or nothing follows it. -/
theorem scan_again (hrest : StartsBlank rest) (c : Char) (chars : List Char) :
    ∃ tail, (scan c chars).lexeme = c :: tail ∧
      scan c (tail ++ rest) = ⟨(scan c chars).kind, c :: tail, rest⟩ ∧ (c = '/' → tail = []) := by
  have hequals : rest.head? ≠ some '>' := hrest.head?_ne (by decide)
  have hword : Stops isIdentPart rest := hrest.stops (by decide)
  have hnumeral : Stops (fun c ↦ c.isDigit || c == '.') rest := hrest.stops (by decide)
  unfold scan
  split
  · rename_i kind hkind
    exact ⟨[], rfl, rfl, fun _ ↦ rfl⟩
  · rename_i hkind
    split
    · rename_i hc
      subst hc
      split
      · exact ⟨['>'], rfl, rfl, nofun⟩
      · exact ⟨[], rfl, by simp [hequals], nofun⟩
    · split
      · rename_i hdigit
        have hlexeme := isNumeral_spanNumber chars hdigit
        obtain ⟨c', tail, htail, -⟩ := hlexeme.exists_cons
        have hwhole := spanNumber_append (c :: chars)
        rw [htail] at hlexeme hwhole
        obtain rfl : c' = c := (List.cons.inj hwhole).1
        have hspan := spanNumber_append_of_isNumeral hlexeme hnumeral
        rw [List.cons_append] at hspan
        refine ⟨tail, htail, by rw [hspan], ?_⟩
        rintro rfl
        cases hdigit
      · split
        · rename_i hstart
          have hpart : ∀ c ∈ chars.takeWhile isIdentPart, isIdentPart c := fun c hmem ↦
            List.all_eq_true.mp List.all_takeWhile c hmem
          refine ⟨chars.takeWhile isIdentPart, rfl, ?_, ?_⟩
          · rw [hword.takeWhile_append hpart, hword.dropWhile_append hpart]
          · rintro rfl
            cases hstart
        · exact ⟨[], rfl, rfl, fun _ ↦ rfl⟩

/-- The lexemes in order, with gaps around them; a blank or the end of the text follows each of
them. -/
inductive Layout : List String → List Char → Prop
  | finish {gap : List Char} (hgap : IsLastGap gap) : Layout [] gap
  | lexeme {gap rest : List Char} {lexeme : String} {lexemes : List String} (hgap : IsGap gap)
      (hrest : StartsBlank rest) (hothers : Layout lexemes rest) :
      Layout (lexeme :: lexemes) (gap ++ (lexeme.toList ++ rest))

/-- What a token is apart from where it stands. -/
def content (token : Token) : TokenKind × String := (token.kind, token.lexeme)

/-- Tokens are found again in every layout of their lexemes. -/
theorem Layout.map_content_tokens {text : List Char} {p : Position}
    (h : Layout ((Cursor.mk chars p).tokens.map Token.lexeme) text) (q : Position) :
    (Cursor.mk text q).tokens.map content = (Cursor.mk chars p).tokens.map content := by
  refine Cursor.tokens_induction (P := fun _ tokens ↦ ∀ text q,
    Layout (tokens.map Token.lexeme) text →
      (Cursor.mk text q).tokens.map content = tokens.map content) ?_ ?_ chars p text q h
  · intro chars hgap text q hlayout
    cases hlayout with
    | finish hlast => rw [Cursor.tokens_eq_nil q hlast.spanGap_eq_nil]
  · intro chars c after p tokens hstart ih text q hlayout
    cases hlayout with
    | @lexeme gap rest _ _ hgap hrest hothers =>
      obtain ⟨tail, hlexeme, hscan, htail⟩ := scan_again hrest c after
      have hgap' : (spanGap false (gap ++ (c :: tail ++ rest))).2 = c :: (tail ++ rest) := by
        have hslash : c = '/' → (tail ++ rest).head? ≠ some '/' := by
          intro hc
          rw [htail hc]
          exact hrest.head?_ne (by decide)
        rw [hgap.spanGap_append, List.cons_append,
          spanGap_eq_self (isBlank_of_spanGap hstart) hslash]
      rw [String.toList_ofList, hlexeme]
      obtain ⟨q', q'', htokens⟩ := Cursor.tokens_eq_cons q hgap'
      rw [htokens, hscan, List.map_cons, List.map_cons, ih rest q'' hothers, ← hlexeme]
      rfl

end ArrowLang.Token

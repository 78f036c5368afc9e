import ArrowLang.Proofs.Parsing.Placement
import ArrowLang.Proofs.Token.Exactness

/-!
# Lines

A line break ends every lexeme and every comment.  So the tokens of a text are those of its lines,
one line after the other, and a line reads the same wherever it stands; only its number changes.
-/

namespace ArrowLang

namespace Stops

variable {p : Char → Bool} {rest : List Char}

theorem takeWhile_extend (h : Stops p rest) (chars : List Char) :
    (chars ++ rest).takeWhile p = chars.takeWhile p := by
  induction chars with
  | nil => exact h.takeWhile_eq_nil
  | cons c chars ih => simp only [List.cons_append, List.takeWhile_cons, ih]

theorem dropWhile_extend (h : Stops p rest) (chars : List Char) :
    (chars ++ rest).dropWhile p = chars.dropWhile p ++ rest := by
  induction chars with
  | nil => exact h.dropWhile_eq_self
  | cons c chars ih =>
    rw [List.cons_append, List.dropWhile_cons, List.dropWhile_cons, ih]
    split <;> rfl

end Stops

namespace Position

/-- The position so many lines further down. -/
def down (lines : Nat) (p : Position) : Position := ⟨p.line + lines, p.column⟩

theorem after_down (lines : Nat) (p : Position) (chars : List Char) :
    (p.down lines).after chars = (p.after chars).down lines := by
  induction chars generalizing p with
  | nil => rfl
  | cons c chars ih =>
    have hadvance : (p.down lines).advance c = (p.advance c).down lines := by
      unfold advance down
      split
      · rw [Nat.add_right_comm]
      · rfl
    rw [after_cons, after_cons, hadvance, ih]

theorem line_after (p : Position) (chars : List Char) :
    (p.after chars).line = p.line + chars.count '\n' := by
  induction chars generalizing p with
  | nil => rfl
  | cons c chars ih =>
    rw [after_cons, ih, List.count_cons, advance]
    by_cases hc : c = '\n'
    · rw [if_pos hc, if_pos (beq_iff_eq.mpr hc), Nat.add_right_comm, Nat.add_assoc]
    · rw [if_neg hc, if_neg (by simpa using hc)]
      rfl

/-- The line after a text starts as the text did, further down. -/
theorem advance_after_start (chars : List Char) :
    (start.after chars).advance '\n' = start.down (1 + chars.count '\n') := by
  rw [advance, if_pos rfl, line_after, down, Nat.add_comm 1, Nat.add_assoc]
  rfl

end Position

namespace Token

variable {c : Char} {chars rest : List Char}

theorem NoFraction.extend (h : NoFraction chars)
    (hrest : Stops (fun c ↦ c.isDigit || c == '.') rest) : NoFraction (chars ++ rest) := by
  intro digit others heq
  match chars with
  | [] =>
    rw [List.nil_append] at heq
    cases hrest '.' (by rw [heq]; rfl)
  | [point] =>
    obtain ⟨-, rfl⟩ : '.' = point ∧ rest = digit :: others := by simpa [eq_comm] using heq
    exact (Bool.or_eq_false_iff.mp (hrest digit rfl)).1
  | point :: digit' :: after =>
    obtain ⟨rfl, htail⟩ := List.cons.inj heq
    obtain ⟨rfl, -⟩ := List.cons.inj htail
    exact h digit' after rfl

theorem spanNumber_extend (hrest : Stops (fun c ↦ c.isDigit || c == '.') rest)
    (chars : List Char) :
    spanNumber (chars ++ rest) = ((spanNumber chars).1, (spanNumber chars).2 ++ rest) := by
  have hstop : Stops Char.isDigit rest := fun c hmem ↦ (Bool.or_eq_false_iff.mp (hrest c hmem)).1
  have htake := hstop.takeWhile_extend chars
  have hdrop := hstop.dropWhile_extend chars
  by_cases hwhole : NoFraction (chars.dropWhile Char.isDigit)
  · have hwhole' : NoFraction ((chars ++ rest).dropWhile Char.isDigit) := by
      rw [hdrop]
      exact hwhole.extend hrest
    rw [spanNumber_whole hwhole, spanNumber_whole hwhole', htake, hdrop]
  · simp only [NoFraction, Classical.not_forall, Bool.not_eq_false] at hwhole
    obtain ⟨digit, others, hpoint, hdigit⟩ := hwhole
    rw [hpoint, List.cons_append, List.cons_append] at hdrop
    rw [spanNumber_fraction hpoint hdigit, spanNumber_fraction hdrop hdigit, htake,
      hstop.takeWhile_extend, hstop.dropWhile_extend]

/-- A blank after a text ends its first token where the end of the text would. -/
theorem scan_extend (hrest : StartsBlank rest) (c : Char) (chars : List Char) :
    scan c (chars ++ rest) =
      ⟨(scan c chars).kind, (scan c chars).lexeme, (scan c chars).rest ++ rest⟩ := by
  have hword : Stops isIdentPart rest := hrest.stops (by decide)
  have hnumeral : Stops (fun c ↦ c.isDigit || c == '.') rest := hrest.stops (by decide)
  unfold scan
  split
  · rfl
  · split
    · rename_i hc
      cases chars with
      | nil => simp [hrest.head?_ne (c := '>') (by decide)]
      | cons next chars =>
        rw [List.cons_append, List.head?_cons, List.head?_cons]
        split <;> rfl
    · split
      · rw [← List.cons_append, spanNumber_extend hnumeral]
      · split
        · rw [hword.takeWhile_extend, hword.dropWhile_extend]
        · rfl

/-- A gap that reaches the end of a line goes on with the next line, outside of a comment. -/
theorem spanGap_line (inComment : Bool) (chars next : List Char) :
    spanGap inComment (chars ++ '\n' :: next) =
      match spanGap inComment chars with
      | (gap, []) => (gap ++ '\n' :: (spanGap false next).1, (spanGap false next).2)
      | (gap, c :: rest) => (gap, c :: (rest ++ '\n' :: next)) := by
  have hhead (chars : List Char) :
      ((chars ++ '\n' :: next).head? == some '/') = (chars.head? == some '/') := by
    cases chars <;> rfl
  fun_induction spanGap inComment chars with
  | case1 inComment => cases inComment <;> rfl
  | case2 c chars gap rest hspan ih =>
    rw [List.cons_append, spanGap, ih, hspan]
    cases rest <;> rfl
  | case3 c chars hblank gap rest hspan ih =>
    rw [List.cons_append, spanGap, if_pos hblank, ih, hspan]
    cases rest <;> rfl
  | case4 c chars hblank hcomment gap rest hspan ih =>
    rw [List.cons_append, spanGap, if_neg hblank, hhead, if_pos hcomment, ih, hspan]
    cases rest <;> rfl
  | case5 c chars hblank hcomment =>
    rw [List.cons_append, spanGap, if_neg hblank, hhead, if_neg hcomment]

namespace Cursor

/-- The tokens of a text are those of its first part and those of the lines below. -/
theorem tokens_line (chars next : List Char) (p : Position) :
    (Cursor.mk (chars ++ '\n' :: next) p).tokens =
      (Cursor.mk chars p).tokens ++ (Cursor.mk next ((p.after chars).advance '\n')).tokens := by
  refine text_induction (P := fun chars ↦ ∀ p, (Cursor.mk (chars ++ '\n' :: next) p).tokens =
      (Cursor.mk chars p).tokens ++ (Cursor.mk next ((p.after chars).advance '\n')).tokens)
    ?_ ?_ chars p
  · intro chars hgap p
    have hwhole := spanGap_append false chars
    rw [hgap, List.append_nil] at hwhole
    have hline : spanGap false (chars ++ '\n' :: next) =
        (chars ++ '\n' :: (spanGap false next).1, (spanGap false next).2) := by
      have hspan : spanGap false chars = (chars, []) := Prod.ext hwhole hgap
      rw [spanGap_line, hspan]
    rw [tokens_eq_nil p hgap, List.nil_append]
    -- Both texts go on with the first token of the next line.
    cases hnext : (spanGap false next).2 with
    | nil => rw [tokens_eq_nil _ (by rw [hline, hnext]), tokens_eq_nil _ hnext]
    | cons c rest =>
      rw [tokens_eq_cons_after p (by rw [hline, hnext]), tokens_eq_cons_after _ hnext, hline,
        Position.after_append]
      rfl
  · intro chars c rest hgap ih p
    have hwhole := spanGap_append false chars
    have hline : spanGap false (chars ++ '\n' :: next) =
        ((spanGap false chars).1, c :: (rest ++ '\n' :: next)) := by
      have hspan : spanGap false chars = ((spanGap false chars).1, c :: rest) := Prod.ext rfl hgap
      rw [spanGap_line, hspan]
    have hblank : StartsBlank ('\n' :: next) := by
      rintro c ⟨⟩
      rfl
    have hend : p.after chars =
        ((p.after (spanGap false chars).1).after (scan c rest).lexeme).after
          (scan c rest).rest := by
      rw [← Position.after_append, ← Position.after_append, scan_append, ← hgap, hwhole]
    rw [tokens_eq_cons_after p (by rw [hline]), tokens_eq_cons_after p hgap, hline,
      scan_extend hblank, ih, hend]
    rfl

theorem tokens_down (lines : Nat) (chars : List Char) (p : Position) :
    (Cursor.mk chars (p.down lines)).tokens =
      (Cursor.mk chars p).tokens.map (Token.move (Position.down lines)) := by
  refine text_induction (P := fun chars ↦ ∀ p, (Cursor.mk chars (p.down lines)).tokens =
    (Cursor.mk chars p).tokens.map (Token.move (Position.down lines))) ?_ ?_ chars p
  · intro chars hgap p
    rw [tokens_eq_nil _ hgap, tokens_eq_nil _ hgap]
    rfl
  · intro chars c rest hgap ih p
    rw [tokens_eq_cons_after _ hgap, tokens_eq_cons_after _ hgap, Position.after_down,
      Position.after_down, ih]
    rfl

theorem tokensToEnd_line (chars next : List Char) (p : Position) :
    (Cursor.mk (chars ++ '\n' :: next) p).tokensToEnd =
      (Cursor.mk chars p).tokens ++
        (Cursor.mk next ((p.after chars).advance '\n')).tokensToEnd := by
  have hend : (Cursor.mk (chars ++ '\n' :: next) p).endToken =
      (Cursor.mk next ((p.after chars).advance '\n')).endToken := by
    simp only [endToken, finish, Position.after_append, Position.after_cons]
  rw [tokensToEnd, tokensToEnd, tokens_line, hend, List.append_assoc]

theorem tokensToEnd_down (lines : Nat) (chars : List Char) (p : Position) :
    (Cursor.mk chars (p.down lines)).tokensToEnd =
      (Cursor.mk chars p).tokensToEnd.map (Token.move (Position.down lines)) := by
  rw [tokensToEnd, tokensToEnd, tokens_down, List.map_append, endToken, finish,
    Position.after_down]
  rfl

theorem admits_tokens (chars : List Char) (p : Position) :
    ∀ token ∈ (Cursor.mk chars p).tokens, token.kind.Admits token.lexeme.toList := by
  refine tokens_induction (P := fun _ tokens ↦
    ∀ token ∈ tokens, token.kind.Admits token.lexeme.toList) (fun _ _ ↦ nofun) ?_ chars p
  intro chars c rest q tokens hgap ih token hmem
  obtain rfl | hmem := List.mem_cons.mp hmem
  · simpa using admits_scan (isBlank_of_spanGap hgap) rest
  · exact ih token hmem

end Cursor

theorem newline_not_mem_of_admits {kind : TokenKind} {lexeme : List Char}
    (h : kind.Admits lexeme) : '\n' ∉ lexeme := by
  intro hmem
  cases kind with
  | number =>
    cases h with
    | whole hdigits => cases hdigits.isDigit _ hmem
    | fraction hdigits hfraction =>
      obtain hmem | hmem := List.mem_append.mp hmem
      · cases hdigits.isDigit _ hmem
      · cases hfraction.isDigit _ (by simpa using hmem)
  | ident =>
    obtain ⟨hword, -⟩ := h
    cases lexeme with
    | nil => exact hword
    | cons c chars =>
      have hstart : isIdentStart '\n' = false := by decide
      have hpart : isIdentPart '\n' = false := by decide
      obtain rfl | hmem := List.mem_cons.mp hmem
      · exact Bool.eq_false_iff.mp hstart hword.1
      · exact Bool.eq_false_iff.mp hpart (hword.2 _ hmem)
  | unknown =>
    obtain ⟨c, rfl, hunknown⟩ := h
    obtain rfl := List.mem_singleton.mp hmem
    cases hunknown.not_blank
  | endOfInput => exact h
  | boolean value =>
    rw [show lexeme = _ from h] at hmem
    cases value <;> exact absurd hmem (by decide)
  | _ =>
    rw [show lexeme = _ from h] at hmem
    exact absurd hmem (by decide)

/-- The tokens of a text with a line break in it are the tokens above the break and those below,
where a line has the number of lines above it added; no lexeme goes beyond its line. -/
theorem tokensToEnd_lines (above below : String) :
    (Cursor.ofString (above ++ "\n" ++ below)).tokensToEnd =
      (Cursor.ofString above).tokensToEnd.dropLast ++
        (Cursor.ofString below).tokensToEnd.map
          (move (Position.down (1 + above.toList.count '\n'))) ∧
    ∀ token ∈ (Cursor.ofString (above ++ "\n" ++ below)).tokensToEnd,
      '\n' ∉ token.lexeme.toList := by
  constructor
  · have htext : (above ++ "\n" ++ below).toList = above.toList ++ '\n' :: below.toList := by simp
    have habove : (Cursor.ofString above).tokensToEnd.dropLast = (Cursor.ofString above).tokens :=
      List.dropLast_concat
    rw [Cursor.ofString, htext, Cursor.tokensToEnd_line, Position.advance_after_start,
      Cursor.tokensToEnd_down, habove]
    rfl
  · intro token hmem
    obtain hmem | hmem := List.mem_append.mp hmem
    · exact newline_not_mem_of_admits (Cursor.admits_tokens _ _ token hmem)
    · obtain rfl := List.mem_singleton.mp hmem
      exact List.not_mem_nil

end Token

end ArrowLang

import ArrowLang.Proofs.Token.Layout
import Mathlib.Data.List.Induction

/-!
# Tokens account for the whole text

A text is its lexemes in order, with gaps around them and nothing else.  Each lexeme has the shape
of its kind and is as long as its kind allows, and each token stands where its first character does:
lines count the line breaks before it, columns the characters since the last of them.
-/

namespace ArrowLang

namespace Position

/-- The position behind a text. -/
def behind (text : List Char) : Position :=
  ⟨1 + text.count '\n', 1 + (text.reverse.takeWhile (· != '\n')).length⟩

theorem behind_append_singleton (text : List Char) (c : Char) :
    behind (text ++ [c]) = (behind text).advance c := by
  unfold behind advance
  by_cases hc : c = '\n'
  · subst hc
    simp [Nat.add_assoc]
  · simp [hc, Nat.add_assoc]

theorem after_start (text : List Char) : start.after text = behind text := by
  induction text using List.reverseRecOn with
  | nil => rfl
  | append_singleton text c ih =>
    rw [after_append, ih, behind_append_singleton, after_cons, after_nil]

theorem after_behind (before text : List Char) :
    (behind before).after text = behind (before ++ text) := by
  rw [← after_start, ← after_append, after_start]

end Position

namespace Token

variable {c : Char} {chars gap rest : List Char}

/-- A gap before the rest of a text; only at the end of the text may a comment stay open. -/
inductive IsGapBefore (rest : List Char) : List Char → Prop
  | closed {gap : List Char} (hgap : IsGap gap) : IsGapBefore rest gap
  | comment {gap body : List Char} (hrest : rest = []) (hgap : IsGap gap) (hbody : '\n' ∉ body) :
      IsGapBefore rest (gap ++ '/' :: '/' :: body)

/-- A gap that starts inside of a comment. -/
inductive IsCommentBefore (rest : List Char) : List Char → Prop
  | last {body : List Char} (hrest : rest = []) (hbody : '\n' ∉ body) : IsCommentBefore rest body
  | line {body gap : List Char} (hbody : '\n' ∉ body) (hgap : IsGapBefore rest gap) :
      IsCommentBefore rest (body ++ '\n' :: gap)

namespace IsGapBefore

theorem blank (hc : isBlank c) (h : IsGapBefore rest gap) : IsGapBefore rest (c :: gap) := by
  cases h with
  | closed hgap => exact .closed (.blank hc hgap)
  | comment hrest hgap hbody => exact .comment hrest (.blank hc hgap) hbody

theorem line {body : List Char} (hbody : '\n' ∉ body) (h : IsGapBefore rest gap) :
    IsGapBefore rest ('/' :: '/' :: (body ++ '\n' :: gap)) := by
  cases h with
  | closed hgap => exact .closed (.comment hbody hgap)
  | comment hrest hgap hbody' => simpa using comment hrest (.comment hbody hgap) hbody'

theorem isGap (h : IsGapBefore (c :: rest) gap) : IsGap gap := by
  cases h with
  | closed hgap => exact hgap
  | comment hrest => cases hrest

theorem isLastGap (h : IsGapBefore rest gap) : IsLastGap gap := by
  cases h with
  | closed hgap => exact .closed hgap
  | comment _ hgap hbody => exact .comment hgap hbody

end IsGapBefore

namespace IsCommentBefore

theorem cons (hc : c ≠ '\n') (h : IsCommentBefore rest gap) : IsCommentBefore rest (c :: gap) := by
  cases h with
  | last hrest hbody => exact .last hrest (by simp [hc.symm, hbody])
  | @line body gap hbody hgap =>
    have hline : '\n' ∉ c :: body := by simp [hc.symm, hbody]
    exact .line hline hgap

/-- A second slash starts the comment. -/
theorem isGapBefore (h : IsCommentBefore rest gap) (hslash : gap.head? = some '/') :
    IsGapBefore rest ('/' :: gap) := by
  cases h with
  | last hrest hbody =>
    obtain ⟨body, rfl⟩ := List.head?_eq_some_iff.mp hslash
    exact .comment hrest .nil (List.not_mem_of_not_mem_cons hbody)
  | @line body gap hbody hgap =>
    cases body with
    | nil => cases hslash
    | cons c body =>
      obtain rfl : c = '/' := by simpa using hslash
      exact .line (List.not_mem_of_not_mem_cons hbody) hgap

end IsCommentBefore

/-- What is skipped is a gap. -/
theorem isGapBefore_spanGap (inComment : Bool) (chars : List Char) :
    if inComment then IsCommentBefore (spanGap inComment chars).2 (spanGap inComment chars).1
    else IsGapBefore (spanGap inComment chars).2 (spanGap inComment chars).1 := by
  fun_induction spanGap inComment chars with
  | case1 inComment =>
    split
    · exact .last rfl List.not_mem_nil
    · exact .closed .nil
  | case2 c chars gap rest hspan ih =>
    rw [hspan] at ih
    by_cases hc : c = '\n'
    · subst hc
      exact @IsCommentBefore.line _ [] _ List.not_mem_nil ih
    · rw [if_pos (bne_iff_ne.mpr hc)] at ih
      exact ih.cons hc
  | case3 c chars hblank gap rest hspan ih =>
    rw [hspan] at ih
    exact ih.blank hblank
  | case4 c chars hblank hcomment gap rest hspan ih =>
    rw [hspan] at ih
    simp only [Bool.and_eq_true, beq_iff_eq] at hcomment
    obtain ⟨rfl, hslash⟩ := hcomment
    refine ih.isGapBefore ?_
    obtain ⟨chars, rfl⟩ := List.head?_eq_some_iff.mp hslash
    have hgap := congrArg Prod.fst hspan
    rw [spanGap] at hgap
    rw [← hgap]
    rfl
  | case5 c chars hblank hcomment => exact IsGapBefore.closed .nil

/-! ## Lexemes -/

/-- The text does not start with a point and a digit. -/
def NoFraction (rest : List Char) : Prop :=
  ∀ digit others, rest = '.' :: digit :: others → digit.isDigit = false

theorem spanNumber_fraction {digit : Char}
    (hpoint : chars.dropWhile Char.isDigit = '.' :: digit :: rest) (hdigit : digit.isDigit) :
    spanNumber chars =
      (chars.takeWhile Char.isDigit ++ '.' :: digit :: rest.takeWhile Char.isDigit,
        rest.dropWhile Char.isDigit) := by
  simp [spanNumber, hpoint, hdigit]

theorem spanNumber_whole (hpoint : NoFraction (chars.dropWhile Char.isDigit)) :
    spanNumber chars = (chars.takeWhile Char.isDigit, chars.dropWhile Char.isDigit) := by
  unfold spanNumber
  split
  · rename_i digit rest hrest
    simp [hpoint digit rest hrest, hrest]
  · rfl

theorem stops_dropWhile (p : Char → Bool) (chars : List Char) : Stops p (chars.dropWhile p) := by
  intro c hmem
  have hhead := List.head?_dropWhile_not p chars
  rw [Option.mem_def.mp hmem] at hhead
  simpa using hhead

/-- A number ends before a character that is no digit, and before no fraction. -/
theorem longest_spanNumber (chars : List Char) :
    Stops Char.isDigit (spanNumber chars).2 ∧
      ('.' ∉ (spanNumber chars).1 → NoFraction (spanNumber chars).2) := by
  by_cases hwhole : NoFraction (chars.dropWhile Char.isDigit)
  · rw [spanNumber_whole hwhole]
    exact ⟨stops_dropWhile _ _, fun _ ↦ hwhole⟩
  · simp only [NoFraction, not_forall, Bool.not_eq_false] at hwhole
    obtain ⟨digit, others, hpoint, hdigit⟩ := hwhole
    rw [spanNumber_fraction hpoint hdigit]
    exact ⟨stops_dropWhile _ _, fun hmem ↦ absurd (by simp) hmem⟩

/-- A character that starts a word, and characters that continue it. -/
def IsWord : List Char → Prop
  | [] => False
  | c :: chars => isIdentStart c ∧ ∀ c ∈ chars, isIdentPart c

/-- A character that is no blank and starts no token of another kind. -/
structure IsUnknown (c : Char) : Prop where
  not_blank : isBlank c = false
  not_punctuation : punctuation? c = none
  not_equals : c ≠ '='
  not_digit : c.isDigit = false
  not_start : isIdentStart c = false

end Token

namespace TokenKind

open Token

/-- The texts of a kind; a mark is written as its name. -/
def Admits : TokenKind → List Char → Prop
  | number, lexeme => IsNumeral lexeme
  | ident, lexeme => IsWord lexeme ∧ lexeme ∉ ["true".toList, "false".toList, "const".toList]
  | unknown, lexeme => ∃ c, lexeme = [c] ∧ IsUnknown c
  | endOfInput, _ => False
  | mark, lexeme => lexeme = mark.name.toList

/-- A lexeme of the kind is as long as it can be if the given text comes behind it. -/
def EndsBefore : TokenKind → (lexeme rest : List Char) → Prop
  | number, lexeme, rest => Stops Char.isDigit rest ∧ ('.' ∉ lexeme → NoFraction rest)
  | ident, _, rest | boolean _, _, rest | const, _, rest => Stops isIdentPart rest
  | equals, _, rest => rest.head? ≠ some '>'
  | unknown, lexeme, rest => lexeme = ['/'] → rest.head? ≠ some '/'
  | _, _, _ => True

end TokenKind

namespace Token

/-- No gap ends before a comment. -/
theorem head?_ne_of_spanGap {inComment : Bool} (h : (spanGap inComment chars).2 = '/' :: rest) :
    rest.head? ≠ some '/' := by
  fun_induction spanGap inComment chars <;> simp_all

theorem admits_punctuation {kind : TokenKind} (h : punctuation? c = some kind) :
    kind.Admits [c] := by
  unfold punctuation? at h
  split at h <;> cases h <;> exact rfl

theorem admits_wordKind (hstart : isIdentStart c) (hpart : ∀ c ∈ chars, isIdentPart c) :
    (wordKind (c :: chars)).Admits (c :: chars) := by
  unfold wordKind
  split
  · rename_i htrue
    exact htrue
  · rename_i htrue
    split
    · rename_i hfalse
      exact hfalse
    · rename_i hfalse
      split
      · rename_i hconst
        exact hconst
      · rename_i hconst
        refine ⟨⟨hstart, hpart⟩, ?_⟩
        rw [List.mem_cons, List.mem_cons, List.mem_singleton, not_or, not_or]
        exact ⟨htrue, hfalse, hconst⟩

theorem admits_scan (hblank : isBlank c = false) (chars : List Char) :
    (scan c chars).kind.Admits (scan c chars).lexeme := by
  unfold scan
  split
  · rename_i kind hkind
    exact admits_punctuation hkind
  · rename_i hkind
    split
    · split
      · change TokenKind.arrow.Admits ['=', '>']
        exact rfl
      · change TokenKind.equals.Admits ['=']
        exact rfl
    · rename_i hequals
      split
      · rename_i hdigit
        exact isNumeral_spanNumber chars hdigit
      · rename_i hdigit
        split
        · rename_i hstart
          exact admits_wordKind hstart fun c' hmem ↦ List.all_eq_true.mp List.all_takeWhile c' hmem
        · rename_i hstart
          exact ⟨c, rfl, hblank, hkind, hequals, Bool.eq_false_iff.mpr hdigit,
            Bool.eq_false_iff.mpr hstart⟩

theorem endsBefore_scan (hspan : (spanGap false chars).2 = c :: rest) :
    (scan c rest).kind.EndsBefore (scan c rest).lexeme (scan c rest).rest := by
  unfold scan
  split
  · rename_i kind hkind
    unfold punctuation? at hkind
    split at hkind <;> cases hkind <;> trivial
  · split
    · split
      · trivial
      · rename_i harrow
        exact harrow
    · split
      · exact longest_spanNumber (c :: rest)
      · split
        · have hstops := stops_dropWhile isIdentPart rest
          dsimp only
          unfold wordKind
          repeat' split
          all_goals exact hstops
        · rintro ⟨⟩
          exact head?_ne_of_spanGap hspan

/-- The tokens make up the text that stands behind `before`, with gaps around them. -/
inductive Splits : (before text : List Char) → List Token → Prop
  | finish {before gap : List Char} (hgap : IsLastGap gap) : Splits before gap []
  | token {before gap lexeme rest : List Char} {kind : TokenKind} {tokens : List Token}
      (hgap : IsGap gap) (hadmits : kind.Admits lexeme) (hends : kind.EndsBefore lexeme rest)
      (hothers : Splits (before ++ gap ++ lexeme) rest tokens) :
      Splits before (gap ++ (lexeme ++ rest))
        (⟨kind, String.ofList lexeme, .behind (before ++ gap)⟩ :: tokens)

theorem splits_tokens (before chars : List Char) :
    Splits before chars (Cursor.mk chars (.behind before)).tokens := by
  refine Cursor.text_induction (P := fun chars ↦ ∀ before,
    Splits before chars (Cursor.mk chars (.behind before)).tokens) ?_ ?_ chars before
  · intro chars hspan before
    have hgap := isGapBefore_spanGap false chars
    have hwhole := spanGap_append false chars
    rw [hspan, List.append_nil] at hwhole
    rw [Cursor.tokens_eq_nil _ hspan, ← hwhole]
    exact .finish hgap.isLastGap
  · intro chars c rest hspan ih before
    have hgap : IsGapBefore (spanGap false chars).2 (spanGap false chars).1 :=
      isGapBefore_spanGap false chars
    have hwhole := spanGap_append false chars
    rw [hspan] at hgap
    rw [hspan, ← scan_append c rest] at hwhole
    have htoken := Splits.token hgap.isGap (admits_scan (isBlank_of_spanGap hspan) rest)
      (endsBefore_scan hspan) (ih (before ++ (spanGap false chars).1 ++ (scan c rest).lexeme))
    rw [hwhole] at htoken
    rwa [Cursor.tokens_eq_cons_after _ hspan, Position.after_behind, Position.after_behind]

/-- The tokens of a text make it up with the gaps around them, and the end token, the only one of
its kind, stands behind the whole text. -/
theorem tokensToEnd_splits (source : String) :
    ∃ tokens finish, (Cursor.ofString source).tokensToEnd = tokens ++ [finish] ∧
      Splits [] source.toList tokens ∧ (∀ token ∈ tokens, token.kind ≠ .endOfInput) ∧
      finish.kind = .endOfInput ∧ finish.lexeme = "" ∧
      finish.position = .behind source.toList := by
  refine ⟨_, _, rfl, splits_tokens [] source.toList, ?_, rfl, rfl, Position.after_start _⟩
  intro token hmem hkind
  have hlexeme := Cursor.isLexeme_tokens source.toList .start token hmem
  rw [hkind] at hlexeme
  exact hlexeme

end Token

end ArrowLang

import ArrowLang.Proofs.Parsing.Dialects
import ArrowLang.Proofs.Parsing.Placement
import ArrowLang.Proofs.Token.Layout
import ArrowLang.Proofs.Verdict.Outcome

/-!
# Layout does not matter

Two layouts of the same lexemes get the same verdict.  They have the same tokens up to positions,
and parsers do not look at positions, so that only the place of a parse error differs, and it is the
place of the same token.
-/

namespace ArrowLang

open Parsing
open Token (Cursor IsGap IsLastGap Layout StartsBlank content)

/-- The same type, the same type error, or the same fault at tokens with the same index. -/
inductive Verdict.Agree (tokens tokens' : List Token) : Verdict → Verdict → Prop
  | ok (ty : ProgramType) : Agree tokens tokens' (.ok ty) (.ok ty)
  | type (error : TypeError) : Agree tokens tokens' (.error (.type error)) (.error (.type error))
  | parse {error error' : ParseError} {index : Nat} (hfault : error.fault = error'.fault)
      (hat : error.IsAt tokens index) (hat' : error'.IsAt tokens' index) :
      Agree tokens tokens' (.error (.parse error)) (.error (.parse error'))

/-- A verdict rests on the outcome of a parser, and a parser does not look at positions. -/
theorem Verdict.agree_judge {τ : Type} {parser : Parser τ} (hsteady : Steady parser)
    (hrelocatable : Relocatable parser) (infer : τ → Except TypeError ProgramType) {s t : State}
    {f : Position → Position} (hmove : s.move f = t.move f) :
    Agree s.tokens t.tokens (judge infer (outcome (parser s)))
      (judge infer (outcome (parser t))) := by
  obtain ⟨value, hs, ht⟩ | ⟨error, error', hs, ht, hfault, hcursor⟩ :=
    hrelocatable.outcome_eq hmove
  · rw [hs, ht, judge]
    cases infer value with
    | ok ty => exact .ok ty
    | error error => exact .type error
  · have hat := (hsteady s).isAt hs
    have hat' := (hsteady t).isAt ht
    rw [hcursor] at hat
    rw [hs, ht]
    exact .parse hfault hat hat'

/-- Tokens with the same contents are the same at any one position. -/
theorem Token.map_move_const {tokens tokens' : List Token} (position : Position)
    (h : tokens.map content = tokens'.map content) :
    tokens.map (Token.move fun _ ↦ position) = tokens'.map (Token.move fun _ ↦ position) := by
  have hfactor : Token.move (fun _ ↦ position) =
      (fun pair ↦ (⟨pair.1, pair.2, position⟩ : Token)) ∘ content := rfl
  rw [hfactor, ← List.map_map, ← List.map_map, h]

theorem move_ofString {source source' : String}
    (h : Layout ((Cursor.ofString source).tokens.map Token.lexeme) source'.toList) :
    (State.ofString source).move (fun _ ↦ .start) =
      (State.ofString source').move fun _ ↦ .start := by
  have htokens := Token.map_move_const .start (h.map_content_tokens .start)
  unfold State.move State.ofString
  rw [Cursor.ofString, ← htokens]
  rfl

/-- Every layout of the lexemes of a text has the tokens of the text, up to positions, and the same
verdict in both dialects, up to the position of a parse error. -/
theorem verdict_of_layout {source source' : String}
    (h : Layout ((Cursor.ofString source).tokens.map Token.lexeme) source'.toList) :
    (Cursor.ofString source').tokensToEnd.map content =
      (Cursor.ofString source).tokensToEnd.map content ∧
    ∀ dialect, Verdict.Agree (Cursor.ofString source).tokensToEnd
      (Cursor.ofString source').tokensToEnd (verdict dialect source)
      (verdict dialect source') := by
  refine ⟨?_, fun dialect ↦ ?_⟩
  · have htokens := h.map_content_tokens .start
    rw [Cursor.tokensToEnd, Cursor.tokensToEnd, List.map_append, List.map_append]
    exact congrArg (· ++ _) htokens
  · cases dialect with
    | arith =>
      rw [verdict_arith, verdict_arith, parseArith_eq_outcome, parseArith_eq_outcome]
      exact Verdict.agree_judge .arithProgram .arithProgram _ (move_ofString h)
    | basic =>
      rw [verdict_basic, verdict_basic, parse_eq_outcome, parse_eq_outcome]
      exact Verdict.agree_judge (.program .basic) (.program .basic) _ (move_ofString h)

theorem verdict_of_layout_sample :
    Layout ((Cursor.ofString "x=>/7.5").tokens.map Token.lexeme)
      "// arrow\nx =>\t/ // slash\n7.5 // end".toList ∧
    (Cursor.ofString "// arrow\nx =>\t/ // slash\n7.5 // end").tokensToEnd.map content =
      (Cursor.ofString "x=>/7.5").tokensToEnd.map content ∧
    ∀ dialect, Verdict.Agree (Cursor.ofString "x=>/7.5").tokensToEnd
      (Cursor.ofString "// arrow\nx =>\t/ // slash\n7.5 // end").tokensToEnd
      (verdict dialect "x=>/7.5")
      (verdict dialect "// arrow\nx =>\t/ // slash\n7.5 // end") := by
  have hspace (rest : List Char) : StartsBlank (' ' :: rest) := by
    rintro c ⟨⟩
    rfl
  have htab (rest : List Char) : StartsBlank ('\t' :: rest) := by
    rintro c ⟨⟩
    rfl
  have harrow : IsGap "// arrow\n".toList := @IsGap.comment " arrow".toList [] (by decide) .nil
  have hslash : IsGap " // slash\n".toList :=
    .blank rfl (@IsGap.comment " slash".toList [] (by decide) .nil)
  have hend : IsLastGap " // end".toList :=
    @IsLastGap.comment [' '] " end".toList (.blank rfl .nil) (by decide)
  have hlayout : Layout ["x", "=>", "/", "7.5"]
      ("// arrow\n".toList ++ ("x".toList ++ ([' '] ++ ("=>".toList ++ (['\t'] ++ ("/".toList ++
        (" // slash\n".toList ++ ("7.5".toList ++ " // end".toList)))))))) :=
    .lexeme harrow (hspace _) (.lexeme (.blank rfl .nil) (htab _) (.lexeme (.blank rfl .nil)
      (hspace _) (.lexeme hslash (hspace _) (.finish hend))))
  have hlexemes : (Cursor.ofString "x=>/7.5").tokens.map Token.lexeme =
      ["x", "=>", "/", "7.5"] := by
    decide +kernel
  rw [← hlexemes] at hlayout
  exact ⟨hlayout, verdict_of_layout hlayout⟩

end ArrowLang

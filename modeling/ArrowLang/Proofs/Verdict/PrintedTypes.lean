import ArrowLang.Proofs.Printing.RoundTrip
import ArrowLang.Proofs.Typing.TypeNames
import ArrowLang.Proofs.Verdict.Outcome

/-!
# Printed types as annotations

The type of a program can be written into another program as it is printed.  All names in it come
from the text of the program and are identifiers, so the printed type is the sentence of a type.
The function `(v: type) => v` is then read as the identity on the type, unless the type is as deep
as the nesting may be.
-/

namespace ArrowLang

open Grammar
open Token (sentence)

def Grammar.Listed.Named (p : String → Prop) : (listed : Listed) → listed.Value → Prop
  | .param, binding => binding.Named p
  | .argument, term => term.Named p

/-- The names in the value of a nonterminal have the property; a tail keeps this of the term to its
left. -/
def Grammar.Nonterminal.Named (p : String → Prop) : (n : Nonterminal) → n.Value → Prop
  | .type, ty => ty.Named p
  | .item listed, value => listed.Named p value
  | .add, term | .call, term | .primary, term => term.Named p
  | .addTail, extend | .callTail, extend => ∀ left, left.Named p → (extend left).Named p
  | .program, (items, result) => (∀ item ∈ items, item.term.Named p) ∧ result.Named p
  | .series listed, values | .list listed, values => ∀ value ∈ values, listed.Named p value

/-- The names in a value are identifiers of the sentence. -/
theorem Grammar.Derivation.named_value {p : String → Prop} {n : Nonterminal} (d : Derivation n)
    (hnames : d.Named p) : n.Named p d.value := by
  induction d with
  | numberType | booleanType | boolean value | number lexeme | var name => trivial
  | functionType params result ihparams ihresult =>
    obtain ⟨hparams, hresult⟩ := hnames
    exact ⟨Ty.namedParams_iff.mpr (ihparams hparams), ihresult hresult⟩
  | param name type ihtype =>
    obtain ⟨hname, htype⟩ := hnames
    exact ⟨hname, ihtype htype⟩
  | plain sum ihsum => exact ihsum hnames
  | conditional cond thenBranch elseBranch ihcond ihthen ihelse =>
    obtain ⟨hcond, hthen, helse⟩ := hnames
    exact ⟨ihcond hcond, ihthen hthen, ihelse helse⟩
  | add first others ihfirst ihothers | call first others ihfirst ihothers =>
    obtain ⟨hfirst, hothers⟩ := hnames
    exact ihothers hothers first.value (ihfirst hfirst)
  | endAdd | endCall => exact fun left hleft ↦ hleft
  | plus operand others ihoperand ihothers =>
    obtain ⟨hoperand, hothers⟩ := hnames
    intro left hleft
    exact ihothers hothers _ ⟨hleft, ihoperand hoperand⟩
  | apply args others ihargs ihothers =>
    obtain ⟨hargs, hothers⟩ := hnames
    intro callee hcallee
    exact ihothers hothers _ ⟨hcallee, Term.namedAll_iff.mpr (ihargs hargs)⟩
  | function params body ihparams ihbody =>
    obtain ⟨hparams, hbody⟩ := hnames
    exact ⟨Ty.namedParams_iff.mpr (ihparams hparams), ihbody hbody⟩
  | group inner ihinner => exact ihinner hnames
  | const name init prog ihinit ihprog =>
    obtain ⟨-, hinit, hprog⟩ := hnames
    obtain ⟨hitems, hresult⟩ := ihprog hprog
    exact ⟨List.forall_mem_cons.mpr ⟨ihinit hinit, hitems⟩, hresult⟩
  | statement term prog ihterm ihprog =>
    obtain ⟨hterm, hprog⟩ := hnames
    obtain ⟨hitems, hresult⟩ := ihprog hprog
    exact ⟨List.forall_mem_cons.mpr ⟨ihterm hterm, hitems⟩, hresult⟩
  | final term semicolon ihterm => exact ⟨nofun, ihterm hnames⟩
  | last item ihitem =>
    intro value hmem
    rw [List.mem_singleton.mp hmem]
    exact ihitem hnames
  | more item others ihitem ihothers =>
    obtain ⟨hitem, hothers⟩ := hnames
    exact List.forall_mem_cons.mpr ⟨ihitem hitem, ihothers hothers⟩
  | noItems => exact nofun
  | items series ihseries => exact ihseries hnames

/-- The names in the type of a program are identifiers. -/
theorem named_of_verdict {source : String} {ty : Ty}
    (h : verdict .basic source = .ok (.basic ty)) :
    ty.Named fun name ↦ Token.IsName name.toList := by
  obtain ⟨term, hparse, htype⟩ := verdict_basic_eq_ok_iff.mp h
  obtain ⟨d, hd, -, rfl⟩ := parse_eq_ok_iff.mp hparse
  have hvalue := d.named_value (Derivation.named_of_derives hd)
  have hterm : d.term.Named fun name ↦ Token.IsName name.toList :=
    (Item.assemble_iff Iff.rfl (and_congr_left fun _ ↦ Term.namedAll_iff)).mpr hvalue
  exact named_of_typeOf d.term hterm Context.named_empty htype

/-- A type whose names are identifiers is printed as the sentence of a type. -/
theorem Prints.type (ty : Ty) (h : ty.Named fun name ↦ Token.IsName name.toList) :
    Prints .type ty.text ty := by
  induction ty with
  | boolean => exact .boolean
  | number => exact .number
  | function params result ihparams ihresult =>
    obtain ⟨hparams, hresult⟩ := h
    refine .functionType (fun param hmem ↦ ?_) (ihresult hresult)
    obtain ⟨hname, hty⟩ := Ty.namedParams_iff.mp hparams param hmem
    exact .param hname (ihparams param hmem hty)

namespace Ty

mutual

/-- The largest number of types inside each other. -/
@[simp]
def depth : Ty → Nat
  | boolean | number => 1
  | function params result => max (paramsDepth params) (depth result) + 1

@[simp]
def paramsDepth : List Param → Nat
  | [] => 0
  | ⟨_, ty⟩ :: params => max (depth ty) (paramsDepth params)

end

theorem one_le_depth (ty : Ty) : 1 ≤ ty.depth := by
  cases ty <;> simp

end Ty

mutual

/-- Types are written without parentheses around them, so that the derivation is as deep as the
type. -/
theorem Grammar.Derivation.depth_type : (d : Derivation .type) → d.depth = d.value.depth
  | .numberType | .booleanType => rfl
  | .functionType params result => by
    rw [depth, value, Ty.depth, depth_params params, depth_type result]

theorem Grammar.Derivation.depth_params :
    (d : Derivation (.list .param)) → d.depth = Ty.paramsDepth d.value
  | .noItems => rfl
  | .items series => depth_paramSeries series

theorem Grammar.Derivation.depth_paramSeries :
    (d : Derivation (.series .param)) → d.depth = Ty.paramsDepth d.value
  | .last (.param name type) => by simp [depth_type type]
  | .more (.param name type) others => by simp [depth_type type, depth_paramSeries others]

end

/-- The derivation of the identity function on a type. -/
def identityProgram (type : Derivation .type) : Derivation .program :=
  .final (.ofPrimary (.function (.items (.last (.param "v" type))) (.ofPrimary (.var "v")))) false

theorem depth_identityProgram (type : Derivation .type) :
    (identityProgram type).depth = type.value.depth + 1 := by
  have hpos := Ty.one_le_depth type.value
  simp [identityProgram, type.depth_type, hpos]

theorem typeOf_identityProgram (type : Derivation .type) :
    typeOf .empty (identityProgram type).term =
      .ok (.function [⟨"v", type.value⟩] type.value) := by
  change typeOf .empty (.function [⟨"v", type.value⟩] (.var "v")) = _
  rw [typeOf_function, typeOf_var, Context.lookup_extend]
  rfl

/-- The printed type can stand as the annotation of a parameter. -/
theorem exists_derives_identity {ty : Ty} (h : Prints .type ty.text ty) :
    ∃ type : Derivation .type, type.value = ty ∧
      (identityProgram type).Derives (sentence ("(v: " ++ ty.text ++ ") => v").toList) := by
  obtain ⟨type, hvalue, hgreedy, hspells⟩ := h
  have hname : Token.IsName "v".toList := .intro (by decide) nofun (by decide)
  have hv {rest : List Char} (hrest : Separated rest) :
      sentence ('v' :: rest) = .ident "v" :: sentence rest :=
    Token.sentence_name hname hrest.word
  refine ⟨type, hvalue, ?_, ?_⟩
  · simp [identityProgram, hv, hspells.sentence_append]
  · simp [identityProgram, hgreedy, TokenKind.continues]

/-- The type of a program can be used as an annotation just as it is printed: the function from it
that returns its argument has exactly the type of such functions, and this type is printed with the
same text on both sides of the arrow.  Only a type that is as deep as the nesting may be is refused,
for its nesting. -/
theorem verdict_of_printed_type {source : String} {ty : Ty}
    (h : verdict .basic source = .ok (.basic ty)) :
    (Ty.function [⟨"v", ty⟩] ty).text = "(v: " ++ ty.text ++ ") => " ++ ty.text ∧
    ((ty.depth < nestingLimit ∧ verdict .basic ("(v: " ++ ty.text ++ ") => v") =
        .ok (.basic (.function [⟨"v", ty⟩] ty))) ∨
      (nestingLimit ≤ ty.depth ∧ ∃ position, verdict .basic ("(v: " ++ ty.text ++ ") => v") =
        .error (.parse ⟨.nestingTooDeep, position⟩))) := by
  obtain ⟨type, rfl, hderives⟩ := exists_derives_identity (.type ty (named_of_verdict h))
  have hdepth := depth_identityProgram type
  refine ⟨?_, ?_⟩
  · rw [Ty.text, Ty.paramTexts_eq_map, List.map_singleton, String.intercalate_singleton, paramText]
    simp only [← String.append_assoc]
    rfl
  by_cases hfits : type.value.depth < nestingLimit
  · have hparse := parse_eq_ok_iff.mpr ⟨_, hderives, hdepth.trans_le hfits, rfl⟩
    exact .inl ⟨hfits, verdict_basic_eq_ok_iff.mpr ⟨_, hparse, typeOf_identityProgram type⟩⟩
  · have hlimit : nestingLimit ≤ type.value.depth := Nat.le_of_not_lt hfits
    obtain ⟨position, hparse⟩ := parse_of_too_deep hderives (by omega)
    exact .inr ⟨hlimit, position, verdict_of_parse_error hparse⟩

/-- The type of `const f = (g: (b: boolean) => number) => g; f`. -/
def sampleType : Ty :=
  .function [⟨"g", .function [⟨"b", .boolean⟩] .number⟩] (.function [⟨"b", .boolean⟩] .number)

/-- The derivation of that program. -/
def sampleTyped : Derivation .program :=
  .const "f"
    (.ofPrimary (.function (.items (.last (.param "g"
      (.functionType (.items (.last (.param "b" .booleanType))) .numberType))))
      (.ofPrimary (.var "g"))))
    (.final (.ofPrimary (.var "f")) false)

theorem verdict_of_printed_type_sample :
    verdict .basic "const f = (g: (b: boolean) => number) => g; f" = .ok (.basic sampleType) ∧
    (Ty.function [⟨"v", sampleType⟩] sampleType).text =
      "(v: " ++ sampleType.text ++ ") => " ++ sampleType.text ∧
    ((sampleType.depth < nestingLimit ∧ verdict .basic ("(v: " ++ sampleType.text ++ ") => v") =
        .ok (.basic (.function [⟨"v", sampleType⟩] sampleType))) ∨
      (nestingLimit ≤ sampleType.depth ∧
        ∃ position, verdict .basic ("(v: " ++ sampleType.text ++ ") => v") =
          .error (.parse ⟨.nestingTooDeep, position⟩))) := by
  have hparse : parse "const f = (g: (b: boolean) => number) => g; f" = .ok sampleTyped.term := by
    refine parse_eq_ok_iff.mpr ⟨sampleTyped, ⟨by decide +kernel, ?_⟩, by decide, rfl⟩
    simp [sampleTyped, TokenKind.continues]
  have hverdict := verdict_basic_eq_ok_iff.mpr ⟨_, hparse, (rfl : _ = Except.ok sampleType)⟩
  exact ⟨hverdict, verdict_of_printed_type hverdict⟩

end ArrowLang

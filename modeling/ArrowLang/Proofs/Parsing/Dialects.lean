import ArrowLang.Proofs.Arith.Conversion
import ArrowLang.Proofs.Parsing.Cursor

/-!
# Reading arithmetic is reading restricted to arithmetic terms

The parsers of the two dialects run in step until the arithmetic one meets a construct that it
refuses.  What the other one makes of the rest of the text is open then, but it does not go back,
and if it accepts the text, the construct is a part of its term.  This is the invariant of the
simulation, and every way of putting parsers together keeps it.
-/

namespace ArrowLang

namespace Parsing

open State

variable {α β : Type} {s t : State}

/-- Every value that the parser returns has the property. -/
def Yields (p : α → Prop) (parser : Parser α) : Prop :=
  ∀ ⦃s t : State⦄ ⦃value : α⦄, parser s = .ok value t → p value

namespace Yields

variable {p : α → Prop} {q : β → Prop}

theorem any (parser : Parser α) : Yields (fun _ ↦ True) parser := fun _ _ _ _ ↦ trivial

theorem pure {value : α} (h : p value) : Yields p (pure value) := by
  intro s t value' hrun
  cases hrun
  exact h

theorem bind {first : Parser α} {next : α → Parser β} (hfirst : Yields p first)
    (hnext : ∀ value, p value → Yields q (next value)) : Yields q (first >>= next) := by
  intro s t value hrun
  change EStateM.bind first next s = _ at hrun
  unfold EStateM.bind at hrun
  cases hmiddle : first s with
  | error error u =>
    rw [hmiddle] at hrun
    cases hrun
  | ok middle u =>
    rw [hmiddle] at hrun
    exact hnext middle (hfirst hmiddle) hrun

/-- What comes first need not matter. -/
theorem after {first : Parser α} {next : α → Parser β} (hnext : ∀ value, Yields q (next value)) :
    Yields q (first >>= next) :=
  .bind (.any first) fun value _ ↦ hnext value

theorem ite {condition : Prop} [Decidable condition] {parser parser' : Parser α}
    (h : Yields p parser) (h' : Yields p parser') :
    Yields p (if condition then parser else parser') := by
  split
  · exact h
  · exact h'

theorem fail (fault : ParseFault) : Yields p (fail fault) := by
  intro s t value hrun
  cases hrun

theorem unexpected : Yields p unexpected := by
  refine .after fun token ↦ ?_
  cases token.kind <;> exact .fail _

theorem repeatAt {kind : TokenKind} {step : α → Parser α}
    (hstep : ∀ value, p value → Yields p (step value)) (rounds : Nat) {value : α} (h : p value) :
    Yields p (repeatAt kind step rounds value) := by
  induction rounds generalizing value with
  | zero => exact .pure h
  | succ rounds ih =>
    exact .after fun _ ↦ .ite (.bind (hstep value h) fun _ ↦ ih) (.pure h)

/-- What every round keeps, the repetition keeps. -/
theorem repeatAt_subset {γ : Type} {view : α → List γ} {kind : TokenKind} {step : α → Parser α}
    (hstep : ∀ value, Yields (fun value' ↦ view value ⊆ view value') (step value)) (rounds : Nat)
    (value : α) :
    Yields (fun value' ↦ view value ⊆ view value') (Parsing.repeatAt kind step rounds value) := by
  refine repeatAt (fun middle hsubset ↦ ?_) rounds (List.Subset.refl (view value))
  intro s t last hrun
  exact List.Subset.trans hsubset (hstep middle hrun)

theorem whileAt_subset {γ : Type} {view : α → List γ} {kind : TokenKind} {step : α → Parser α}
    (hstep : ∀ value, Yields (fun value' ↦ view value ⊆ view value') (step value)) (value : α) :
    Yields (fun value' ↦ view value ⊆ view value') (whileAt kind step value) :=
  fun s _ _ hrun ↦ repeatAt_subset hstep s.ahead.length value hrun

end Yields

/-! ## Results in the two dialects -/

/-- How the result in the arithmetic dialect relates to the one in the extended dialect: related
values, the same error, or a construct that is refused. -/
inductive Restricted (r : α → β → Prop) (constructs : β → List Construct) :
    EStateM.Result ParseError State α → EStateM.Result ParseError State β → Prop
  | ok {value : α} {value' : β} (t : State) :
      r value value' → Restricted r constructs (.ok value t) (.ok value' t)
  | error (error : ParseError) (t : State) :
      Restricted r constructs (.error error t) (.error error t)
  /-- The construct is part of what the extended dialect accepts. -/
  | refused {construct : Construct} {value : β} {t u : State} :
      t.LeadsTo u → construct ∈ constructs value →
      Restricted r constructs (.error ⟨.notArithmetic construct, t.current.position⟩ t)
        (.ok value u)
  /-- The construct comes before the error in the extended dialect. -/
  | refusedBefore {construct : Construct} {error : ParseError} {t u : State} :
      t.LeadsTo u →
      Restricted r constructs (.error ⟨.notArithmetic construct, t.current.position⟩ t)
        (.error error u)

theorem Restricted.of_follows {r : α → β → Prop} {constructs : β → List Construct}
    {construct : Construct} {result : EStateM.Result ParseError State β}
    (hfollows : Follows s result)
    (hvalue : ∀ value t, result = .ok value t → construct ∈ constructs value) :
    Restricted r constructs (.error ⟨.notArithmetic construct, s.current.position⟩ s) result := by
  cases hfollows with
  | ok hleads => exact .refused hleads (hvalue _ _ rfl)
  | error hleads => exact .refusedBefore hleads

/-- The first parser is the second one restricted to values without constructs. -/
def Restricts (constructs : α → List Construct) (parser parser' : Parser α) : Prop :=
  ∀ s, Restricted (fun value value' ↦ value = value' ∧ constructs value = []) constructs (parser s)
    (parser' s)

namespace Restricts

variable {constructs : α → List Construct} {constructs' : β → List Construct}
  {parser parser' : Parser α}

theorem same (h : Yields (fun value ↦ constructs value = []) parser) :
    Restricts constructs parser parser := by
  intro s
  cases hrun : parser s with
  | ok value t => exact .ok t ⟨rfl, h hrun⟩
  | error error t => exact .error error t

/-- What the first parser returns has no constructs. -/
theorem yields (h : Restricts constructs parser parser') :
    Yields (fun value ↦ constructs value = []) parser := by
  intro s t value hrun
  have hresult := h s
  rw [hrun] at hresult
  generalize parser' s = result at hresult
  cases hresult with
  | ok _ hvalue => exact hvalue.2

theorem pure {value : α} (h : constructs value = []) :
    Restricts constructs (pure value) (pure value) :=
  .same (.pure h)

/-- A step that is the same in both dialects. -/
theorem step {first : Parser α} {next next' : α → Parser β}
    (hnext : ∀ value, Restricts constructs' (next value) (next' value)) :
    Restricts constructs' (first >>= next) (first >>= next') := by
  intro s
  change Restricted _ constructs' (EStateM.bind first next s) (EStateM.bind first next' s)
  unfold EStateM.bind
  cases first s with
  | ok value t => exact hnext value t
  | error error t => exact .error error t

/-- Constructs of the first value have to show up in the last one, as they may have been refused. -/
theorem bind {first first' : Parser α} {next next' : α → Parser β}
    (hfirst : Restricts constructs first first')
    (hnext : ∀ value, constructs value = [] → Restricts constructs' (next value) (next' value))
    (hsteady : ∀ value, Steady (next' value))
    (hkeeps : ∀ value, Yields (fun value' ↦ constructs value ⊆ constructs' value') (next' value)) :
    Restricts constructs' (first >>= next) (first' >>= next') := by
  intro s
  change Restricted _ constructs' (EStateM.bind first next s) (EStateM.bind first' next' s)
  unfold EStateM.bind
  have hrun := hfirst s
  generalize first s = result at hrun
  generalize first' s = result' at hrun
  cases hrun with
  | ok t hvalue =>
    obtain ⟨rfl, hnone⟩ := hvalue
    exact hnext _ hnone t
  | error error t => exact .error error t
  | refusedBefore hleads => exact .refusedBefore hleads
  | @refused _ value t u hleads hmem =>
    dsimp only
    have hrest := hsteady value u
    cases hlast : next' value u with
    | ok value' v =>
      rw [hlast] at hrest
      cases hrest with
      | ok hleads' => exact .refused (hleads.trans hleads') (hkeeps value hlast hmem)
    | error error v =>
      rw [hlast] at hrest
      cases hrest with
      | error hleads' => exact .refusedBefore (hleads.trans hleads')

theorem ite {condition : Prop} [Decidable condition] {other other' : Parser α}
    (h : Restricts constructs parser parser') (h' : Restricts constructs other other') :
    Restricts constructs (if condition then parser else other)
      (if condition then parser' else other') := by
  split
  · exact h
  · exact h'

/-- The construct is refused on the spot. -/
theorem gate {construct : Construct} {next next' : Unit → Parser α} (hsteady : Steady (next' ()))
    (hyields : Yields (fun value ↦ construct ∈ constructs value) (next' ())) :
    Restricts constructs (requireExtended .arith construct >>= next)
      (requireExtended .basic construct >>= next') :=
  fun s ↦ .of_follows (hsteady s) fun _ _ hrun ↦ hyields hrun

theorem nested (h : Restricts constructs parser parser') :
    Restricts constructs (nested parser) (nested parser') := by
  intro s
  unfold Parsing.nested
  have hrun := h { s with depth := s.depth + 1 }
  generalize parser { s with depth := s.depth + 1 } = result at hrun
  generalize parser' { s with depth := s.depth + 1 } = result' at hrun
  cases hrun with
  | ok t hvalue => exact .ok _ hvalue
  | error error t => exact .error error _
  | @refused _ _ t _ hleads hmem =>
    exact .refused (t := { t with depth := t.depth - 1 }) (hleads.atDepth _ _) hmem
  | @refusedBefore _ _ t _ hleads =>
    exact .refusedBefore (t := { t with depth := t.depth - 1 }) (hleads.atDepth _ _)

theorem repeatAt {kind : TokenKind} {step step' : α → Parser α}
    (hstep : ∀ value, constructs value = [] → Restricts constructs (step value) (step' value))
    (hsteady : ∀ value, Steady (step' value))
    (hkeeps : ∀ value, Yields (fun value' ↦ constructs value ⊆ constructs value') (step' value))
    (rounds : Nat) {value : α} (hvalue : constructs value = []) :
    Restricts constructs (repeatAt kind step rounds value) (repeatAt kind step' rounds value) := by
  induction rounds generalizing value with
  | zero => exact .pure hvalue
  | succ rounds ih =>
    refine .step fun _ ↦ .ite ?_ (.pure hvalue)
    exact .bind (hstep value hvalue) (fun _ ↦ ih) (.repeatAt hsteady rounds)
      (.repeatAt_subset hkeeps rounds)

theorem whileAt {kind : TokenKind} {step step' : α → Parser α}
    (hstep : ∀ value, constructs value = [] → Restricts constructs (step value) (step' value))
    (hsteady : ∀ value, Steady (step' value))
    (hkeeps : ∀ value, Yields (fun value' ↦ constructs value ⊆ constructs value') (step' value))
    {value : α} (hvalue : constructs value = []) :
    Restricts constructs (whileAt kind step value) (whileAt kind step' value) :=
  fun s ↦ repeatAt hstep hsteady hkeeps s.ahead.length hvalue s

end Restricts

section Expressions

variable {ty : Parser Ty} {expr expr' summand summand' sum sum' : Parser Term}

theorem restricts_group (hexpr : Restricts Term.constructs expr expr') :
    Restricts Term.constructs (group expr) (group expr') := by
  refine .step fun _ ↦ .bind hexpr (fun inner hinner ↦ .step fun _ ↦ .pure hinner) ?_ ?_
  · exact fun _ ↦ .bind (.consume _ _) fun _ ↦ .pure _
  · exact fun _ ↦ .after fun _ ↦ .pure (List.Subset.refl _)

theorem yields_numeral : Yields (fun value ↦ value.constructs = []) numeral := by
  refine .after fun token ↦ ?_
  cases Decimal.ofText? token.lexeme with
  | none => exact .fail _
  | some decimal => exact .after fun _ ↦ .pure rfl

theorem restricts_primary (hty : Steady ty) (hexpr : Restricts Term.constructs expr expr')
    (hsteady : Steady expr') :
    Restricts Term.constructs (primary .arith ty expr) (primary .basic ty expr') := by
  refine .step fun token ↦ ?_
  cases token.kind with
  | number => exact .same yields_numeral
  | boolean value => exact .step fun _ ↦ .pure rfl
  | ident =>
    exact .gate (.bind .advance fun _ ↦ .pure _) (.after fun _ ↦ .pure List.mem_cons_self)
  | leftParen =>
    intro s
    dsimp only
    split
    · refine Restricts.gate ?_ ?_ s
      · exact .bind (.params hty) fun _ ↦ .bind (.consume _ _) fun _ ↦ .bind hsteady fun _ ↦ .pure _
      · exact .after fun _ ↦ .after fun _ ↦ .after fun _ ↦ .pure List.mem_cons_self
    · exact restricts_group hexpr s
  | _ => exact .same .unexpected

/-- An argument list after a callee is refused, whatever the callee. -/
theorem restricts_arguments (hsteady : Steady expr') (callee : Term) :
    Restricts Term.constructs (arguments .arith expr callee) (arguments .basic expr' callee) := by
  refine .gate ?_ ?_
  · exact .bind .advance fun _ ↦ .bind (.itemsToClose hsteady _) fun _ ↦ .pure _
  · exact .after fun _ ↦ .after fun _ ↦ .pure List.mem_cons_self

theorem yields_arguments (callee : Term) :
    Yields (fun value ↦ callee.constructs ⊆ value.constructs) (arguments .basic expr callee) := by
  refine .after fun _ ↦ .after fun _ ↦ .after fun args ↦ .pure ?_
  exact List.subset_cons_of_subset _ (List.subset_append_left _ _)

theorem restricts_operand (hty : Steady ty) (hexpr : Restricts Term.constructs expr expr')
    (hsteady : Steady expr') :
    Restricts Term.constructs (operand .arith ty expr) (operand .basic ty expr') := by
  refine .bind (restricts_primary hty hexpr hsteady) (fun callee ↦ ?_)
    (.whileAt (.arguments hsteady)) (.whileAt_subset yields_arguments)
  exact .whileAt (fun value _ ↦ restricts_arguments hsteady value) (.arguments hsteady)
    yields_arguments

theorem yields_plus (left : Term) :
    Yields (fun value ↦ left.constructs ⊆ value.constructs) (plus summand left) :=
  .after fun _ ↦ .after fun _ ↦ .pure (List.subset_append_left _ _)

theorem restricts_plus (hsummand : Restricts Term.constructs summand summand') {left : Term}
    (hleft : left.constructs = []) :
    Restricts Term.constructs (plus summand left) (plus summand' left) := by
  refine .step fun _ ↦ .bind hsummand (fun right hright ↦ .pure ?_) (fun _ ↦ .pure _) fun _ ↦ ?_
  · rw [Term.constructs, hleft, hright, List.append_nil]
  · exact .pure (List.subset_append_right _ _)

theorem restricts_addition (hsummand : Restricts Term.constructs summand summand')
    (hsteady : Steady summand') :
    Restricts Term.constructs (addition summand) (addition summand') := by
  refine .bind hsummand (fun left ↦ ?_) (.whileAt (.plus hsteady)) (.whileAt_subset yields_plus)
  exact .whileAt (fun value ↦ restricts_plus hsummand) (.plus hsteady) yields_plus

theorem restricts_conditional (hsum : Restricts Term.constructs sum sum')
    (hexpr : Restricts Term.constructs expr expr') (hsteady : Steady expr') :
    Restricts Term.constructs (conditional sum expr) (conditional sum' expr') := by
  refine .bind hsum (fun cond hcond ↦ .step fun _ ↦ .ite ?_ (.pure hcond)) ?_ ?_
  · refine .step fun _ ↦ .bind hexpr (fun thenBranch hthen ↦ .step fun _ ↦ ?_) ?_ ?_
    · refine .bind hexpr (fun elseBranch helse ↦ .pure ?_) (fun _ ↦ .pure _) fun _ ↦ .pure ?_
      · rw [Term.constructs, hcond, hthen, helse, List.append_nil, List.append_nil]
      · rw [Term.constructs]
        exact List.Subset.trans (List.subset_append_right _ _) (List.subset_append_right _ _)
    · exact fun _ ↦ .bind (.consume _ _) fun _ ↦ .bind hsteady fun _ ↦ .pure _
    · refine fun _ ↦ .after fun _ ↦ .after fun _ ↦ .pure ?_
      rw [Term.constructs]
      exact List.Subset.trans (List.subset_append_left _ _) (List.subset_append_right _ _)
  · refine fun _ ↦ .bind (.isAt .question) fun _ ↦ .ite ?_ (.pure _)
    exact .bind .advance fun _ ↦ .bind hsteady fun _ ↦ .bind (.consume _ _) fun _ ↦
      .bind hsteady fun _ ↦ .pure _
  · refine fun cond ↦ .after fun _ ↦ .ite ?_ (.pure (List.Subset.refl _))
    exact .after fun _ ↦ .after fun _ ↦ .after fun _ ↦ .after fun _ ↦
      .pure (List.subset_append_left _ _)

theorem restricts_expression (levels : Nat) :
    Restricts Term.constructs (expression .arith levels) (expression .basic levels) := by
  induction levels with
  | zero => exact fun s ↦ .error _ _
  | succ levels ih =>
    have hsteady := Steady.expression .basic levels
    have hoperand := restricts_operand (.type levels) ih hsteady
    have hsum := restricts_addition hoperand (.operand (.type levels) hsteady)
    exact .nested (restricts_conditional hsum ih hsteady)

end Expressions

section Programs

variable {expr expr' : Parser Term}

/-- The constructs of the term that items and a result make up. -/
def programConstructs (program : List Item × Term) : List Construct :=
  (Item.assemble program.1 program.2).constructs

theorem constBinding_mem_programConstructs {name : String} {init : Term} {items : List Item}
    {result : Term} : .constBinding ∈ programConstructs (.const name init :: items, result) :=
  List.mem_cons_self

/-- A statement makes the program a sequence, of which it is a part. -/
theorem programConstructs_statement (term : Term) (items : List Item) (result : Term) :
    ∃ others, programConstructs (.statement term :: items, result) =
      .statementSequence :: (term.constructs ++ others) := by
  obtain ⟨statements, rest, hprogram⟩ : ∃ statements rest,
      Item.assemble (.statement term :: items) result = .sequence (term :: statements) rest :=
    ⟨_, _, rfl⟩
  refine ⟨Term.constructsAll statements ++ rest.constructs, ?_⟩
  rw [programConstructs, hprogram, Term.constructs, Term.constructsAll, List.append_assoc]

theorem yields_constItem :
    Yields (fun item ↦ ∃ name init, item = .const name init) (constItem expr) :=
  .after fun _ ↦ .after fun name ↦ .after fun _ ↦ .after fun init ↦ .after fun _ ↦
    .pure ⟨name, init, rfl⟩

theorem restricts_itemsAndResult (hexpr : Restricts Term.constructs expr expr')
    (hsteady : Steady expr') (rounds : Nat) :
    Restricts programConstructs (itemsAndResult .arith expr rounds)
      (itemsAndResult .basic expr' rounds) := by
  cases rounds with
  | zero =>
    exact .bind hexpr (fun _ hresult ↦ .pure hresult) (fun _ ↦ .pure _) fun _ ↦
      .pure (List.Subset.refl _)
  | succ rounds =>
    have hrest : Steady (itemsAndResult .basic expr' rounds) := .itemsAndResult hsteady rounds
    refine .step fun _ ↦ .ite (.gate ?_ ?_) ?_
    · exact .bind (.constItem hsteady) fun _ ↦ .bind hrest fun _ ↦ .pure _
    · refine .bind yields_constItem fun item hitem ↦ .after fun _ ↦ .pure ?_
      obtain ⟨name, init, rfl⟩ := hitem
      exact constBinding_mem_programConstructs
    · -- The run in the arithmetic dialect does not get past the first term.
      refine .bind hexpr (fun term hterm ↦ .step fun _ ↦ .ite ?_ (.pure hterm)) ?_ ?_
      · refine .step fun _ ↦ .step fun _ ↦ .ite (.pure hterm) ?_
        refine .gate ?_ (.after fun rest ↦ .pure ?_)
        · exact .bind hrest fun _ ↦ .pure _
        · obtain ⟨others, hothers⟩ := programConstructs_statement term rest.1 rest.2
          rw [hothers]
          exact List.mem_cons_self
      · refine fun _ ↦ .bind (.isAt .semicolon) fun _ ↦ .ite ?_ (.pure _)
        refine .bind .advance fun _ ↦ .bind (.isAt .endOfInput) fun _ ↦ .ite (.pure _) ?_
        exact .bind (.requireExtended _ _) fun _ ↦ .bind hrest fun _ ↦ .pure _
      · refine fun term ↦ .after fun _ ↦ .ite (.after fun _ ↦ .after fun _ ↦ ?_)
          (.pure (List.Subset.refl _))
        refine .ite (.pure (List.Subset.refl _)) (.after fun _ ↦ .after fun rest ↦ .pure ?_)
        obtain ⟨others, hothers⟩ := programConstructs_statement term rest.1 rest.2
        rw [hothers]
        exact List.subset_cons_of_subset _ (List.subset_append_left _ _)

theorem restricts_program :
    Restricts Term.constructs (program .arith) (program .basic) := by
  intro s
  have hitems := restricts_itemsAndResult (restricts_expression (nestingLimit - s.depth))
    (.expression .basic _) s.ahead.length
  refine Restricts.bind hitems (fun parts hparts ↦ ?_) (fun _ ↦ ?_) (fun parts ↦ ?_) s
  · exact .step fun _ ↦ .ite (.pure hparts) (.same .unexpected)
  · exact .bind (.isAt .endOfInput) fun _ ↦ .ite (.pure _) .unexpected
  · exact .after fun _ ↦ .ite (.pure (List.Subset.refl _)) .unexpected

/-- What is read as arithmetic has an arithmetic counterpart, so that restricting it cannot fail. -/
theorem arithProgram_cases (s : State) :
    (∃ (arith : Arith.Term) (t : State),
      program .arith s = .ok arith.embed t ∧ arithProgram s = .ok arith t) ∨
    (∃ error t, program .arith s = .error error t ∧ arithProgram s = .error error t) := by
  cases hrun : program .arith s with
  | error error t => exact .inr ⟨error, t, rfl, bind_of_error hrun⟩
  | ok term t =>
    obtain ⟨arith, rfl⟩ := Arith.exists_embed (restricts_program.yields hrun)
    refine .inl ⟨arith, t, rfl, ?_⟩
    change EStateM.bind (program .arith) _ s = _
    rw [EStateM.bind, hrun]
    dsimp only
    rw [Arith.restrict_embed]
    rfl

theorem Steady.arithProgram : Steady arithProgram := by
  intro s
  have hfollows := Steady.program .arith s
  obtain ⟨arith, t, hrun, harith⟩ | ⟨error, t, hrun, harith⟩ := arithProgram_cases s
  · rw [hrun] at hfollows
    rw [harith]
    cases hfollows with
    | ok hleads hdepth => exact .ok hleads hdepth
  · rw [hrun] at hfollows
    rw [harith]
    cases hfollows with
    | error hleads hposition hdepth => exact .error hleads hposition hdepth

/-- An arithmetic program is read as its embedding is, or a construct of it is refused. -/
theorem restricted_arithProgram (s : State) :
    Restricted (fun arith term ↦ arith.embed = term) Term.constructs (arithProgram s)
      (program .basic s) := by
  have hrun := restricts_program s
  generalize program .basic s = result at hrun ⊢
  obtain ⟨arith, t, hprogram, harith⟩ | ⟨error, t, hprogram, harith⟩ := arithProgram_cases s
  · rw [hprogram] at hrun
    rw [harith]
    cases hrun with
    | ok t hvalue => exact .ok t hvalue.1
  · rw [hprogram] at hrun
    rw [harith]
    cases hrun with
    | error error t => exact .error error t
    | refused hleads hmem => exact .refused hleads hmem
    | refusedBefore hleads => exact .refusedBefore hleads

end Programs

end Parsing

namespace ParseError

open Parsing

/-- The error refuses the construct, and says so. -/
structure Refuses (error : ParseError) (construct : Construct) : Prop where
  fault_eq : error.fault = .notArithmetic construct
  message_eq : error.fault.message = construct.name ++ " is not part of the arithmetic dialect"

theorem Refuses.intro (construct : Construct) (position : Position) :
    Refuses ⟨.notArithmetic construct, position⟩ construct :=
  ⟨rfl, rfl⟩

/-- The error is at the token with the index. -/
def IsAt (error : ParseError) (tokens : List Token) (index : Nat) : Prop :=
  tokens[index]?.map Token.position = some error.position

theorem isAt_cursor {s t : State} {error : ParseError} (htokens : t.tokens = s.tokens)
    (hposition : error.position = t.current.position) : error.IsAt s.tokens t.cursor := by
  rw [IsAt, ← htokens, State.getElem?_tokens_cursor, Option.map_some, hposition]

end ParseError

/-- A run fails at the token where it stops. -/
theorem Parsing.Follows.isAt {α : Type} {s : State} {result : EStateM.Result ParseError State α}
    {error : ParseError} (h : Follows s result) (herror : outcome result = .error error) :
    error.IsAt s.tokens (finalState result).cursor := by
  cases h with
  | ok => cases herror
  | error hleads hposition =>
    cases herror
    exact ParseError.isAt_cursor hleads.tokens_eq hposition

/-! ## Texts -/

namespace Parsing.Restricted

variable {result : EStateM.Result ParseError State Arith.Term}
  {result' : EStateM.Result ParseError State Term}

theorem outcome_eq_ok_iff
    (h : Restricted (fun arith term ↦ arith.embed = term) Term.constructs result result')
    (arith : Arith.Term) : outcome result = .ok arith ↔ outcome result' = .ok arith.embed := by
  cases h with
  | ok t hvalue =>
    subst hvalue
    simp [outcome, Arith.Term.embed_inj]
  | error error t => simp [outcome]
  | refusedBefore hleads => simp [outcome]
  | refused hleads hmem =>
    simp only [outcome, reduceCtorEq, Except.ok.injEq, false_iff]
    rintro rfl
    rw [Arith.Term.constructs_embed] at hmem
    cases hmem

theorem exists_refuses
    (h : Restricted (fun arith term ↦ arith.embed = term) Term.constructs result result')
    {term : Term} (hterm : outcome result' = .ok term)
    (hnone : ¬∃ arith : Arith.Term, arith.embed = term) :
    ∃ error construct, outcome result = .error error ∧ error.Refuses construct ∧
      construct ∈ term.constructs := by
  cases h with
  | ok t hvalue =>
    cases hterm
    exact absurd ⟨_, hvalue⟩ hnone
  | error error t => cases hterm
  | refusedBefore hleads => cases hterm
  | refused hleads hmem =>
    cases hterm
    exact ⟨_, _, rfl, .intro _ _, hmem⟩

/-- The same error, or one that refuses a construct no later in the text. -/
theorem eq_or_refuses {r : Arith.Term → Term → Prop} {constructs : Term → List Construct}
    (h : Restricted r constructs result result') {s : State} (hfollows : Follows s result')
    {error error' : ParseError} (herror : outcome result' = .error error)
    (herror' : outcome result = .error error') :
    error' = error ∨ ∃ construct, error'.Refuses construct ∧
      error'.IsAt s.tokens (finalState result).cursor ∧
      error.IsAt s.tokens (finalState result').cursor ∧
      (finalState result).cursor ≤ (finalState result').cursor := by
  cases h with
  | ok t hvalue => cases herror
  | refused hleads hmem => cases herror
  | error error t =>
    cases herror
    cases herror'
    exact .inl rfl
  | refusedBefore hleads =>
    cases herror
    cases herror'
    cases hfollows with
    | error hleads' hposition =>
      have htokens := hleads.tokens_eq.symm.trans hleads'.tokens_eq
      exact .inr ⟨_, .intro _ _, ParseError.isAt_cursor htokens rfl,
        ParseError.isAt_cursor hleads'.tokens_eq hposition, hleads.cursor_le⟩

end Parsing.Restricted

open Parsing

/-- Reading arithmetic is reading a program of the extended dialect restricted to arithmetic terms,
in whatever dialect the session is.  A program that is not arithmetic is refused for one of its
constructs.  A text that is no program gets the same error, or is refused for a construct at a token
that does not come after that of the other error. -/
theorem parseArith_restricts_parse (dialect : Dialect) (source : String) :
    (∀ term, (Session.ofString dialect source).parseArith.1 = .ok term ↔
      parse source = .ok term.embed) ∧
    (∀ term, parse source = .ok term → (¬∃ arith : Arith.Term, arith.embed = term) →
      ∃ error construct, (Session.ofString dialect source).parseArith.1 = .error error ∧
        error.Refuses construct ∧ construct ∈ term.constructs) ∧
    (∀ error error', parse source = .error error →
      (Session.ofString dialect source).parseArith.1 = .error error' →
      error' = error ∨ ∃ construct, error'.Refuses construct ∧
        error'.IsAt (State.ofString source).tokens
          (Session.ofString dialect source).parseArith.2.state.cursor ∧
        error.IsAt (State.ofString source).tokens
          (Session.ofString .basic source).parse.2.state.cursor ∧
        (Session.ofString dialect source).parseArith.2.state.cursor ≤
          (Session.ofString .basic source).parse.2.state.cursor) := by
  have hrestricted := restricted_arithProgram (.ofString source)
  have hfollows := Steady.program .basic (.ofString source)
  rw [parse, Session.parseArith, Session.parse, Session.run_eq, Session.run_eq]
  exact ⟨hrestricted.outcome_eq_ok_iff, fun _ ↦ hrestricted.exists_refuses,
    fun _ _ ↦ hrestricted.eq_or_refuses hfollows⟩

end ArrowLang

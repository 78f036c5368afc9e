import ArrowLang.Proofs.Grammar.Completion
import ArrowLang.Proofs.Grammar.Exactness

/-!
# Errors come no later than they have to

A parser that fails has read the start of a sentence of the nonterminal it stands for: whatever it
was in the middle of can be completed.  So the tokens before an error can always be continued to a
program of the dialect.  The completion is put together on the way back from the error, at each form
from a derivation for the part that failed, those for the parts before it, and fixed ones for the
parts that were not reached.
-/

namespace ArrowLang

namespace Parsing

open Grammar State
open Terminal (mark ident)

variable {α β : Type} {dialect : Dialect} {levels : Nat} {s t u : State} {error : ParseError}

section Failures

theorem bind_eq_error {first : Parser α} {next : α → Parser β} :
    (first >>= next) s = .error error t ↔
      first s = .error error t ∨
        ∃ middle u, first s = .ok middle u ∧ next middle u = .error error t := by
  change EStateM.bind first next s = _ ↔ _
  unfold EStateM.bind
  cases first s with
  | error error u => simp
  | ok middle u => simp

/-- Returning a value cannot fail. -/
theorem error_of_bind_pure {first : Parser α} {f : α → β}
    (h : (first >>= fun value ↦ pure (f value)) s = .error error t) : first s = .error error t := by
  obtain h | ⟨_, _, -, h⟩ := bind_eq_error.mp h
  · exact h
  · cases h

theorem eq_of_consume_error {kind : TokenKind} {what : Expectation}
    (h : consume kind what s = .error error t) : t = s := by
  rw [consume, isAt_bind] at h
  split at h
  · cases h
  · cases h
    rfl

theorem eq_of_identifier_error {what : Expectation} (h : identifier what s = .error error t) :
    t = s := by
  rw [identifier, current_bind] at h
  exact eq_of_consume_error (error_of_bind_pure h)

theorem eq_of_unexpected_error (h : (unexpected : Parser α) s = .error error t) : t = s := by
  rw [unexpected, current_bind] at h
  generalize s.current.kind = kind at h
  cases kind <;> cases h <;> rfl

theorem eq_of_requireExtended_error {construct : Construct}
    (h : requireExtended dialect construct s = .error error t) : t = s := by
  cases dialect with
  | arith =>
    cases h
    rfl
  | basic => cases h

/-- A construct is let through in the extended dialect only. -/
theorem basic_of_requireExtended {construct : Construct} {done : Unit}
    (h : requireExtended dialect construct s = .ok done t) : dialect = .basic := by
  cases dialect with
  | arith => cases h
  | basic => rfl

end Failures

/-! ## Sentences that have been started -/

/-- What is read from one state to another starts the sentence. -/
def State.ReadsInto (s : State) (sentence : List Terminal) (t : State) : Prop :=
  ∃ read, s.Reads read t ∧ read <+: sentence

namespace State

variable {read sentence : List Terminal}

theorem ReadsInto.refl (s : State) (sentence : List Terminal) : s.ReadsInto sentence s :=
  ⟨[], .refl s, List.nil_prefix⟩

theorem ReadsInto.append (h : s.ReadsInto sentence t) (rest : List Terminal) :
    s.ReadsInto (sentence ++ rest) t := by
  obtain ⟨read, hreads, hprefix⟩ := h
  exact ⟨read, hreads, hprefix.trans (List.prefix_append sentence rest)⟩

theorem Reads.into (h : s.Reads read t) (rest : List Terminal) : s.ReadsInto (read ++ rest) t :=
  ⟨read, h, List.prefix_append read rest⟩

theorem Reads.trans_into (h : s.Reads read u) (h' : u.ReadsInto sentence t) :
    s.ReadsInto (read ++ sentence) t := by
  obtain ⟨read', hreads, hprefix⟩ := h'
  exact ⟨read ++ read', h.trans hreads, (List.prefix_append_right_inj read).mpr hprefix⟩

end State

theorem continues_of_current {kind : TokenKind} (hs : s.WellFormed) (hkind : s.current.kind = kind)
    (hcontinues : kind.continues) : (nextKind s.terminals).continues := by
  rwa [← current_kind hs.finish_kind, hkind]

/-- What is read between two states starts a sentence of the nonterminal in the dialect. -/
def Begun (dialect : Dialect) (n : Nonterminal) (s t : State) : Prop :=
  ∃ d : Derivation n, d.Within dialect ∧ d.Greedy [] ∧ s.ReadsInto d.terminals t

/-- A tail has been started that leaves alone what comes before it. -/
def BegunTail (dialect : Dialect) (n : Nonterminal) (s t : State) : Prop :=
  ∃ d : Derivation n, d.Within dialect ∧ d.Greedy [] ∧ s.ReadsInto d.terminals t ∧
    ((nextKind d.terminals).continues → (nextKind s.terminals).continues)

/-- Every failing run has started a sentence of the nonterminal, if the nesting is not at fault. -/
def Halts (dialect : Dialect) (n : Nonterminal) (parser : Parser n.Value) : Prop :=
  ∀ ⦃s t : State⦄ ⦃error : ParseError⦄, s.WellFormed → error.fault ≠ .nestingTooDeep →
    parser s = .error error t → Begun dialect n s t

/-- Every run reads a sentence of the nonterminal in the dialect, or the start of one. -/
structure Viable (dialect : Dialect) (levels : Nat) (n : Nonterminal) (parser : Parser n.Value) :
    Prop where
  sound : Sound levels n parser
  within : Yields (fun value ↦ ∀ d : Derivation n, d.value = value → d.Within dialect) parser
  halts : Halts dialect n parser

theorem Viable.spelled {n : Nonterminal} {parser : Parser n.Value}
    (hparser : Viable dialect levels n parser) {value : n.Value} (hs : s.WellFormed)
    (h : parser s = .ok value t) :
    ∃ d : Derivation n, d.Within dialect ∧ s.Reads d.terminals t ∧ d.Greedy t.terminals := by
  obtain ⟨⟨d, hvalue, -, hreads, hgreedy⟩, -⟩ := hparser.sound hs h
  exact ⟨d, hparser.within h d hvalue, hreads, hgreedy⟩

theorem Halts.nested {n : Nonterminal} {parser : Parser n.Value}
    (hparser : Halts dialect n parser) : Halts dialect n (nested parser) := by
  intro s t error hs hdeep h
  unfold Parsing.nested at h
  split at h
  · cases h
  · rename_i error' u hrun
    cases h
    obtain ⟨d, hwithin, hgreedy, read, hreads, hprefix⟩ := hparser (hs.atDepth _) hdeep hrun
    exact ⟨d, hwithin, hgreedy, read, ⟨hreads.terminals_eq, hreads.finish_eq⟩, hprefix⟩

theorem halts_tooDeep {n : Nonterminal} : Halts dialect n tooDeep := by
  intro s t error hs hdeep h
  cases h
  exact absurd rfl hdeep

section Lists

variable {listed : Listed} {item : Parser listed.Value}

theorem begun_itemsWithin (hitem : Viable dialect levels (.item listed) item) {rounds : Nat}
    (hs : s.WellFormed) (hdeep : error.fault ≠ .nestingTooDeep)
    (h : itemsWithin item rounds s = .error error t) : Begun dialect (.series listed) s t := by
  induction rounds generalizing s with
  | zero =>
    obtain ⟨d, -, hgreedy, hinto⟩ := hitem.halts hs hdeep (error_of_bind_pure h)
    exact ⟨.last d, fun _ ↦ trivial, hgreedy, hinto⟩
  | succ rounds ih =>
    obtain h | ⟨value, u, hrun, h⟩ := bind_eq_error.mp h
    · obtain ⟨d, -, hgreedy, hinto⟩ := hitem.halts hs hdeep h
      exact ⟨.last d, fun _ ↦ trivial, hgreedy, hinto⟩
    · obtain ⟨d, -, hreads, hgreedy⟩ := hitem.spelled hs hrun
      rw [isAt_bind] at h
      split at h
      · rename_i hcomma
        have hread := hreads.trans
          (reads_mark (hreads.wellFormed hs) (beq_iff_eq.mp hcomma) rfl)
        rw [advance_bind] at h
        obtain ⟨d', -, hgreedy', hinto⟩ := ih (hread.wellFormed hs) (error_of_bind_pure h)
        refine ⟨.more d d', fun _ ↦ trivial, ⟨hgreedy.before rfl, hgreedy'⟩, ?_⟩
        simpa using hread.trans_into hinto
      · cases h

theorem begun_itemsToClose (hitem : Viable dialect levels (.item listed) item) {what : Expectation}
    (hs : s.WellFormed) (hdeep : error.fault ≠ .nestingTooDeep)
    (h : itemsToClose item what s = .error error t) : Begun dialect (.list listed) s t := by
  rw [itemsToClose, isAt_bind] at h
  split at h
  · cases h
  · obtain h | ⟨items, u, hitems, h⟩ := bind_eq_error.mp h
    · obtain ⟨d, -, hgreedy, hinto⟩ := begun_itemsWithin hitem hs hdeep h
      exact ⟨.items d, fun _ ↦ trivial, hgreedy, hinto⟩
    · obtain ⟨d, -, -, hreads, hgreedy⟩ :=
        spelled_itemsWithin hitem.sound hs (Nat.le_refl _) hitems
      obtain rfl := eq_of_consume_error (error_of_bind_pure h)
      refine ⟨.items d, fun _ ↦ trivial, hgreedy.before rfl, ?_⟩
      simpa using hreads.into []

end Lists

section Types

variable {type : Parser Ty}

theorem halts_param (htype : Viable dialect levels .type type) :
    Halts dialect .param (param type) := by
  intro s t error hs hdeep h
  obtain h | ⟨name, u, hname, h⟩ := bind_eq_error.mp h
  · obtain rfl := eq_of_identifier_error h
    exact ⟨.param "x" .numberType, fun _ ↦ trivial, trivial, .refl _ _⟩
  · have hident := reads_identifier hs hname
    obtain h | ⟨_, v, hcolon, h⟩ := bind_eq_error.mp h
    · obtain rfl := eq_of_consume_error h
      exact ⟨.param name .numberType, fun _ ↦ trivial, trivial, hident.into _⟩
    · have hread := hident.trans (reads_consume (hident.wellFormed hs) rfl hcolon)
      obtain ⟨d, -, hgreedy, hinto⟩ :=
        htype.halts (hread.wellFormed hs) hdeep (error_of_bind_pure h)
      exact ⟨.param name d, fun _ ↦ trivial, hgreedy, hread.trans_into hinto⟩

theorem within_param {parser : Parser Param} :
    Yields (fun value ↦ ∀ d : Derivation .param, d.value = value → d.Within dialect) parser := by
  intro s t value _ d _ _
  cases d
  trivial

theorem viable_param (htype : Viable dialect levels .type type) :
    Viable dialect levels .param (param type) where
  sound := sound_param htype.sound
  within := within_param
  halts := halts_param htype

theorem begun_params (htype : Viable dialect levels .type type) (hs : s.WellFormed)
    (hdeep : error.fault ≠ .nestingTooDeep) (h : params type s = .error error t) :
    ∃ d : Derivation (.list .param), d.Greedy [] ∧
      s.ReadsInto (mark .leftParen :: d.terminals) t := by
  obtain h | ⟨_, u, hopen, h⟩ := bind_eq_error.mp h
  · obtain rfl := eq_of_consume_error h
    exact ⟨.noItems, trivial, .refl _ _⟩
  · have hmark := reads_consume hs rfl hopen
    obtain ⟨d, -, hgreedy, hinto⟩ :=
      begun_itemsToClose (viable_param htype) (hmark.wellFormed hs) hdeep h
    exact ⟨d, hgreedy, hmark.trans_into hinto⟩

/-- Parameters, an arrow and what comes behind it, in a type or in an expression. -/
theorem begun_arrow (htype : Viable dialect levels .type type) {n : Nonterminal}
    {result : Parser n.Value} (hresult : Viable dialect levels n result) (last : Derivation n)
    (hlast : last.Greedy []) {what : Expectation} {join : List Param → n.Value → α}
    (hs : s.WellFormed) (hdeep : error.fault ≠ .nestingTooDeep)
    (h : (do
      let values ← params type
      consume .arrow what
      let value ← result
      return join values value : Parser α) s = .error error t) :
    ∃ (d : Derivation (.list .param)) (d' : Derivation n), d.Greedy [] ∧ d'.Greedy [] ∧
      s.ReadsInto (mark .leftParen ::
        (d.terminals ++ mark .rightParen :: mark .arrow :: d'.terminals)) t := by
  obtain h | ⟨values, u, hparams, h⟩ := bind_eq_error.mp h
  · obtain ⟨d, hgreedy, hinto⟩ := begun_params htype hs hdeep h
    exact ⟨d, last, hgreedy, hlast, hinto.append _⟩
  · obtain ⟨d, -, -, hreads, hgreedy⟩ := spelled_params htype.sound hs hparams
    obtain h | ⟨_, v, harrow, h⟩ := bind_eq_error.mp h
    · obtain rfl := eq_of_consume_error h
      refine ⟨d, last, hgreedy.before rfl, hlast, ?_⟩
      simpa using hreads.into (mark .arrow :: last.terminals)
    · have hread := hreads.trans (reads_consume (hreads.wellFormed hs) rfl harrow)
      obtain ⟨d', -, hgreedy', hinto⟩ :=
        hresult.halts (hread.wellFormed hs) hdeep (error_of_bind_pure h)
      refine ⟨d, d', hgreedy.before rfl, hgreedy', ?_⟩
      simpa using hread.trans_into hinto

theorem eq_of_typeName_error (h : typeName s = .error error t) : t = s := by
  rw [typeName, current_bind] at h
  split at h
  · split at h
    · cases h
    · split at h
      · cases h
      · cases h
        rfl
  · cases h
    rfl

theorem halts_typeForm (htype : Viable dialect levels .type type) :
    Halts dialect .type (typeForm type) := by
  intro s t error hs hdeep h
  rw [typeForm, isAt_bind] at h
  split at h
  · obtain ⟨d, d', hgreedy, hgreedy', hinto⟩ :=
      begun_arrow htype htype .numberType trivial hs hdeep h
    exact ⟨.functionType d d', fun _ ↦ trivial, ⟨hgreedy.before rfl, hgreedy'⟩, hinto⟩
  · obtain rfl := eq_of_typeName_error h
    exact ⟨.numberType, fun _ ↦ trivial, trivial, .refl _ _⟩

theorem within_type {parser : Parser Ty} :
    Yields (fun value ↦ ∀ d : Derivation .type, d.value = value → d.Within dialect) parser := by
  intro s t value _ d _ _
  cases d <;> trivial

theorem viable_type (levels : Nat) : Viable dialect levels .type (Parsing.type levels) where
  sound := sound_type levels
  within := within_type
  halts := by
    induction levels with
    | zero => exact halts_tooDeep
    | succ levels ih => exact (halts_typeForm ⟨sound_type levels, within_type, ih⟩).nested

end Types

/-- What holds where a round fails, and is handed back from the end of each round to its start,
holds where the repetition started. -/
theorem repeatAt_error_induction {kind : TokenKind} {step : α → Parser α}
    {motive : State → Prop}
    (hround : ∀ s u : State, ∀ value middle : α, s.WellFormed → s.current.kind = kind →
      step value s = .ok middle u → u.WellFormed ∧ (motive u → motive s))
    (hfail : ∀ s : State, ∀ value : α, s.WellFormed → s.current.kind = kind →
      step value s = .error error t → motive s) {rounds : Nat} {value : α} (hs : s.WellFormed)
    (h : repeatAt kind step rounds value s = .error error t) : motive s := by
  induction rounds generalizing s value with
  | zero => cases h
  | succ rounds ih =>
    rw [repeatAt, isAt_bind] at h
    split at h
    · rename_i hcurrent
      obtain h | ⟨middle, u, hstep, h⟩ := bind_eq_error.mp h
      · exact hfail s value hs (beq_iff_eq.mp hcurrent) h
      · obtain ⟨hu, hback⟩ := hround s u value middle hs (beq_iff_eq.mp hcurrent) hstep
        exact hback (ih hu h)
    · cases h

section Expressions

variable {type : Parser Ty} {expression operand sum : Parser Term}

/-- Where nothing has been read, anything can be started. -/
theorem begun_primary_refl (dialect : Dialect) (s : State) : Begun dialect .primary s s :=
  ⟨.boolean true, fun _ ↦ trivial, trivial, .refl _ _⟩

theorem begun_function (htype : Viable dialect levels .type type)
    (hexpression : Viable dialect levels .expr expression) (hs : s.WellFormed)
    (hdeep : error.fault ≠ .nestingTooDeep)
    (h : function dialect type expression s = .error error t) : Begun dialect .primary s t := by
  obtain h | ⟨_, u, hextended, h⟩ := bind_eq_error.mp h
  · obtain rfl := eq_of_requireExtended_error h
    exact begun_primary_refl dialect t
  · obtain rfl := basic_of_requireExtended hextended
    obtain rfl := requireExtended_eq_ok hextended
    obtain ⟨d, d', hgreedy, hgreedy', hinto⟩ :=
      begun_arrow htype hexpression .literal (Derivation.greedy_literal []) hs hdeep h
    exact ⟨.function d d', nofun, ⟨hgreedy.before rfl, hgreedy', rfl⟩, hinto⟩

theorem begun_group (hexpression : Viable dialect levels .expr expression) (hs : s.WellFormed)
    (hkind : s.current.kind = .leftParen) (hdeep : error.fault ≠ .nestingTooDeep)
    (h : group expression s = .error error t) : Begun dialect .primary s t := by
  rw [group, advance_bind] at h
  have hopen := reads_mark hs hkind rfl
  obtain h | ⟨inner, u, hinner, h⟩ := bind_eq_error.mp h
  · obtain ⟨d, hwithin, hgreedy, hinto⟩ := hexpression.halts (hopen.wellFormed hs) hdeep h
    exact ⟨.group d, hwithin, hgreedy.before rfl, (hopen.trans_into hinto).append _⟩
  · obtain ⟨d, hwithin, hreads, hgreedy⟩ := hexpression.spelled (hopen.wellFormed hs) hinner
    obtain rfl := eq_of_consume_error (error_of_bind_pure h)
    exact ⟨.group d, hwithin, hgreedy.before rfl, (hopen.trans hreads).into _⟩

theorem eq_of_numeral_error (h : numeral s = .error error t) : t = s := by
  rw [numeral, current_bind] at h
  cases hdecimal : Decimal.ofText? s.current.lexeme with
  | some decimal =>
    simp only [hdecimal] at h
    cases h
  | none =>
    simp only [hdecimal] at h
    cases h
    rfl

theorem halts_primary (htype : Viable dialect levels .type type)
    (hexpression : Viable dialect levels .expr expression) :
    Halts dialect .primary (primary dialect type expression) := by
  intro s t error hs hdeep h
  have hnothing : t = s → Begun dialect .primary s t := by
    rintro rfl
    exact begun_primary_refl dialect t
  rw [primary, current_bind] at h
  cases hkind : s.current.kind with
  | number =>
    simp only [hkind] at h
    exact hnothing (eq_of_numeral_error h)
  | boolean value =>
    simp only [hkind] at h
    cases h
  | ident =>
    simp only [hkind] at h
    obtain h | ⟨_, u, -, h⟩ := bind_eq_error.mp h
    · exact hnothing (eq_of_requireExtended_error h)
    · cases h
  | leftParen =>
    simp only [hkind] at h
    split at h
    · exact begun_function htype hexpression hs hdeep h
    · exact begun_group hexpression hs hkind hdeep h
  | _ =>
    simp only [hkind] at h
    exact hnothing (eq_of_unexpected_error h)

theorem begun_calls (hexpression : Viable dialect levels .expr expression) {callee : Term}
    (hs : s.WellFormed) (hdeep : error.fault ≠ .nestingTooDeep)
    (h : whileAt .leftParen (arguments dialect expression) callee s = .error error t) :
    BegunTail dialect .callTail s t := by
  refine repeatAt_error_induction (motive := fun s ↦ BegunTail dialect .callTail s t) ?_ ?_ hs h
  · intro s u callee middle hs hkind h
    obtain ⟨_, _, hextended, h⟩ := bind_eq_ok.mp h
    obtain rfl := basic_of_requireExtended hextended
    obtain rfl := requireExtended_eq_ok hextended
    obtain ⟨_, _, hadvance, h⟩ := bind_eq_ok.mp h
    obtain rfl := advance_eq_ok.mp hadvance
    obtain ⟨args, v, hargs, h⟩ := bind_eq_ok.mp h
    obtain ⟨rfl, rfl⟩ := pure_eq_ok.mp h
    have hopen := reads_mark hs hkind rfl
    obtain ⟨d, -, -, hreads, hgreedy⟩ :=
      spelled_itemsToClose hexpression.sound (hopen.wellFormed hs) hargs
    have hread := hopen.trans hreads
    refine ⟨hread.wellFormed hs, ?_⟩
    rintro ⟨d', -, hgreedy', hinto, -⟩
    refine ⟨.apply d d', nofun, ⟨hgreedy.before rfl, hgreedy'⟩, ?_, fun _ ↦
      continues_of_current hs hkind rfl⟩
    simpa using hread.trans_into hinto
  · intro s callee hs hkind h
    obtain h | ⟨_, u, hextended, h⟩ := bind_eq_error.mp h
    · obtain rfl := eq_of_requireExtended_error h
      exact ⟨.endCall, fun _ ↦ trivial, trivial, .refl _ _, nofun⟩
    · obtain rfl := basic_of_requireExtended hextended
      obtain rfl := requireExtended_eq_ok hextended
      rw [advance_bind] at h
      have hopen := reads_mark hs hkind rfl
      obtain ⟨d, -, hgreedy, hinto⟩ :=
        begun_itemsToClose hexpression (hopen.wellFormed hs) hdeep (error_of_bind_pure h)
      exact ⟨.apply d .endCall, nofun, ⟨hgreedy.before rfl, trivial⟩,
        (hopen.trans_into hinto).append _, fun _ ↦ continues_of_current hs hkind rfl⟩

theorem halts_operand (hprimary : Viable dialect levels .primary (primary dialect type expression))
    (hexpression : Viable dialect levels .expr expression) :
    Halts dialect .call (Parsing.operand dialect type expression) := by
  intro s t error hs hdeep h
  obtain h | ⟨callee, u, hcallee, h⟩ := bind_eq_error.mp h
  · obtain ⟨d, hwithin, hgreedy, hinto⟩ := hprimary.halts hs hdeep h
    exact ⟨.call d .endCall, fun harith ↦ ⟨hwithin harith, trivial⟩, ⟨hgreedy, trivial⟩,
      hinto.append _⟩
  · obtain ⟨d, hwithin, hreads, hgreedy⟩ := hprimary.spelled hs hcallee
    obtain ⟨d', hwithin', hgreedy', hinto, hnext⟩ :=
      begun_calls hexpression (hreads.wellFormed hs) hdeep h
    exact ⟨.call d d', fun harith ↦ ⟨hwithin harith, hwithin' harith⟩,
      ⟨hgreedy.before_tail hnext, hgreedy'⟩, hreads.trans_into hinto⟩

theorem begun_sum (hoperand : Viable dialect levels .call operand) {left : Term} (hs : s.WellFormed)
    (hdeep : error.fault ≠ .nestingTooDeep)
    (h : whileAt .plus (plus operand) left s = .error error t) :
    BegunTail dialect .addTail s t := by
  refine repeatAt_error_induction (motive := fun s ↦ BegunTail dialect .addTail s t) ?_ ?_ hs h
  · intro s u left middle hs hkind h
    obtain ⟨_, _, hadvance, h⟩ := bind_eq_ok.mp h
    obtain rfl := advance_eq_ok.mp hadvance
    obtain ⟨right, v, hright, h⟩ := bind_eq_ok.mp h
    obtain ⟨rfl, rfl⟩ := pure_eq_ok.mp h
    have hplus := reads_mark hs hkind rfl
    obtain ⟨d, hwithin, hreads, hgreedy⟩ := hoperand.spelled (hplus.wellFormed hs) hright
    have hread := hplus.trans hreads
    refine ⟨hread.wellFormed hs, ?_⟩
    rintro ⟨d', hwithin', hgreedy', hinto, hnext⟩
    refine ⟨.plus d d', fun harith ↦ ⟨hwithin harith, hwithin' harith⟩,
      ⟨hgreedy.before_tail hnext, hgreedy'⟩, ?_, fun _ ↦ continues_of_current hs hkind rfl⟩
    simpa using hread.trans_into hinto
  · intro s left hs hkind h
    rw [plus, advance_bind] at h
    have hplus := reads_mark hs hkind rfl
    obtain ⟨d, hwithin, hgreedy, hinto⟩ :=
      hoperand.halts (hplus.wellFormed hs) hdeep (error_of_bind_pure h)
    exact ⟨.plus d .endAdd, fun harith ↦ ⟨hwithin harith, trivial⟩, ⟨hgreedy, trivial⟩,
      (hplus.trans_into hinto).append _, fun _ ↦ continues_of_current hs hkind rfl⟩

theorem halts_addition (hoperand : Viable dialect levels .call operand) :
    Halts dialect .add (addition operand) := by
  intro s t error hs hdeep h
  obtain h | ⟨left, u, hleft, h⟩ := bind_eq_error.mp h
  · obtain ⟨d, hwithin, hgreedy, hinto⟩ := hoperand.halts hs hdeep h
    exact ⟨.add d .endAdd, fun harith ↦ ⟨hwithin harith, trivial⟩, ⟨hgreedy, trivial⟩,
      hinto.append _⟩
  · obtain ⟨d, hwithin, hreads, hgreedy⟩ := hoperand.spelled hs hleft
    obtain ⟨d', hwithin', hgreedy', hinto, hnext⟩ :=
      begun_sum hoperand (hreads.wellFormed hs) hdeep h
    exact ⟨.add d d', fun harith ↦ ⟨hwithin harith, hwithin' harith⟩,
      ⟨hgreedy.before_tail hnext, hgreedy'⟩, hreads.trans_into hinto⟩

theorem halts_conditional (hsum : Viable dialect levels .add sum)
    (hexpression : Viable dialect levels .expr expression) :
    Halts dialect .expr (conditional sum expression) := by
  intro s t error hs hdeep h
  obtain h | ⟨cond, u, hcond, h⟩ := bind_eq_error.mp h
  · obtain ⟨d, hwithin, hgreedy, hinto⟩ := hsum.halts hs hdeep h
    exact ⟨.plain d, hwithin, hgreedy, hinto⟩
  · obtain ⟨d, hwithin, hreads, hgreedy⟩ := hsum.spelled hs hcond
    have hu := hreads.wellFormed hs
    rw [isAt_bind] at h
    split at h
    · rename_i hquestion
      have hkind := beq_iff_eq.mp hquestion
      have hread := hreads.trans (reads_mark hu hkind rfl)
      -- The condition has been read up to the question mark, so it ends there in any completion.
      have hbegun {d₁ d₂ : Derivation .expr} {rest : List Terminal} (hwithin₁ : d₁.Within dialect)
          (hwithin₂ : d₂.Within dialect) (hgreedy₁ : d₁.Greedy rest) (hgreedy₂ : d₂.Greedy [])
          (hinto : s.ReadsInto (Derivation.conditional d d₁ d₂).terminals t) :
          Begun dialect .expr s t := by
        have hcontinues := continues_of_current hu hkind rfl
        exact ⟨.conditional d d₁ d₂,
          fun harith ↦ ⟨hwithin harith, hwithin₁ harith, hwithin₂ harith⟩,
          ⟨hgreedy.congr fun _ ↦ hcontinues, hgreedy₁.before rfl, hgreedy₂.before rfl⟩, hinto⟩
      have hliteral := Derivation.within_literal dialect
      rw [advance_bind] at h
      obtain h | ⟨thenBranch, v, hthen, h⟩ := bind_eq_error.mp h
      · obtain ⟨d₁, hwithin₁, hgreedy₁, hinto⟩ :=
          hexpression.halts (hread.wellFormed hs) hdeep h
        refine hbegun hwithin₁ hliteral hgreedy₁ (Derivation.greedy_literal []) ?_
        simpa using (hread.trans_into hinto).append
          (mark .colon :: Derivation.literal.terminals)
      · obtain ⟨d₁, hwithin₁, hreads₁, hgreedy₁⟩ :=
          hexpression.spelled (hread.wellFormed hs) hthen
        have hread₁ := hread.trans hreads₁
        obtain h | ⟨_, w, hcolon, h⟩ := bind_eq_error.mp h
        · obtain rfl := eq_of_consume_error h
          refine hbegun hwithin₁ hliteral hgreedy₁ (Derivation.greedy_literal []) ?_
          simpa using hread₁.into (mark .colon :: Derivation.literal.terminals)
        · have hread₂ := hread₁.trans (reads_consume (hread₁.wellFormed hs) rfl hcolon)
          obtain ⟨d₂, hwithin₂, hgreedy₂, hinto⟩ :=
            hexpression.halts (hread₂.wellFormed hs) hdeep (error_of_bind_pure h)
          refine hbegun hwithin₁ hwithin₂ hgreedy₁ hgreedy₂ ?_
          simpa using hread₂.trans_into hinto
    · cases h

end Expressions

section Levels

variable (hexpression : Viable dialect levels .expr (expression dialect levels))

include hexpression

theorem viable_primary :
    Viable dialect levels .primary (primary dialect (type levels) (expression dialect levels)) where
  sound := sound_primary (sound_type levels) hexpression.sound
  within := by
    rintro s t value hrun d rfl rfl
    exact d.reflects ((restricts_primary (.type levels) (restricts_expression levels)
      (.expression .basic levels)).yields hrun)
  halts := halts_primary (viable_type levels) hexpression

theorem viable_operand :
    Viable dialect levels .call (operand dialect (type levels) (expression dialect levels)) where
  sound := sound_operand (sound_type levels) hexpression.sound
  within := by
    rintro s t value hrun d rfl rfl
    exact d.reflects ((restricts_operand (.type levels) (restricts_expression levels)
      (.expression .basic levels)).yields hrun)
  halts := halts_operand (viable_primary hexpression) hexpression

theorem viable_addition :
    Viable dialect levels .add
      (addition (operand dialect (type levels) (expression dialect levels))) where
  sound := sound_addition (viable_operand hexpression).sound
  within := by
    rintro s t value hrun d rfl rfl
    have hsteady := Steady.expression .basic levels
    exact d.reflects ((restricts_addition (restricts_operand (.type levels)
      (restricts_expression levels) hsteady) (.operand (.type levels) hsteady)).yields hrun)
  halts := halts_addition (viable_operand hexpression)

omit hexpression

theorem within_expression (dialect : Dialect) (levels : Nat) :
    Yields (fun value ↦ ∀ d : Derivation .expr, d.value = value → d.Within dialect)
      (expression dialect levels) := by
  rintro s t value hrun d rfl rfl
  exact d.reflects ((restricts_expression levels).yields hrun)

theorem viable_expression (dialect : Dialect) (levels : Nat) :
    Viable dialect levels .expr (expression dialect levels) where
  sound := sound_expression levels
  within := within_expression dialect levels
  halts := by
    induction levels with
    | zero => exact halts_tooDeep
    | succ levels ih =>
      have hexpression : Viable dialect levels .expr (expression dialect levels) :=
        ⟨sound_expression levels, within_expression dialect levels, ih⟩
      exact (halts_conditional (viable_addition hexpression) hexpression).nested

end Levels

/-! ## Programs -/

section Programs

variable {expression : Parser Term}

theorem begun_constItem (hexpression : Viable dialect levels .expr expression) (hs : s.WellFormed)
    (hkind : s.current.kind = .const) (hdeep : error.fault ≠ .nestingTooDeep)
    (h : constItem expression s = .error error t) :
    ∃ (name : String) (d : Derivation .expr), d.Greedy [] ∧
      s.ReadsInto (mark .const :: ident name :: mark .equals :: d.terminals) t := by
  rw [constItem, advance_bind] at h
  have hkeyword := reads_mark hs hkind rfl
  obtain h | ⟨name, u, hname, h⟩ := bind_eq_error.mp h
  · obtain rfl := eq_of_identifier_error h
    exact ⟨"x", .literal, Derivation.greedy_literal [], hkeyword.into _⟩
  · have hident := hkeyword.trans (reads_identifier (hkeyword.wellFormed hs) hname)
    obtain h | ⟨_, v, hequals, h⟩ := bind_eq_error.mp h
    · obtain rfl := eq_of_consume_error h
      exact ⟨name, .literal, Derivation.greedy_literal [], hident.into _⟩
    · have hread := hident.trans (reads_consume (hident.wellFormed hs) rfl hequals)
      obtain h | ⟨init, w, hinit, h⟩ := bind_eq_error.mp h
      · obtain ⟨d, -, hgreedy, hinto⟩ := hexpression.halts (hread.wellFormed hs) hdeep h
        exact ⟨name, d, hgreedy, hread.trans_into hinto⟩
      · obtain ⟨d, -, hreads, hgreedy⟩ := hexpression.spelled (hread.wellFormed hs) hinit
        obtain rfl := eq_of_consume_error (error_of_bind_pure h)
        refine ⟨name, d, hgreedy.before rfl, ?_⟩
        simpa using (hread.trans hreads).into []

theorem begun_itemsAndResult (hexpression : Viable dialect levels .expr expression) {rounds : Nat}
    (hs : s.WellFormed) (hdeep : error.fault ≠ .nestingTooDeep)
    (h : itemsAndResult dialect expression rounds s = .error error t) :
    Begun dialect .program s t := by
  have hfinal : (Derivation.final .literal false).Greedy [] := Derivation.greedy_literal []
  induction rounds generalizing s with
  | zero =>
    obtain ⟨d, hwithin, hgreedy, hinto⟩ := hexpression.halts hs hdeep (error_of_bind_pure h)
    exact ⟨.final d false, hwithin, hgreedy, hinto.append _⟩
  | succ rounds ih =>
    rw [itemsAndResult, isAt_bind] at h
    split at h
    · rename_i hconst
      obtain h | ⟨_, _, hextended, h⟩ := bind_eq_error.mp h
      · obtain rfl := eq_of_requireExtended_error h
        exact ⟨.final .literal false, Derivation.within_literal dialect, hfinal, .refl _ _⟩
      · obtain rfl := basic_of_requireExtended hextended
        obtain rfl := requireExtended_eq_ok hextended
        obtain h | ⟨item, u, hitem, h⟩ := bind_eq_error.mp h
        · obtain ⟨name, d, hgreedy, hinto⟩ :=
            begun_constItem hexpression hs (beq_iff_eq.mp hconst) hdeep h
          exact ⟨.const name d (.final .literal false), nofun, ⟨hgreedy.before rfl, hfinal⟩,
            hinto.append _⟩
        · obtain ⟨name, d, -, -, hreads, hgreedy⟩ :=
            spelled_constItem hexpression.sound hs (beq_iff_eq.mp hconst) hitem
          obtain h | ⟨⟨items, result⟩, _, -, h⟩ := bind_eq_error.mp h
          · obtain ⟨d', -, hgreedy', hinto⟩ := ih (hreads.wellFormed hs) h
            refine ⟨.const name d d', nofun, ⟨hgreedy.before rfl, hgreedy'⟩, ?_⟩
            simpa using hreads.trans_into hinto
          · cases h
    · obtain h | ⟨term, u, hterm, h⟩ := bind_eq_error.mp h
      · obtain ⟨d, hwithin, hgreedy, hinto⟩ := hexpression.halts hs hdeep h
        exact ⟨.final d false, hwithin, hgreedy, hinto.append _⟩
      · obtain ⟨d, hwithin, hreads, hgreedy⟩ := hexpression.spelled hs hterm
        rw [isAt_bind] at h
        split at h
        · rename_i hsemicolon
          have hread := hreads.trans
            (reads_mark (hreads.wellFormed hs) (beq_iff_eq.mp hsemicolon) rfl)
          rw [advance_bind, atEnd, isAt_bind] at h
          split at h
          · cases h
          · obtain h | ⟨_, _, hextended, h⟩ := bind_eq_error.mp h
            · -- What has been read is a program of the arithmetic dialect already.
              obtain rfl := eq_of_requireExtended_error h
              refine ⟨.final d true, hwithin, hgreedy.before rfl, ?_⟩
              simpa using hread.into []
            · obtain rfl := basic_of_requireExtended hextended
              obtain rfl := requireExtended_eq_ok hextended
              obtain h | ⟨⟨items, result⟩, _, -, h⟩ := bind_eq_error.mp h
              · obtain ⟨d', -, hgreedy', hinto⟩ := ih (hread.wellFormed hs) h
                refine ⟨.statement d d', nofun, ⟨hgreedy.before rfl, hgreedy'⟩, ?_⟩
                simpa using hread.trans_into hinto
              · cases h
        · cases h

/-- A program that is refused, if not for its nesting, has been started. -/
theorem begun_program (hs : s.WellFormed) (hdeep : error.fault ≠ .nestingTooDeep)
    (h : program dialect s = .error error t) : Begun dialect .program s t := by
  have hexpression := viable_expression dialect (nestingLimit - s.depth)
  obtain h | ⟨⟨items, result⟩, u, hitems, h⟩ := bind_eq_error.mp h
  · exact begun_itemsAndResult hexpression hs hdeep h
  · -- The program is complete, but more tokens follow it.
    obtain ⟨d, hvalue, -, hreads, hgreedy⟩ :=
      spelled_itemsAndResult hexpression.sound hs (Nat.le_refl _) hitems
    dsimp only at h
    rw [atEnd, isAt_bind] at h
    split at h
    · cases h
    · obtain rfl := eq_of_unexpected_error h
      refine ⟨d, ?_, hgreedy.before rfl, by simpa using hreads.into []⟩
      rintro rfl
      have hplain := (restricts_itemsAndResult (restricts_expression _)
        (.expression .basic _) _).yields hitems
      rw [← hvalue] at hplain
      exact d.reflects hplain

end Programs

/-- The terminals read from the start of a text are those of the tokens before the cursor. -/
theorem map_terminal_take {read : List Terminal} (hbefore : s.before = []) (hleads : s.LeadsTo t)
    (hreads : s.Reads read t) : (s.tokens.take t.cursor).map Token.terminal = read := by
  have happend : t.before.reverse ++ t.ahead = s.ahead := by
    simpa [hbefore] using hleads.append_eq
  have htake : s.tokens.take t.cursor = t.before.reverse := by
    rw [← hleads.tokens_eq, tokens, cursor, List.append_assoc, ← List.length_reverse,
      List.take_left]
  apply List.append_cancel_right
  calc
    (s.tokens.take t.cursor).map Token.terminal ++ t.terminals =
        (t.before.reverse ++ t.ahead).map Token.terminal := by
      rw [htake, List.map_append]
      rfl
    _ = s.terminals := by rw [happend, State.terminals]
    _ = read ++ t.terminals := hreads.terminals_eq

end Parsing

open Grammar Parsing

/-- An error is reported no later than at the token where the text goes wrong: unless the nesting is
at fault, the tokens before the error can be continued to a program of the dialect. -/
theorem tokens_before_error_continue {dialect : Dialect} {source : String} {error : ParseError}
    (herror : (Session.ofString dialect source).parse.1 = .error error)
    (hfault : error.fault ≠ .nestingTooDeep) :
    error.IsAt (State.ofString source).tokens
      (Session.ofString dialect source).parse.2.state.cursor ∧
    ∃ (continuation : List Token) (d : Derivation .program),
      d.Derives (((State.ofString source).tokens.take
        (Session.ofString dialect source).parse.2.state.cursor ++ continuation).map
          Token.terminal) ∧
      (dialect = .arith → d.IsArith) := by
  have hparse : (Session.ofString dialect source).parse =
      (outcome (program dialect (.ofString source)),
        ⟨dialect, finalState (program dialect (.ofString source))⟩) := by
    rw [Session.parse, Session.run_eq]
    rfl
  rw [hparse] at herror ⊢
  have hfollows := Steady.program dialect (.ofString source)
  refine ⟨hfollows.isAt herror, ?_⟩
  cases hrun : program dialect (.ofString source) with
  | ok term t =>
    rw [hrun] at herror
    cases herror
  | error error' t =>
    rw [hrun] at herror hfollows
    cases herror
    obtain ⟨d, hwithin, hgreedy, read, hreads, rest, hrest⟩ :=
      begun_program (wellFormed_ofString source) hfault hrun
    obtain ⟨continuation, hcontinuation⟩ := d.exists_tokens ⟨read, hrest⟩
    refine ⟨continuation, d, ⟨?_, hgreedy⟩, hwithin⟩
    rw [List.map_append, map_terminal_take rfl hfollows.leadsTo hreads, hcontinuation, hrest]

theorem tokens_before_error_continue_sample :
    (Session.ofString .arith "1 + (2 ? x : 3)").parse.1 =
      .error ⟨.notArithmetic .variableReference, ⟨1, 10⟩⟩ ∧
    ParseError.IsAt ⟨.notArithmetic .variableReference, ⟨1, 10⟩⟩
      (State.ofString "1 + (2 ? x : 3)").tokens
      (Session.ofString .arith "1 + (2 ? x : 3)").parse.2.state.cursor ∧
    ∃ (continuation : List Token) (d : Derivation .program),
      d.Derives (((State.ofString "1 + (2 ? x : 3)").tokens.take
        (Session.ofString .arith "1 + (2 ? x : 3)").parse.2.state.cursor ++ continuation).map
          Token.terminal) ∧
      (Dialect.arith = .arith → d.IsArith) := by
  have hmap : ((Session.ofString .arith "1 + (2 ? x : 3)").parse.1.map fun _ ↦ ()) =
      .error ⟨.notArithmetic .variableReference, ⟨1, 10⟩⟩ := by
    decide +kernel
  have herror : (Session.ofString .arith "1 + (2 ? x : 3)").parse.1 =
      .error ⟨.notArithmetic .variableReference, ⟨1, 10⟩⟩ := by
    generalize (Session.ofString .arith "1 + (2 ? x : 3)").parse.1 = result at hmap
    cases result with
    | ok term => cases hmap
    | error error =>
      cases hmap
      rfl
  exact ⟨herror, tokens_before_error_continue herror (by decide)⟩

end ArrowLang

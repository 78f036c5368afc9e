import ArrowLang.Proofs.Grammar.Reading
import ArrowLang.Proofs.Grammar.Unambiguous

/-!
# Whatever a parser accepts has a derivation

A successful run of a parser reads a sentence of the nonterminal it stands for, with the value it
returns, and stops where the sentence is complete.  The parsers for forms that contain expressions
or types are sound if the parsers for these are, so that soundness follows by induction on the
number of levels that may still be opened.
-/

namespace ArrowLang.Parsing

open Grammar State
open Terminal (mark ident)

variable {α : Type} {levels : Nat} {s t : State}

/-- A sentence of the nonterminal with the value stands between two states. -/
def Spelled (levels : Nat) (n : Nonterminal) (s : State) (value : n.Value) (t : State) : Prop :=
  ∃ d : Derivation n, d.value = value ∧ d.depth ≤ levels ∧ s.Reads d.terminals t ∧
    d.Greedy t.terminals

/-- Every successful run reads a complete sentence of the nonterminal. -/
def Sound (levels : Nat) (n : Nonterminal) (parser : Parser n.Value) : Prop :=
  ∀ ⦃s t : State⦄ ⦃value : n.Value⦄, s.WellFormed → parser s = .ok value t →
    Spelled levels n s value t ∧ n.endsBefore (nextKind t.terminals)

theorem Sound.nested {n : Nonterminal} {parser : Parser n.Value} (hparser : Sound levels n parser) :
    Sound levels n (nested parser) := by
  intro s t value hs h
  unfold Parsing.nested at h
  split at h
  · rename_i value' u hrun
    cases h
    obtain ⟨⟨d, hvalue, hdepth, hreads, hgreedy⟩, hends⟩ :=
      hparser (hs.atDepth _) hrun
    exact ⟨⟨d, hvalue, hdepth, ⟨hreads.terminals_eq, hreads.finish_eq⟩, hgreedy⟩, hends⟩
  · cases h

theorem sound_tooDeep {n : Nonterminal} : Sound 0 n tooDeep := by
  intro s t value hs h
  cases h

section Lists

variable {listed : Listed} {item : Parser listed.Value}

theorem spelled_itemsWithin (hitem : Sound levels (.item listed) item) {rounds : Nat}
    {values : List listed.Value} (hs : s.WellFormed) (hrounds : s.ahead.length ≤ rounds)
    (h : itemsWithin item rounds s = .ok values t) :
    Spelled levels (.series listed) s values t := by
  induction rounds generalizing s values with
  | zero =>
    obtain ⟨value, u, hrun, h⟩ := bind_eq_ok.mp h
    obtain ⟨rfl, rfl⟩ := pure_eq_ok.mp h
    obtain ⟨⟨d, rfl, hdepth, hreads, hgreedy⟩, -⟩ := hitem hs hrun
    exact ⟨.last d, rfl, hdepth, hreads, hgreedy⟩
  | succ rounds ih =>
    obtain ⟨value, u, hrun, h⟩ := bind_eq_ok.mp h
    obtain ⟨⟨d, rfl, hdepth, hreads, hgreedy⟩, -⟩ := hitem hs hrun
    obtain ⟨found, _, hat, h⟩ := bind_eq_ok.mp h
    obtain ⟨rfl, rfl⟩ := isAt_eq_ok.mp hat
    split at h
    · rename_i hcomma
      obtain ⟨_, _, hadvance, h⟩ := bind_eq_ok.mp h
      obtain rfl := advance_eq_ok.mp hadvance
      obtain ⟨others, _, hothers, h⟩ := bind_eq_ok.mp h
      obtain ⟨rfl, rfl⟩ := pure_eq_ok.mp h
      have hmark := reads_mark (hreads.wellFormed hs) (beq_iff_eq.mp hcomma) rfl
      have hlength := hreads.length_eq
      have hshorter := hmark.length_eq
      obtain ⟨d', rfl, hdepth', hreads', hgreedy'⟩ :=
        ih (hmark.wellFormed (hreads.wellFormed hs)) (by simp at hshorter; omega) hothers
      rw [hmark.terminals_eq, hreads'.terminals_eq] at hgreedy
      exact ⟨.more d d', rfl, Nat.max_le.mpr ⟨hdepth, hdepth'⟩,
        hreads.trans (hmark.trans hreads'), hgreedy, hgreedy'⟩
    · obtain ⟨rfl, rfl⟩ := pure_eq_ok.mp h
      exact ⟨.last d, rfl, hdepth, hreads, hgreedy⟩

theorem spelled_itemsToClose (hitem : Sound levels (.item listed) item) {what : Expectation}
    {values : List listed.Value} (hs : s.WellFormed)
    (h : itemsToClose item what s = .ok values t) :
    ∃ d : Derivation (.list listed), d.value = values ∧ d.depth ≤ levels ∧
      s.Reads (d.terminals ++ [mark .rightParen]) t ∧
      d.Greedy (mark .rightParen :: t.terminals) := by
  obtain ⟨found, _, hat, h⟩ := bind_eq_ok.mp h
  obtain ⟨rfl, rfl⟩ := isAt_eq_ok.mp hat
  split at h
  · rename_i hclose
    obtain ⟨_, _, hadvance, h⟩ := bind_eq_ok.mp h
    obtain rfl := advance_eq_ok.mp hadvance
    obtain ⟨rfl, rfl⟩ := pure_eq_ok.mp h
    exact ⟨.noItems, rfl, Nat.zero_le _, reads_mark hs (beq_iff_eq.mp hclose) rfl, trivial⟩
  · obtain ⟨items, u, hitems, h⟩ := bind_eq_ok.mp h
    obtain ⟨_, v, hconsume, h⟩ := bind_eq_ok.mp h
    obtain ⟨rfl, rfl⟩ := pure_eq_ok.mp h
    obtain ⟨d, rfl, hdepth, hreads, hgreedy⟩ := spelled_itemsWithin hitem hs (Nat.le_refl _) hitems
    have hclose := reads_consume (hreads.wellFormed hs) rfl hconsume
    rw [hclose.terminals_eq] at hgreedy
    exact ⟨.items d, rfl, hdepth, hreads.trans hclose, hgreedy⟩

end Lists

section Types

variable {type : Parser Ty}

theorem sound_param (htype : Sound levels .type type) : Sound levels .param (param type) := by
  intro s t value hs h
  obtain ⟨name, u, hname, h⟩ := bind_eq_ok.mp h
  obtain ⟨_, v, hcolon, h⟩ := bind_eq_ok.mp h
  obtain ⟨ty, w, hty, h⟩ := bind_eq_ok.mp h
  obtain ⟨rfl, rfl⟩ := pure_eq_ok.mp h
  have hident := reads_identifier hs hname
  have hmark := reads_consume (hident.wellFormed hs) rfl hcolon
  have hread := hident.trans hmark
  obtain ⟨⟨d, rfl, hdepth, hreads, hgreedy⟩, hends⟩ := htype (hread.wellFormed hs) hty
  exact ⟨⟨.param name d, rfl, hdepth, hread.trans hreads, hgreedy⟩, rfl⟩

/-- A parameter list in parentheses. -/
theorem spelled_params (htype : Sound levels .type type) {values : List Param} (hs : s.WellFormed)
    (h : params type s = .ok values t) :
    ∃ d : Derivation (.list .param), d.value = values ∧ d.depth ≤ levels ∧
      s.Reads (mark .leftParen :: (d.terminals ++ [mark .rightParen])) t ∧
      d.Greedy (mark .rightParen :: t.terminals) := by
  obtain ⟨_, u, hopen, h⟩ := bind_eq_ok.mp h
  have hmark := reads_consume hs rfl hopen
  obtain ⟨d, rfl, hdepth, hreads, hgreedy⟩ :=
    spelled_itemsToClose (sound_param htype) (hmark.wellFormed hs) h
  exact ⟨d, rfl, hdepth, hmark.trans hreads, hgreedy⟩

theorem sound_typeName : Sound (levels + 1) .type typeName := by
  intro s t value hs h
  obtain ⟨token, _, hcurrent, h⟩ := bind_eq_ok.mp h
  obtain ⟨rfl, rfl⟩ := current_eq_ok.mp hcurrent
  split at h
  · rename_i hkind
    have hread : s.Reads [ident s.current.lexeme] s.advance := by
      rw [← Token.terminal_eq_ident hkind]
      exact .advance hs (by simp [hkind])
    split at h
    · rename_i hname
      obtain ⟨_, _, hadvance, h⟩ := bind_eq_ok.mp h
      obtain rfl := advance_eq_ok.mp hadvance
      obtain ⟨rfl, rfl⟩ := pure_eq_ok.mp h
      rw [hname] at hread
      exact ⟨⟨.numberType, rfl, by simp, hread, trivial⟩, rfl⟩
    · split at h
      · rename_i hname
        obtain ⟨_, _, hadvance, h⟩ := bind_eq_ok.mp h
        obtain rfl := advance_eq_ok.mp hadvance
        obtain ⟨rfl, rfl⟩ := pure_eq_ok.mp h
        rw [hname] at hread
        exact ⟨⟨.booleanType, rfl, by simp, hread, trivial⟩, rfl⟩
      · exact absurd h fail_ne_ok
  · exact absurd h fail_ne_ok

theorem sound_typeForm (htype : Sound levels .type type) :
    Sound (levels + 1) .type (typeForm type) := by
  intro s t value hs h
  obtain ⟨found, _, hat, h⟩ := bind_eq_ok.mp h
  obtain ⟨rfl, rfl⟩ := isAt_eq_ok.mp hat
  split at h
  · obtain ⟨values, u, hparams, h⟩ := bind_eq_ok.mp h
    obtain ⟨_, v, harrow, h⟩ := bind_eq_ok.mp h
    obtain ⟨result, w, hresult, h⟩ := bind_eq_ok.mp h
    obtain ⟨rfl, rfl⟩ := pure_eq_ok.mp h
    obtain ⟨d, rfl, hdepth, hreads, hgreedy⟩ := spelled_params htype hs hparams
    have hmark := reads_consume (hreads.wellFormed hs) rfl harrow
    have hread := hreads.trans hmark
    obtain ⟨⟨d', rfl, hdepth', hreads', hgreedy'⟩, -⟩ := htype (hread.wellFormed hs) hresult
    rw [hmark.terminals_eq, hreads'.terminals_eq] at hgreedy
    refine ⟨⟨.functionType d d', rfl, ?_, ?_, hgreedy, hgreedy'⟩, rfl⟩
    · exact Nat.succ_le_succ (Nat.max_le.mpr ⟨hdepth, hdepth'⟩)
    · simpa using hread.trans hreads'
  · exact sound_typeName hs h

theorem sound_type (levels : Nat) : Sound levels .type (Parsing.type levels) := by
  induction levels with
  | zero => exact sound_tooDeep
  | succ levels ih => exact (sound_typeForm ih).nested

end Types

/-- What holds where a repetition stops, and is handed back from the end of each round to its start,
holds where the repetition started. -/
theorem repeatAt_induction {kind : TokenKind} (hkind : kind ≠ .endOfInput) {step : α → Parser α}
    {motive : State → α → Prop} {result : α}
    (hround : ∀ s u : State, ∀ value middle : α, s.WellFormed → s.current.kind = kind →
      step value s = .ok middle u →
      u.WellFormed ∧ u.ahead.length < s.ahead.length ∧ (motive u middle → motive s value))
    (hstop : nextKind t.terminals ≠ kind → motive t result) {rounds : Nat} {value : α}
    (hs : s.WellFormed) (hrounds : s.ahead.length ≤ rounds)
    (h : repeatAt kind step rounds value s = .ok result t) : motive s value := by
  induction rounds generalizing s value with
  | zero =>
    obtain ⟨rfl, rfl⟩ := pure_eq_ok.mp h
    refine hstop fun hnext ↦ hkind ?_
    have hempty : s.terminals = [] := List.eq_nil_of_length_eq_zero (by simpa using hrounds)
    rw [hempty] at hnext
    exact hnext.symm
  | succ rounds ih =>
    obtain ⟨found, _, hat, h⟩ := bind_eq_ok.mp h
    obtain ⟨rfl, rfl⟩ := isAt_eq_ok.mp hat
    split at h
    · rename_i hcurrent
      obtain ⟨middle, u, hstep, h⟩ := bind_eq_ok.mp h
      obtain ⟨hu, hshorter, hback⟩ := hround s u value middle hs (beq_iff_eq.mp hcurrent) hstep
      exact hback (ih hu (by omega) h)
    · rename_i hcurrent
      obtain ⟨rfl, rfl⟩ := pure_eq_ok.mp h
      rw [← State.current_kind hs.finish_kind] at hstop
      exact hstop (by simpa using hcurrent)

/-! ## Expressions -/

section Expressions

variable {dialect : Dialect} {type : Parser Ty} {expression : Parser Term} {value : Term}

theorem spelled_numeral (hs : s.WellFormed) (hkind : s.current.kind = .number)
    (h : numeral s = .ok value t) : Spelled levels .primary s value t := by
  obtain ⟨token, _, hcurrent, h⟩ := bind_eq_ok.mp h
  obtain ⟨rfl, rfl⟩ := current_eq_ok.mp hcurrent
  cases hdecimal : Decimal.ofText? s.current.lexeme with
  | none =>
    simp only [hdecimal] at h
    exact absurd h fail_ne_ok
  | some decimal =>
    simp only [hdecimal] at h
    obtain ⟨_, _, hadvance, h⟩ := bind_eq_ok.mp h
    obtain rfl := advance_eq_ok.mp hadvance
    obtain ⟨rfl, rfl⟩ := pure_eq_ok.mp h
    have hread := Reads.advance hs (by simp [hkind])
    rw [Token.terminal_eq_number hkind] at hread
    refine ⟨.number s.current.lexeme, ?_, Nat.zero_le _, hread, trivial⟩
    rw [Derivation.value, numeralValue, hdecimal]
    rfl

theorem spelled_function (htype : Sound levels .type type)
    (hexpression : Sound levels .expr expression) (hs : s.WellFormed)
    (h : function dialect type expression s = .ok value t) : Spelled levels .primary s value t := by
  obtain ⟨_, _, hextended, h⟩ := bind_eq_ok.mp h
  obtain rfl := requireExtended_eq_ok hextended
  obtain ⟨params, u, hparams, h⟩ := bind_eq_ok.mp h
  obtain ⟨_, v, harrow, h⟩ := bind_eq_ok.mp h
  obtain ⟨body, w, hbody, h⟩ := bind_eq_ok.mp h
  obtain ⟨rfl, rfl⟩ := pure_eq_ok.mp h
  obtain ⟨d, rfl, hdepth, hreads, hgreedy⟩ := spelled_params htype hs hparams
  have hmark := reads_consume (hreads.wellFormed hs) rfl harrow
  have hread := hreads.trans hmark
  -- The body is greedy because an expression stops only where it cannot go on.
  obtain ⟨⟨d', rfl, hdepth', hreads', hgreedy'⟩, hends⟩ := hexpression (hread.wellFormed hs) hbody
  rw [hmark.terminals_eq, hreads'.terminals_eq] at hgreedy
  refine ⟨.function d d', rfl, Nat.max_le.mpr ⟨hdepth, hdepth'⟩, ?_, hgreedy, hgreedy', ?_⟩
  · simpa using hread.trans hreads'
  · simpa [Nonterminal.endsBefore] using hends

theorem spelled_group (hexpression : Sound levels .expr expression) (hs : s.WellFormed)
    (hkind : s.current.kind = .leftParen) (h : group expression s = .ok value t) :
    Spelled levels .primary s value t := by
  obtain ⟨_, _, hadvance, h⟩ := bind_eq_ok.mp h
  obtain rfl := advance_eq_ok.mp hadvance
  obtain ⟨inner, u, hinner, h⟩ := bind_eq_ok.mp h
  obtain ⟨_, v, hclose, h⟩ := bind_eq_ok.mp h
  obtain ⟨rfl, rfl⟩ := pure_eq_ok.mp h
  have hopen := reads_mark hs hkind rfl
  obtain ⟨⟨d, rfl, hdepth, hreads, hgreedy⟩, -⟩ := hexpression (hopen.wellFormed hs) hinner
  have hread := hopen.trans hreads
  have hmark := reads_consume (hread.wellFormed hs) rfl hclose
  rw [hmark.terminals_eq] at hgreedy
  exact ⟨.group d, rfl, hdepth, hread.trans hmark, hgreedy⟩

theorem sound_primary (htype : Sound levels .type type)
    (hexpression : Sound levels .expr expression) :
    Sound levels .primary (primary dialect type expression) := by
  intro s t value hs h
  refine ⟨?_, rfl⟩
  obtain ⟨token, _, hcurrent, h⟩ := bind_eq_ok.mp h
  obtain ⟨rfl, rfl⟩ := current_eq_ok.mp hcurrent
  cases hkind : s.current.kind with
  | number =>
    simp only [hkind] at h
    exact spelled_numeral hs hkind h
  | boolean value =>
    simp only [hkind] at h
    obtain ⟨_, _, hadvance, h⟩ := bind_eq_ok.mp h
    obtain rfl := advance_eq_ok.mp hadvance
    obtain ⟨rfl, rfl⟩ := pure_eq_ok.mp h
    exact ⟨.boolean value, rfl, Nat.zero_le _, reads_mark hs hkind rfl, trivial⟩
  | ident =>
    simp only [hkind] at h
    obtain ⟨_, _, hextended, h⟩ := bind_eq_ok.mp h
    obtain rfl := requireExtended_eq_ok hextended
    obtain ⟨_, _, hadvance, h⟩ := bind_eq_ok.mp h
    obtain rfl := advance_eq_ok.mp hadvance
    obtain ⟨rfl, rfl⟩ := pure_eq_ok.mp h
    have hread := Reads.advance hs (by simp [hkind])
    rw [Token.terminal_eq_ident hkind] at hread
    exact ⟨.var s.current.lexeme, rfl, Nat.zero_le _, hread, trivial⟩
  | leftParen =>
    simp only [hkind] at h
    split at h
    · exact spelled_function htype hexpression hs h
    · exact spelled_group hexpression hs hkind h
  | _ =>
    simp only [hkind] at h
    exact absurd h unexpected_ne_ok

theorem spelled_calls (hexpression : Sound levels .expr expression) {callee : Term}
    (hs : s.WellFormed)
    (h : whileAt .leftParen (arguments dialect expression) callee s = .ok value t) :
    ∃ d : Derivation .callTail, d.value callee = value ∧ d.depth ≤ levels ∧
      s.Reads d.terminals t ∧ d.Greedy t.terminals ∧ nextKind t.terminals ≠ .leftParen := by
  refine repeatAt_induction (motive := fun s callee ↦ ∃ d : Derivation .callTail,
    d.value callee = value ∧ d.depth ≤ levels ∧ s.Reads d.terminals t ∧ d.Greedy t.terminals ∧
    nextKind t.terminals ≠ .leftParen) (by simp) ?_ ?_ hs (Nat.le_refl _) h
  · intro s u callee middle hs hkind h
    obtain ⟨_, _, hextended, h⟩ := bind_eq_ok.mp h
    obtain rfl := requireExtended_eq_ok hextended
    obtain ⟨_, _, hadvance, h⟩ := bind_eq_ok.mp h
    obtain rfl := advance_eq_ok.mp hadvance
    obtain ⟨args, v, hargs, h⟩ := bind_eq_ok.mp h
    obtain ⟨rfl, rfl⟩ := pure_eq_ok.mp h
    have hopen := reads_mark hs hkind rfl
    obtain ⟨d, rfl, hdepth, hreads, hgreedy⟩ :=
      spelled_itemsToClose hexpression (hopen.wellFormed hs) hargs
    have hread := hopen.trans hreads
    have hlength := hread.length_eq
    simp only [List.length_append, List.length_singleton] at hlength
    refine ⟨hread.wellFormed hs, by omega, ?_⟩
    rintro ⟨d', rfl, hdepth', hreads', hgreedy', hstop⟩
    rw [hreads'.terminals_eq] at hgreedy
    refine ⟨.apply d d', rfl, Nat.max_le.mpr ⟨hdepth, hdepth'⟩, ?_, ⟨hgreedy, hgreedy'⟩, hstop⟩
    simpa using hread.trans hreads'
  · intro hstop
    exact ⟨.endCall, rfl, Nat.zero_le _, .refl t, trivial, hstop⟩

theorem sound_operand (htype : Sound levels .type type)
    (hexpression : Sound levels .expr expression) :
    Sound levels .call (operand dialect type expression) := by
  intro s t value hs h
  obtain ⟨callee, u, hcallee, h⟩ := bind_eq_ok.mp h
  obtain ⟨⟨d, rfl, hdepth, hreads, hgreedy⟩, -⟩ := sound_primary htype hexpression hs hcallee
  obtain ⟨d', rfl, hdepth', hreads', hgreedy', hstop⟩ :=
    spelled_calls hexpression (hreads.wellFormed hs) h
  rw [hreads'.terminals_eq] at hgreedy
  exact ⟨⟨.call d d', rfl, Nat.max_le.mpr ⟨hdepth, hdepth'⟩, hreads.trans hreads', hgreedy,
    hgreedy'⟩, by simpa [Nonterminal.endsBefore] using hstop⟩

variable {operand sum : Parser Term}

/-- An addition stops before no opening parenthesis because each of its operands does. -/
theorem spelled_sum (hoperand : Sound levels .call operand) {left : Term} (hs : s.WellFormed)
    (hends : Nonterminal.call.endsBefore (nextKind s.terminals))
    (h : whileAt .plus (plus operand) left s = .ok value t) :
    ∃ d : Derivation .addTail, d.value left = value ∧ d.depth ≤ levels ∧
      s.Reads d.terminals t ∧ d.Greedy t.terminals ∧
      Nonterminal.add.endsBefore (nextKind t.terminals) := by
  refine repeatAt_induction (motive := fun s left ↦
    Nonterminal.call.endsBefore (nextKind s.terminals) → ∃ d : Derivation .addTail,
      d.value left = value ∧ d.depth ≤ levels ∧ s.Reads d.terminals t ∧ d.Greedy t.terminals ∧
      Nonterminal.add.endsBefore (nextKind t.terminals))
    (by simp) ?_ ?_ hs (Nat.le_refl _) h hends
  · intro s u left middle hs hkind h
    obtain ⟨_, _, hadvance, h⟩ := bind_eq_ok.mp h
    obtain rfl := advance_eq_ok.mp hadvance
    obtain ⟨right, v, hright, h⟩ := bind_eq_ok.mp h
    obtain ⟨rfl, rfl⟩ := pure_eq_ok.mp h
    have hplus := reads_mark hs hkind rfl
    obtain ⟨⟨d, rfl, hdepth, hreads, hgreedy⟩, hends⟩ := hoperand (hplus.wellFormed hs) hright
    have hread := hplus.trans hreads
    have hlength := hread.length_eq
    simp only [List.length_append, List.length_singleton] at hlength
    refine ⟨hread.wellFormed hs, by omega, fun htail _ ↦ ?_⟩
    obtain ⟨d', rfl, hdepth', hreads', hgreedy', hstop⟩ := htail hends
    rw [hreads'.terminals_eq] at hgreedy
    exact ⟨.plus d d', rfl, Nat.max_le.mpr ⟨hdepth, hdepth'⟩, hread.trans hreads',
      ⟨hgreedy, hgreedy'⟩, hstop⟩
  · intro hstop hends
    refine ⟨.endAdd, rfl, Nat.zero_le _, .refl t, trivial, ?_⟩
    simp only [Nonterminal.endsBefore, Bool.and_eq_true, bne_iff_ne] at hends ⊢
    exact ⟨hends, hstop⟩

theorem sound_addition (hoperand : Sound levels .call operand) :
    Sound levels .add (addition operand) := by
  intro s t value hs h
  obtain ⟨left, u, hleft, h⟩ := bind_eq_ok.mp h
  obtain ⟨⟨d, rfl, hdepth, hreads, hgreedy⟩, hends⟩ := hoperand hs hleft
  obtain ⟨d', rfl, hdepth', hreads', hgreedy', hstop⟩ :=
    spelled_sum hoperand (hreads.wellFormed hs) hends h
  rw [hreads'.terminals_eq] at hgreedy
  exact ⟨⟨.add d d', rfl, Nat.max_le.mpr ⟨hdepth, hdepth'⟩, hreads.trans hreads', hgreedy,
    hgreedy'⟩, hstop⟩

theorem sound_conditional (hsum : Sound levels .add sum)
    (hexpression : Sound levels .expr expression) :
    Sound (levels + 1) .expr (conditional sum expression) := by
  intro s t value hs h
  obtain ⟨cond, u, hcond, h⟩ := bind_eq_ok.mp h
  obtain ⟨⟨d, rfl, hdepth, hreads, hgreedy⟩, hends⟩ := hsum hs hcond
  have hu := hreads.wellFormed hs
  obtain ⟨found, _, hat, h⟩ := bind_eq_ok.mp h
  obtain ⟨rfl, rfl⟩ := isAt_eq_ok.mp hat
  split at h
  · rename_i hquestion
    obtain ⟨_, _, hadvance, h⟩ := bind_eq_ok.mp h
    obtain rfl := advance_eq_ok.mp hadvance
    obtain ⟨thenBranch, v, hthen, h⟩ := bind_eq_ok.mp h
    obtain ⟨_, w, hconsume, h⟩ := bind_eq_ok.mp h
    obtain ⟨elseBranch, x, helse, h⟩ := bind_eq_ok.mp h
    obtain ⟨rfl, rfl⟩ := pure_eq_ok.mp h
    have hmark := reads_mark hu (beq_iff_eq.mp hquestion) rfl
    obtain ⟨⟨d₁, rfl, hdepth₁, hreads₁, hgreedy₁⟩, -⟩ := hexpression (hmark.wellFormed hu) hthen
    have hread := hmark.trans hreads₁
    have hcolon := reads_consume (hread.wellFormed hu) rfl hconsume
    have hread' := hread.trans hcolon
    obtain ⟨⟨d₂, rfl, hdepth₂, hreads₂, hgreedy₂⟩, hstop⟩ :=
      hexpression (hread'.wellFormed hu) helse
    rw [hcolon.terminals_eq, hreads₂.terminals_eq] at hgreedy₁
    rw [hmark.terminals_eq, hreads₁.terminals_eq, hcolon.terminals_eq, hreads₂.terminals_eq]
      at hgreedy
    refine ⟨⟨.conditional d d₁ d₂, rfl, ?_, ?_, hgreedy, hgreedy₁, hgreedy₂⟩, hstop⟩
    · exact Nat.succ_le_succ (Nat.max_le.mpr ⟨hdepth, Nat.max_le.mpr ⟨hdepth₁, hdepth₂⟩⟩)
    · simpa using hreads.trans (hread'.trans hreads₂)
  · rename_i hquestion
    obtain ⟨rfl, rfl⟩ := pure_eq_ok.mp h
    refine ⟨⟨.plain d, rfl, Nat.succ_le_succ hdepth, hreads, hgreedy⟩, ?_⟩
    rw [State.current_kind hu.finish_kind] at hquestion
    exact Nonterminal.endsBefore_expr_of_add hends (by simpa using hquestion)

theorem sound_expression (levels : Nat) :
    Sound levels .expr (Parsing.expression dialect levels) := by
  induction levels with
  | zero => exact sound_tooDeep
  | succ levels ih =>
    exact (sound_conditional (sound_addition (sound_operand (sound_type levels) ih)) ih).nested

end Expressions

/-! ## Programs -/

section Programs

variable {dialect : Dialect} {expression : Parser Term}

theorem spelled_constItem (hexpression : Sound levels .expr expression) {item : Item}
    (hs : s.WellFormed) (hkind : s.current.kind = .const)
    (h : constItem expression s = .ok item t) :
    ∃ name, ∃ d : Derivation .expr, item = .const name d.value ∧ d.depth ≤ levels ∧
      s.Reads (mark .const :: ident name :: mark .equals :: (d.terminals ++ [mark .semicolon])) t ∧
      d.Greedy (mark .semicolon :: t.terminals) := by
  obtain ⟨_, _, hadvance, h⟩ := bind_eq_ok.mp h
  obtain rfl := advance_eq_ok.mp hadvance
  obtain ⟨name, u, hname, h⟩ := bind_eq_ok.mp h
  obtain ⟨_, v, hequals, h⟩ := bind_eq_ok.mp h
  obtain ⟨init, w, hinit, h⟩ := bind_eq_ok.mp h
  obtain ⟨_, x, hsemicolon, h⟩ := bind_eq_ok.mp h
  obtain ⟨rfl, rfl⟩ := pure_eq_ok.mp h
  have hkeyword := reads_mark hs hkind rfl
  have hident := hkeyword.trans (reads_identifier (hkeyword.wellFormed hs) hname)
  have hread := hident.trans (reads_consume (hident.wellFormed hs) rfl hequals)
  obtain ⟨⟨d, rfl, hdepth, hreads, hgreedy⟩, -⟩ := hexpression (hread.wellFormed hs) hinit
  have hread' := hread.trans hreads
  have hmark := reads_consume (hread'.wellFormed hs) rfl hsemicolon
  rw [hmark.terminals_eq] at hgreedy
  exact ⟨name, d, rfl, hdepth, by simpa using hread'.trans hmark, hgreedy⟩

theorem spelled_itemsAndResult (hexpression : Sound levels .expr expression) {rounds : Nat}
    {value : List Item × Term} (hs : s.WellFormed) (hrounds : s.ahead.length ≤ rounds)
    (h : itemsAndResult dialect expression rounds s = .ok value t) :
    Spelled levels .program s value t := by
  induction rounds generalizing s value with
  | zero =>
    obtain ⟨result, u, hresult, h⟩ := bind_eq_ok.mp h
    obtain ⟨rfl, rfl⟩ := pure_eq_ok.mp h
    obtain ⟨⟨d, rfl, hdepth, hreads, hgreedy⟩, -⟩ := hexpression hs hresult
    exact ⟨.final d false, rfl, hdepth, by simpa using hreads, by simpa using hgreedy⟩
  | succ rounds ih =>
    obtain ⟨found, _, hat, h⟩ := bind_eq_ok.mp h
    obtain ⟨rfl, rfl⟩ := isAt_eq_ok.mp hat
    split at h
    · rename_i hconst
      obtain ⟨_, _, hextended, h⟩ := bind_eq_ok.mp h
      obtain rfl := requireExtended_eq_ok hextended
      obtain ⟨item, u, hitem, h⟩ := bind_eq_ok.mp h
      obtain ⟨⟨items, result⟩, v, hrest, h⟩ := bind_eq_ok.mp h
      obtain ⟨rfl, rfl⟩ := pure_eq_ok.mp h
      obtain ⟨name, d, rfl, hdepth, hreads, hgreedy⟩ :=
        spelled_constItem hexpression hs (beq_iff_eq.mp hconst) hitem
      have hlength := hreads.length_eq
      simp only [List.length_cons] at hlength
      obtain ⟨d', hvalue, hdepth', hreads', hgreedy'⟩ :=
        ih (hreads.wellFormed hs) (by omega) hrest
      rw [hreads'.terminals_eq] at hgreedy
      refine ⟨.const name d d', ?_, Nat.max_le.mpr ⟨hdepth, hdepth'⟩, ?_, hgreedy, hgreedy'⟩
      · rw [Derivation.value, hvalue]
      · simpa using hreads.trans hreads'
    · obtain ⟨term, u, hterm, h⟩ := bind_eq_ok.mp h
      obtain ⟨⟨d, rfl, hdepth, hreads, hgreedy⟩, -⟩ := hexpression hs hterm
      have hu := hreads.wellFormed hs
      obtain ⟨found, _, hat, h⟩ := bind_eq_ok.mp h
      obtain ⟨rfl, rfl⟩ := isAt_eq_ok.mp hat
      split at h
      · rename_i hsemicolon
        obtain ⟨_, _, hadvance, h⟩ := bind_eq_ok.mp h
        obtain rfl := advance_eq_ok.mp hadvance
        have hmark := reads_mark hu (beq_iff_eq.mp hsemicolon) rfl
        have hread := hreads.trans hmark
        rw [hmark.terminals_eq] at hgreedy
        obtain ⟨ended, _, hat, h⟩ := bind_eq_ok.mp h
        obtain ⟨rfl, rfl⟩ := isAt_eq_ok.mp hat
        split at h
        · obtain ⟨rfl, rfl⟩ := pure_eq_ok.mp h
          exact ⟨.final d true, rfl, hdepth, hread, hgreedy⟩
        · obtain ⟨_, _, hextended, h⟩ := bind_eq_ok.mp h
          obtain rfl := requireExtended_eq_ok hextended
          obtain ⟨⟨items, result⟩, v, hrest, h⟩ := bind_eq_ok.mp h
          obtain ⟨rfl, rfl⟩ := pure_eq_ok.mp h
          have hlength := hread.length_eq
          simp only [List.length_append, List.length_singleton] at hlength
          obtain ⟨d', hvalue, hdepth', hreads', hgreedy'⟩ :=
            ih (hread.wellFormed hs) (by omega) hrest
          rw [hreads'.terminals_eq] at hgreedy
          refine ⟨.statement d d', ?_, Nat.max_le.mpr ⟨hdepth, hdepth'⟩, ?_, hgreedy, hgreedy'⟩
          · rw [Derivation.value, hvalue]
          · simpa using hread.trans hreads'
      · obtain ⟨rfl, rfl⟩ := pure_eq_ok.mp h
        exact ⟨.final d false, rfl, hdepth, by simpa using hreads, by simpa using hgreedy⟩

/-- An accepted program has a derivation within the nesting limit. -/
theorem derives_program {term : Term} (hs : s.WellFormed) (h : program dialect s = .ok term t) :
    ∃ d : Derivation .program, d.Derives s.terminals ∧ d.depth ≤ nestingLimit - s.depth ∧
      d.term = term := by
  obtain ⟨⟨items, result⟩, u, hitems, h⟩ := bind_eq_ok.mp h
  obtain ⟨d, hvalue, hdepth, hreads, hgreedy⟩ :=
    spelled_itemsAndResult (sound_expression _) hs (Nat.le_refl _) hitems
  have hu := hreads.wellFormed hs
  obtain ⟨ended, _, hat, h⟩ := bind_eq_ok.mp h
  obtain ⟨rfl, rfl⟩ := isAt_eq_ok.mp hat
  split at h
  · rename_i hend
    obtain ⟨rfl, rfl⟩ := pure_eq_ok.mp h
    have hempty : u.terminals = [] := terminals_eq_nil hu (beq_iff_eq.mp hend)
    rw [hempty] at hgreedy
    have hsentence : s.terminals = d.terminals := by
      rw [hreads.terminals_eq, hempty, List.append_nil]
    refine ⟨d, ⟨hsentence.symm, hgreedy⟩, hdepth, ?_⟩
    rw [Derivation.term, hvalue]
  · exact absurd h unexpected_ne_ok

end Programs

end ArrowLang.Parsing

import ArrowLang.Proofs.Parsing.Indexed

/-!
# Runs on indices

A run on indices never leaves the tokens, never counts below zero and never comes to its limit,
since it goes the same way as the run on the tokens ahead.  The cursor is advanced only before a
token that is not the end token, which every caller has checked.  Each round of a loop reads a
token, so that there are no more rounds than tokens, and each nested call opens a level, so that
there are no more calls than levels.  The dialect of the state is the one that the other run is
given, and after arithmetic it is again what it was.  On the way it turns out that two of the faults
never arise.
-/

namespace ArrowLang

/-- The faults that come up.  The lexer makes no numeral that does not denote a decimal, and an
opening parenthesis has been seen before parameters are read. -/
def ParseFault.Arises : ParseFault → Prop
  | invalidNumber _ => False
  | expected what => what ≠ .paramsOpen
  | _ => True

namespace Indexed

variable {α β : Type} {s t : State}

theorem bind_of_ok {first : Parser α} {next : α → Parser β} {value : α}
    (h : first s = some (.ok value, t)) : (first >>= next) s = next value t := by
  change (first s >>= fun result ↦ ExceptT.bindCont next result.1 result.2) = _
  rw [h]
  rfl

theorem bind_of_error {first : Parser α} {next : α → Parser β} {error : ParseError}
    (h : first s = some (.error error, t)) : (first >>= next) s = some (.error error, t) := by
  change (first s >>= fun result ↦ ExceptT.bindCont next result.1 result.2) = _
  rw [h]
  rfl

end Indexed

namespace Parsing

open State

variable {α β : Type} {s t : State} {dialect : Dialect}

/-- The state in a dialect with the cursor as an index. -/
def State.indexed (dialect : Dialect) (s : State) : Indexed.State :=
  ⟨s.tokens, s.cursor, s.depth, dialect⟩

/-- The run on indices comes to the same result, from a fault that arises if it fails, and to a
state with the property if it does not. -/
inductive Matches (dialect : Dialect) (post : State → Prop) :
    Option (Except ParseError α × Indexed.State) → EStateM.Result ParseError State α → Prop
  | ok {value : α} {t : State} : post t →
      Matches dialect post (some (.ok value, t.indexed dialect)) (.ok value t)
  | error {error : ParseError} {t : State} : error.fault.Arises →
      Matches dialect post (some (.error error, t.indexed dialect)) (.error error t)

namespace Matches

variable {post mid : State → Prop} {result : EStateM.Result ParseError State α}
  {run : Option (Except ParseError α × Indexed.State)}

theorem mono (h : Matches dialect mid run result) (himp : ∀ t, mid t → post t) :
    Matches dialect post run result := by
  cases h with
  | ok hmid => exact .ok (himp _ hmid)
  | error hfault => exact .error hfault

theorem bind {first : Indexed.Parser α} {next : α → Indexed.Parser β} {first' : Parser α}
    {next' : α → Parser β} (hfirst : Matches dialect mid (first (s.indexed dialect)) (first' s))
    (hnext : ∀ value t, mid t →
      Matches dialect post (next value (t.indexed dialect)) (next' value t)) :
    Matches dialect post ((first >>= next) (s.indexed dialect)) ((first' >>= next') s) := by
  change Matches dialect post _ (EStateM.bind first' next' s)
  unfold EStateM.bind
  generalize hrun : first (s.indexed dialect) = run at hfirst
  generalize first' s = result at hfirst
  cases hfirst with
  | ok hmid =>
    rw [Indexed.bind_of_ok hrun]
    exact hnext _ _ hmid
  | error hfault =>
    rw [Indexed.bind_of_error hrun]
    exact .error hfault

theorem run_eq (h : Matches dialect post run result) :
    run = some (outcome result, (finalState result).indexed dialect) := by
  cases h <;> rfl

theorem arises (h : Matches dialect post run result) {error : ParseError}
    (herror : outcome result = .error error) : error.fault.Arises := by
  cases h with
  | ok => cases herror
  | error hfault =>
    cases herror
    exact hfault

end Matches

theorem current?_indexed (s : State) : (s.indexed dialect).current? = some s.current :=
  getElem?_tokens_cursor s

theorem current_indexed (s : State) :
    Indexed.current (s.indexed dialect) = some (.ok s.current, s.indexed dialect) := by
  rw [Indexed.current, current?_indexed]
  rfl

theorem isAt_indexed (kind : TokenKind) (s : State) :
    Indexed.isAt kind (s.indexed dialect) =
      some (.ok (s.current.kind == kind), s.indexed dialect) :=
  Indexed.bind_of_ok (current_indexed s)

theorem fail_indexed (fault : ParseFault) (s : State) :
    (Indexed.fail fault : Indexed.Parser α) (s.indexed dialect) =
      some (.error ⟨fault, s.current.position⟩, s.indexed dialect) :=
  Indexed.bind_of_ok (current_indexed s)

/-- A refusal leaves the state as it is. -/
theorem Matches.gate {post : State → Prop} {construct : Construct}
    {next : Unit → Indexed.Parser α} {next' : Unit → Parser α}
    (h : Matches dialect post (next () (s.indexed dialect)) (next' () s)) :
    Matches dialect post ((Indexed.requireExtended construct >>= next) (s.indexed dialect))
      ((requireExtended dialect construct >>= next') s) := by
  cases dialect with
  | basic => exact h
  | arith =>
    have hrefused : Indexed.requireExtended construct (s.indexed .arith) =
        some (.error ⟨.notArithmetic construct, s.current.position⟩, s.indexed .arith) :=
      fail_indexed _ s
    rw [Indexed.bind_of_error hrefused]
    exact .error trivial

/-- A choice by the current token. -/
theorem Matches.branch {post : State → Prop} {kind : TokenKind} {parser other : Indexed.Parser α}
    {parser' other' : Parser α}
    (hparser : s.current.kind = kind →
      Matches dialect post (parser (s.indexed dialect)) (parser' s))
    (hother : s.current.kind ≠ kind →
      Matches dialect post (other (s.indexed dialect)) (other' s)) :
    Matches dialect post ((do if ← Indexed.isAt kind then parser else other) (s.indexed dialect))
      ((do if ← isAt kind then parser' else other') s) := by
  rw [Indexed.bind_of_ok (isAt_indexed kind s), isAt_bind]
  by_cases hkind : s.current.kind = kind
  · rw [if_pos (beq_iff_eq.mpr hkind), if_pos (beq_iff_eq.mpr hkind)]
    exact hparser hkind
  · rw [if_neg (mt beq_iff_eq.mp hkind), if_neg (mt beq_iff_eq.mp hkind)]
    exact hother hkind

/-- Before the end, the cursor stands on the first of the tokens ahead. -/
theorem State.ahead_eq_cons (hs : s.WellFormed) (hcurrent : s.current.kind ≠ .endOfInput) :
    ∃ ahead, s.ahead = s.current :: ahead := by
  cases hahead : s.ahead with
  | nil =>
    rw [State.current, hahead] at hcurrent
    exact absurd hs.finish_kind hcurrent
  | cons token ahead => exact ⟨ahead, by simp [State.current, hahead]⟩

/-- The cursor moves on, and the token that it looks back at is the one just read. -/
theorem advance_indexed (hs : s.WellFormed) (hcurrent : s.current.kind ≠ .endOfInput) :
    Indexed.advance (s.indexed dialect) = some (.ok (), s.advance.indexed dialect) := by
  obtain ⟨ahead, hahead⟩ := ahead_eq_cons hs hcurrent
  have hnext : s.advance.indexed dialect = { s.indexed dialect with cursor := s.cursor + 1 } := by
    simp [State.advance, indexed, tokens, cursor, hahead]
  have hprevious :
      Indexed.State.previous? { s.indexed dialect with cursor := s.cursor + 1 } = some s.current :=
    getElem?_tokens_cursor s
  rw [Indexed.advance, current?_indexed, Option.bind_eq_bind, Option.bind_some, if_neg hcurrent,
    hnext]
  change (Indexed.State.previous? { s.indexed dialect with cursor := s.cursor + 1 } >>= _) = _
  rw [hprevious]
  rfl

/-- There is nothing to look back at where the end token is the only one. -/
example :
    Indexed.advance (State.indexed .basic ⟨[], [], ⟨.endOfInput, "", .start⟩, 0⟩) = none := rfl

/-! ## Parsers -/

/-- The state stands at the depth, with at most so many tokens ahead, which is below the limit. -/
structure Ready (limit depth rounds : Nat) (s : State) : Prop where
  wellFormed : s.WellFormed
  depth_eq : s.depth = depth
  length_le : s.ahead.length ≤ rounds
  rounds_lt : rounds < limit

namespace Ready

variable {limit depth rounds : Nat}

theorem mono {rounds' : Nat} (hs : Ready limit depth rounds s) (hle : rounds ≤ rounds')
    (hlt : rounds' < limit) : Ready limit depth rounds' s :=
  ⟨hs.wellFormed, hs.depth_eq, Nat.le_trans hs.length_le hle, hlt⟩

/-- The bound may be taken to be what is ahead. -/
theorem exact (hs : Ready limit depth rounds s) : Ready limit depth s.ahead.length s :=
  ⟨hs.wellFormed, hs.depth_eq, Nat.le_refl _, Nat.lt_of_le_of_lt hs.length_le hs.rounds_lt⟩

theorem advance (hs : Ready limit depth rounds s) (hcurrent : s.current.kind ≠ .endOfInput) :
    Ready limit depth (rounds - 1) s.advance := by
  have hreads := Reads.advance hs.wellFormed hcurrent
  have hlength := hreads.length_eq
  have hle := hs.length_le
  have hlt := hs.rounds_lt
  refine ⟨hreads.wellFormed hs.wellFormed, (depth_advance s).trans hs.depth_eq, ?_, by omega⟩
  simp only [List.length_singleton] at hlength
  omega

/-- With nothing ahead, the current token is the end token. -/
theorem current_kind (hs : Ready limit depth 0 s) : s.current.kind = .endOfInput := by
  have hahead : s.ahead = [] := List.eq_nil_of_length_eq_zero (Nat.le_zero.mp hs.length_le)
  rw [State.current, hahead]
  exact hs.wellFormed.finish_kind

end Ready

/-- From every state at the depth, the parser on indices does what the other one does. -/
def Mirrors (dialect : Dialect) (limit depth : Nat) (parser : Indexed.Parser α)
    (parser' : Parser α) : Prop :=
  ∀ ⦃rounds : Nat⦄ ⦃s : State⦄, Ready limit depth rounds s →
    Matches dialect (Ready limit depth rounds) (parser (s.indexed dialect)) (parser' s)

/-- The same before a token of the kind, where a run that succeeds reads at least that token. -/
def MirrorsAt (kind : TokenKind) (dialect : Dialect) (limit depth : Nat) (parser : Indexed.Parser α)
    (parser' : Parser α) : Prop :=
  ∀ ⦃rounds : Nat⦄ ⦃s : State⦄, Ready limit depth rounds s → s.current.kind = kind →
    Matches dialect (Ready limit depth (rounds - 1)) (parser (s.indexed dialect)) (parser' s)

section Rules

variable {limit depth : Nat} {kind : TokenKind} {parser other : Indexed.Parser α}
  {parser' other' : Parser α} {first : Indexed.Parser α} {first' : Parser α}

theorem Mirrors.pure (value : α) : Mirrors dialect limit depth (pure value) (pure value) :=
  fun _ _ hs ↦ .ok hs

theorem Mirrors.bind {next : α → Indexed.Parser β} {next' : α → Parser β}
    (hfirst : Mirrors dialect limit depth first first')
    (hnext : ∀ value, Mirrors dialect limit depth (next value) (next' value)) :
    Mirrors dialect limit depth (first >>= next) (first' >>= next') :=
  fun _ _ hs ↦ (hfirst hs).bind fun value _ ht ↦ hnext value ht

theorem MirrorsAt.bind {next : α → Indexed.Parser β} {next' : α → Parser β}
    (hfirst : MirrorsAt kind dialect limit depth first first')
    (hnext : ∀ value, Mirrors dialect limit depth (next value) (next' value)) :
    MirrorsAt kind dialect limit depth (first >>= next) (first' >>= next') :=
  fun _ _ hs hkind ↦ (hfirst hs hkind).bind fun value _ ht ↦ hnext value ht

/-- The token that is read need not be counted. -/
theorem MirrorsAt.matches (h : MirrorsAt kind dialect limit depth parser parser') {rounds : Nat}
    (hs : Ready limit depth rounds s) (hkind : s.current.kind = kind) :
    Matches dialect (Ready limit depth rounds) (parser (s.indexed dialect)) (parser' s) :=
  (h hs hkind).mono fun _ ht ↦ ht.mono (Nat.sub_le _ _) hs.rounds_lt

theorem MirrorsAt.advance (hkind : kind ≠ .endOfInput) :
    MirrorsAt kind dialect limit depth Indexed.advance advance := by
  intro rounds s hs hcurrent
  have hne : s.current.kind ≠ .endOfInput := by rwa [hcurrent]
  rw [advance_indexed hs.wellFormed hne]
  exact .ok (hs.advance hne)

theorem MirrorsAt.read (kind : TokenKind) (value : α) (hkind : kind ≠ .endOfInput) :
    MirrorsAt kind dialect limit depth (do Indexed.advance; return value)
      (do Parsing.advance; return value) :=
  .bind (.advance hkind) fun _ ↦ .pure value

theorem Mirrors.fail {fault : ParseFault} (hfault : fault.Arises) :
    Mirrors dialect limit depth (Indexed.fail fault : Indexed.Parser α) (fail fault) := by
  intro rounds s hs
  rw [fail_indexed]
  exact .error hfault

theorem Mirrors.unexpected :
    Mirrors dialect limit depth (Indexed.unexpected : Indexed.Parser α) unexpected := by
  intro rounds s hs
  rw [Indexed.unexpected, Indexed.bind_of_ok (current_indexed s), Parsing.unexpected, current_bind]
  cases s.current.kind
  all_goals
    refine Mirrors.fail ?_ hs
    exact trivial

theorem Mirrors.branch (hparser : MirrorsAt kind dialect limit depth parser parser')
    (hother : Mirrors dialect limit depth other other') :
    Mirrors dialect limit depth (do if ← Indexed.isAt kind then parser else other)
      (do if ← isAt kind then parser' else other') :=
  fun _ _ hs ↦ .branch (hparser.matches hs) fun _ ↦ hother hs

/-- The token has been seen before. -/
theorem MirrorsAt.branch (hparser : MirrorsAt kind dialect limit depth parser parser') :
    MirrorsAt kind dialect limit depth (do if ← Indexed.isAt kind then parser else other)
      (do if ← isAt kind then parser' else other') :=
  fun _ _ hs hkind ↦ .branch (hparser hs) fun hne ↦ absurd hkind hne

theorem Mirrors.consume {what : Expectation} (hkind : kind ≠ .endOfInput)
    (hwhat : what ≠ .paramsOpen) :
    Mirrors dialect limit depth (Indexed.consume kind what) (consume kind what) :=
  .branch (.advance hkind) (.fail hwhat)

theorem Mirrors.identifier {what : Expectation} (hwhat : what ≠ .paramsOpen) :
    Mirrors dialect limit depth (Indexed.identifier what) (identifier what) := by
  intro rounds s hs
  rw [Indexed.identifier, Indexed.bind_of_ok (current_indexed s), Parsing.identifier, current_bind]
  have hconsume :
      Mirrors dialect limit depth (Indexed.consume .ident what) (Parsing.consume .ident what) :=
    .consume nofun hwhat
  exact hconsume.bind (fun _ ↦ .pure s.current.lexeme) hs

theorem MirrorsAt.gate {construct : Construct} {next : Unit → Indexed.Parser α}
    {next' : Unit → Parser α} (h : MirrorsAt kind dialect limit depth (next ()) (next' ())) :
    MirrorsAt kind dialect limit depth (Indexed.requireExtended construct >>= next)
      (requireExtended dialect construct >>= next') :=
  fun _ _ hs hkind ↦ .gate (h hs hkind)

theorem openLevel_indexed (dialect : Dialect) (hdepth : s.depth < nestingLimit) :
    Indexed.openLevel (s.indexed dialect) =
      some (.ok (), ({ s with depth := s.depth + 1 } : State).indexed dialect) :=
  if_neg (Nat.not_lt.mpr hdepth)

theorem closeLevel_indexed (result : Except ParseError α) (hdepth : 0 < s.depth) :
    Indexed.closeLevel (result, s.indexed dialect) =
      some (result, ({ s with depth := s.depth - 1 } : State).indexed dialect) := by
  obtain ⟨depth, hdepth⟩ := Nat.exists_eq_succ_of_ne_zero (Nat.ne_of_gt hdepth)
  simp [Indexed.closeLevel, indexed, hdepth, tokens, cursor]

/-- A level that was opened is there to be closed, whether the run failed or not. -/
theorem Mirrors.nested (hsteady : Steady parser')
    (h : Mirrors dialect limit (depth + 1) parser parser') (hdepth : depth < nestingLimit) :
    Mirrors dialect limit depth (Indexed.nested parser) (nested parser') := by
  intro rounds s hs
  have hopen := openLevel_indexed (s := s) dialect (hs.depth_eq ▸ hdepth)
  have hready : Ready limit (depth + 1) rounds { s with depth := s.depth + 1 } :=
    ⟨hs.wellFormed.atDepth _, congrArg Nat.succ hs.depth_eq, hs.length_le, hs.rounds_lt⟩
  have hrun := h hready
  have hfollows := hsteady { s with depth := s.depth + 1 }
  rw [Indexed.nested, Indexed.bind_of_ok hopen]
  unfold Parsing.nested
  generalize parser (({ s with depth := s.depth + 1 } : State).indexed dialect) = run at hrun ⊢
  generalize parser' { s with depth := s.depth + 1 } = result at hrun hfollows ⊢
  cases hrun with
  | @ok value t ht =>
    rw [Option.bind_eq_bind, Option.bind_some, closeLevel_indexed _ (by rw [ht.depth_eq]; omega)]
    exact .ok ⟨ht.wellFormed.atDepth _, by simp [ht.depth_eq], ht.length_le, ht.rounds_lt⟩
  | @error error t hfault =>
    cases hfollows with
    | error hleads hposition hafter =>
      have hpos : 0 < t.depth := by
        rw [hafter]
        split <;> exact Nat.succ_pos _
      rw [Option.bind_eq_bind, Option.bind_some, closeLevel_indexed _ hpos]
      exact .error hfault

theorem Mirrors.tooDeep (hdepth : nestingLimit ≤ depth) :
    Mirrors dialect limit depth (Indexed.nested parser) tooDeep := by
  intro rounds s hs
  have hopen : Indexed.openLevel (s.indexed dialect) =
      Indexed.fail .nestingTooDeep (({ s with depth := s.depth + 1 } : State).indexed dialect) := by
    refine if_pos (Nat.lt_succ_of_le ?_)
    rwa [← hs.depth_eq] at hdepth
  rw [fail_indexed] at hopen
  rw [Indexed.nested, Indexed.bind_of_error hopen]
  exact .error trivial

end Rules

section Repetition

variable {limit depth : Nat} {kind : TokenKind}

/-- It is enough to compare with what a parser does for every sufficient number of rounds. -/
theorem Mirrors.of_rounds {parser : Indexed.Parser α} {parser' : Nat → Parser α}
    (h : ∀ ⦃rounds s⦄, Ready limit depth rounds s →
      Matches dialect (Ready limit depth rounds) (parser (s.indexed dialect)) (parser' rounds s)) :
    Mirrors dialect limit depth parser fun s ↦ parser' s.ahead.length s := by
  intro rounds s hs
  exact (h hs.exact).mono fun t ht ↦ ht.mono hs.length_le hs.rounds_lt

/-- A loop ends if every round reads a token. -/
theorem matches_repeatAt {step : α → Indexed.Parser α} {step' : α → Parser α}
    (hkind : kind ≠ .endOfInput)
    (hstep : ∀ value, MirrorsAt kind dialect limit depth (step value) (step' value))
    {rounds fuel : Nat} (hfuel : rounds < fuel) (value : α) (hs : Ready limit depth rounds s) :
    Matches dialect (Ready limit depth rounds)
      (Indexed.whileAt kind step fuel value (s.indexed dialect))
      (repeatAt kind step' rounds value s) := by
  induction fuel generalizing rounds value s with
  | zero => exact absurd hfuel (Nat.not_lt_zero _)
  | succ fuel ih =>
    cases rounds with
    | zero =>
      -- Nothing is ahead, so that the loop is not entered.
      rw [Indexed.whileAt, Indexed.bind_of_ok (isAt_indexed kind s), hs.current_kind]
      rw [if_neg (mt beq_iff_eq.mp hkind.symm)]
      exact .ok hs
    | succ rounds =>
      rw [Indexed.whileAt, repeatAt]
      refine .branch (fun hcurrent ↦ ?_) fun _ ↦ .ok hs
      refine (hstep value hs hcurrent).bind fun value t ht ↦ ?_
      refine (ih (Nat.lt_of_succ_lt_succ hfuel) value ht).mono fun u hu ↦ ?_
      exact hu.mono (Nat.le_succ rounds) hs.rounds_lt

theorem mirrors_whileAt {step : α → Indexed.Parser α} {step' : α → Parser α}
    (hkind : kind ≠ .endOfInput)
    (hstep : ∀ value, MirrorsAt kind dialect limit depth (step value) (step' value)) (value : α) :
    Mirrors dialect limit depth (Indexed.whileAt kind step limit value)
      (whileAt kind step' value) :=
  .of_rounds fun _ _ hs ↦ matches_repeatAt hkind hstep hs.rounds_lt value hs

/-- A series ends since there are only so many commas, even if items were empty. -/
theorem matches_itemsWithin {item : Indexed.Parser α} {item' : Parser α}
    (hitem : Mirrors dialect limit depth item item') {rounds fuel : Nat} (hfuel : rounds < fuel)
    (hs : Ready limit depth rounds s) :
    Matches dialect (Ready limit depth rounds) (Indexed.series item fuel (s.indexed dialect))
      (itemsWithin item' rounds s) := by
  induction fuel generalizing rounds s with
  | zero => exact absurd hfuel (Nat.not_lt_zero _)
  | succ fuel ih =>
    cases rounds with
    | zero =>
      rw [Indexed.series, itemsWithin]
      refine (hitem hs).bind fun head t ht ↦ ?_
      rw [Indexed.bind_of_ok (isAt_indexed .comma t), ht.current_kind]
      exact .ok ht
    | succ rounds =>
      rw [Indexed.series, itemsWithin]
      have hcomma : MirrorsAt .comma dialect limit depth Indexed.advance advance := .advance nofun
      refine (hitem hs).bind fun head t ht ↦ .branch (fun hcurrent ↦ ?_) fun _ ↦ .ok ht
      refine (hcomma ht hcurrent).bind fun _ u hu ↦ ?_
      refine (ih (Nat.lt_of_succ_lt_succ hfuel) hu).bind fun tail v hv ↦ ?_
      exact .ok (hv.mono (Nat.le_succ rounds) hs.rounds_lt)

theorem mirrors_itemsToClose {item : Indexed.Parser α} {item' : Parser α} {what : Expectation}
    (hwhat : what ≠ .paramsOpen) (hitem : Mirrors dialect limit depth item item') :
    Mirrors dialect limit depth (Indexed.itemsToClose limit item what)
      (itemsToClose item' what) := by
  have hitems : Mirrors dialect limit depth (Indexed.series item limit) fun s ↦
      itemsWithin item' s.ahead.length s :=
    .of_rounds fun _ _ hs ↦ matches_itemsWithin hitem hs.rounds_lt hs
  refine .branch (.bind (.advance nofun) fun _ ↦ .pure _) ?_
  exact .bind hitems fun _ ↦ .bind (.consume nofun hwhat) fun _ ↦ .pure _

end Repetition

section Types

variable {limit depth : Nat} {ty : Indexed.Parser Ty} {ty' : Parser Ty}

theorem mirrors_typeName : Mirrors dialect limit depth Indexed.typeName typeName := by
  intro rounds s hs
  rw [Indexed.typeName, Indexed.bind_of_ok (current_indexed s), typeName, current_bind]
  by_cases hkind : s.current.kind = .ident
  · rw [if_pos hkind, if_pos hkind]
    split
    · exact (MirrorsAt.read .ident Ty.number nofun).matches hs hkind
    · split
      · exact (MirrorsAt.read .ident Ty.boolean nofun).matches hs hkind
      · have hfault : (ParseFault.unknownType s.current.lexeme).Arises := trivial
        exact Mirrors.fail hfault hs
  · have hfault : (ParseFault.expected .typeName).Arises := nofun
    rw [if_neg hkind, if_neg hkind]
    exact Mirrors.fail hfault hs

theorem mirrors_param (hty : Mirrors dialect limit depth ty ty') :
    Mirrors dialect limit depth (Indexed.param ty) (param ty') :=
  .bind (.identifier nofun) fun _ ↦ .bind (.consume nofun nofun) fun _ ↦ .bind hty fun _ ↦
    .pure _

/-- The opening parenthesis has been seen. -/
theorem mirrorsAt_params (hty : Mirrors dialect limit depth ty ty') :
    MirrorsAt .leftParen dialect limit depth (Indexed.params limit ty) (params ty') :=
  .bind (.branch (.advance nofun)) fun _ ↦ mirrors_itemsToClose nofun (mirrors_param hty)

theorem mirrors_typeForm (hty : Mirrors dialect limit depth ty ty') :
    Mirrors dialect limit depth (Indexed.typeForm limit ty) (typeForm ty') := by
  refine .branch ?_ mirrors_typeName
  exact .bind (mirrorsAt_params hty) fun _ ↦ .bind (.consume nofun nofun) fun _ ↦
    .bind hty fun _ ↦ .pure _

/-- The depth goes up from call to call, and the nesting limit stops it. -/
theorem mirrors_type {levels calls : Nat} (hlevels : nestingLimit - depth = levels)
    (hcalls : levels < calls) :
    Mirrors dialect limit depth (Indexed.type limit calls) (type levels) := by
  induction calls generalizing depth levels with
  | zero => exact absurd hcalls (Nat.not_lt_zero _)
  | succ calls ih =>
    cases levels with
    | zero => exact .tooDeep (Nat.le_of_sub_eq_zero hlevels)
    | succ levels =>
      have hinner : nestingLimit - (depth + 1) = levels := by omega
      have hform := mirrors_typeForm (ih hinner (Nat.lt_of_succ_lt_succ hcalls))
      exact .nested (Steady.compositional.typeForm (.type levels)) hform (by omega)

end Types

section Expressions

variable {limit depth : Nat} {ty : Indexed.Parser Ty} {ty' : Parser Ty}
  {expr summand sum : Indexed.Parser Term} {expr' summand' sum' : Parser Term}

/-- A numeral denotes a decimal. -/
theorem mirrorsAt_numeral : MirrorsAt .number dialect limit depth Indexed.numeral numeral := by
  intro rounds s hs hkind
  have hmem : Terminal.number s.current.lexeme ∈ s.terminals := by
    rw [terminals_eq_cons hs.wellFormed (by simp [hkind]), Token.terminal_eq_number hkind]
    exact List.mem_cons_self
  obtain ⟨decimal, hdecimal⟩ := Option.isSome_iff_exists.mp (hs.wellFormed.numerals _ hmem)
  rw [Indexed.numeral, Indexed.bind_of_ok (current_indexed s), numeral, current_bind, hdecimal]
  exact MirrorsAt.read .number (Term.number decimal.toBinary64) nofun hs hkind

/-- Looking past the end token sees nothing that starts a function. -/
theorem startsFunction_indexed (hs : s.WellFormed) :
    Indexed.startsFunction (s.indexed dialect) =
      some (.ok (startsFunction s.ahead), s.indexed dialect) := by
  have hkind (offset : Nat) :
      (s.indexed dialect).kindAhead offset = (s.ahead ++ [s.finish])[offset]?.map Token.kind := by
    simp [Indexed.State.kindAhead, indexed, tokens, cursor, List.getElem?_append_right]
  unfold Indexed.startsFunction startsFunction
  rw [hkind, hkind]
  rcases s.ahead with _ | ⟨first, _ | ⟨second, _ | ⟨third, others⟩⟩⟩
  · simp
  · simp [hs.finish_kind]
  · simp [hs.finish_kind]
  · simp

theorem mirrorsAt_function (hty : Mirrors dialect limit depth ty ty')
    (hexpr : Mirrors dialect limit depth expr expr') :
    MirrorsAt .leftParen dialect limit depth (Indexed.function limit ty expr)
      (function dialect ty' expr') :=
  .gate (.bind (mirrorsAt_params hty) fun _ ↦ .bind (.consume nofun nofun) fun _ ↦
    .bind hexpr fun _ ↦ .pure _)

theorem mirrorsAt_group (hexpr : Mirrors dialect limit depth expr expr') :
    MirrorsAt .leftParen dialect limit depth (Indexed.group expr) (group expr') :=
  .bind (.advance nofun) fun _ ↦ .bind hexpr fun _ ↦ .bind (.consume nofun nofun) fun _ ↦
    .pure _

theorem mirrors_primary (hty : Mirrors dialect limit depth ty ty')
    (hexpr : Mirrors dialect limit depth expr expr') :
    Mirrors dialect limit depth (Indexed.primary limit ty expr) (primary dialect ty' expr') := by
  intro rounds s hs
  rw [Indexed.primary, Indexed.bind_of_ok (current_indexed s), primary, current_bind]
  cases hkind : s.current.kind with
  | number => exact mirrorsAt_numeral.matches hs hkind
  | boolean value =>
    exact (MirrorsAt.read (.boolean value) (Term.boolean value) (by simp)).matches hs hkind
  | ident =>
    have hread : MirrorsAt .ident dialect limit depth _ _ :=
      .read .ident (Term.var s.current.lexeme) (by simp)
    exact hread.gate.matches hs hkind
  | leftParen =>
    dsimp only
    rw [Indexed.bind_of_ok (startsFunction_indexed hs.wellFormed)]
    split
    · exact (mirrorsAt_function hty hexpr).matches hs hkind
    · exact (mirrorsAt_group hexpr).matches hs hkind
  | _ => exact Mirrors.unexpected hs

theorem mirrorsAt_arguments (hexpr : Mirrors dialect limit depth expr expr') (callee : Term) :
    MirrorsAt .leftParen dialect limit depth (Indexed.arguments limit expr callee)
      (arguments dialect expr' callee) :=
  .gate (.bind (.advance nofun) fun _ ↦ .bind (mirrors_itemsToClose nofun hexpr) fun _ ↦ .pure _)

theorem mirrors_operand (hty : Mirrors dialect limit depth ty ty')
    (hexpr : Mirrors dialect limit depth expr expr') :
    Mirrors dialect limit depth (Indexed.operand limit ty expr) (operand dialect ty' expr') :=
  .bind (mirrors_primary hty hexpr) (mirrors_whileAt nofun (mirrorsAt_arguments hexpr))

theorem mirrorsAt_plus (hsummand : Mirrors dialect limit depth summand summand') (left : Term) :
    MirrorsAt .plus dialect limit depth (Indexed.plus summand left) (plus summand' left) :=
  .bind (.advance nofun) fun _ ↦ .bind hsummand fun _ ↦ .pure _

theorem mirrors_addition (hsummand : Mirrors dialect limit depth summand summand') :
    Mirrors dialect limit depth (Indexed.addition limit summand) (addition summand') :=
  .bind hsummand (mirrors_whileAt nofun (mirrorsAt_plus hsummand))

theorem mirrors_conditional (hsum : Mirrors dialect limit depth sum sum')
    (hexpr : Mirrors dialect limit depth expr expr') :
    Mirrors dialect limit depth (Indexed.conditional sum expr) (conditional sum' expr') := by
  refine .bind hsum fun cond ↦ .branch ?_ (.pure cond)
  exact .bind (.advance nofun) fun _ ↦ .bind hexpr fun _ ↦ .bind (.consume nofun nofun) fun _ ↦
    .bind hexpr fun _ ↦ .pure _

theorem mirrors_expression {levels calls : Nat} (hlevels : nestingLimit - depth = levels)
    (hcalls : levels < calls) :
    Mirrors dialect limit depth (Indexed.expression limit calls) (expression dialect levels) := by
  induction calls generalizing depth levels with
  | zero => exact absurd hcalls (Nat.not_lt_zero _)
  | succ calls ih =>
    cases levels with
    | zero => exact .tooDeep (Nat.le_of_sub_eq_zero hlevels)
    | succ levels =>
      have hinner : nestingLimit - (depth + 1) = levels := by omega
      have hless : levels < calls := Nat.lt_of_succ_lt_succ hcalls
      have hexpr := ih hinner hless
      have hsum := mirrors_addition (mirrors_operand (mirrors_type hinner hless) hexpr)
      refine .nested ?_ (mirrors_conditional hsum hexpr) (by omega)
      exact Steady.compositional.conditional
        (Steady.compositional.addition (.operand (.type levels) (.expression dialect levels)))
        (.expression dialect levels)

end Expressions

section Programs

variable {limit depth : Nat} {expr : Indexed.Parser Term} {expr' : Parser Term}

theorem mirrorsAt_constItem (hexpr : Mirrors dialect limit depth expr expr') :
    MirrorsAt .const dialect limit depth (Indexed.constItem expr) (constItem expr') :=
  .bind (.advance nofun) fun _ ↦ .bind (.identifier nofun) fun _ ↦
    .bind (.consume nofun nofun) fun _ ↦ .bind hexpr fun _ ↦ .bind (.consume nofun nofun) fun _ ↦
      .pure _

theorem matches_itemsAndResult (hexpr : Mirrors dialect limit depth expr expr') {rounds fuel : Nat}
    (hfuel : rounds < fuel) (hs : Ready limit depth rounds s) :
    Matches dialect (Ready limit depth rounds)
      (Indexed.itemsAndResult expr fuel (s.indexed dialect))
      (itemsAndResult dialect expr' rounds s) := by
  induction fuel generalizing rounds s with
  | zero => exact absurd hfuel (Nat.not_lt_zero _)
  | succ fuel ih =>
    cases rounds with
    | zero =>
      -- Nothing is ahead, so that there is no item, whether or not there is a result.
      rw [Indexed.itemsAndResult, Indexed.bind_of_ok (isAt_indexed .const s), hs.current_kind,
        itemsAndResult]
      refine (hexpr hs).bind fun term t ht ↦ ?_
      rw [Indexed.bind_of_ok (isAt_indexed .semicolon t), ht.current_kind]
      exact .ok ht
    | succ rounds =>
      have hless : rounds < fuel := Nat.lt_of_succ_lt_succ hfuel
      have hsemicolon : MirrorsAt .semicolon dialect limit depth Indexed.advance advance :=
        .advance nofun
      rw [Indexed.itemsAndResult, itemsAndResult]
      refine .branch (fun hcurrent ↦ .gate ?_) fun _ ↦ (hexpr hs).bind fun term t ht ↦ ?_
      · refine (mirrorsAt_constItem hexpr hs hcurrent).bind fun item t ht ↦ ?_
        refine (ih hless ht).bind fun parts u hu ↦ ?_
        exact .ok (hu.mono (Nat.le_succ rounds) hs.rounds_lt)
      · refine .branch (fun hcurrent ↦ ?_) fun _ ↦ .ok ht
        refine (hsemicolon ht hcurrent).bind fun _ u hu ↦ ?_
        refine .branch (fun _ ↦ .ok (hu.mono (Nat.le_succ rounds) hs.rounds_lt)) fun _ ↦ .gate ?_
        refine (ih hless hu).bind fun parts v hv ↦ ?_
        exact .ok (hv.mono (Nat.le_succ rounds) hs.rounds_lt)

/-- Neither the loops nor the calls come to the limit. -/
structure Suffices (limit : Nat) (s : State) : Prop where
  nestingLimit_lt : nestingLimit < limit
  length_le : s.tokens.length ≤ limit

theorem matches_program (dialect : Dialect) (hs : s.WellFormed) (hlimit : Suffices limit s) :
    Matches dialect (Ready limit s.depth s.ahead.length)
      (Indexed.program limit (s.indexed dialect)) (program dialect s) := by
  have hlength := hlimit.length_le
  simp only [tokens, List.length_append, List.length_singleton] at hlength
  have hready : Ready limit s.depth s.ahead.length s := ⟨hs, rfl, Nat.le_refl _, by omega⟩
  have hcalls : nestingLimit - s.depth < limit :=
    Nat.lt_of_le_of_lt (Nat.sub_le _ _) hlimit.nestingLimit_lt
  have hexpr : Mirrors dialect limit s.depth (Indexed.expression limit limit)
      (expression dialect (nestingLimit - s.depth)) :=
    mirrors_expression rfl hcalls
  refine (matches_itemsAndResult hexpr hready.rounds_lt hready).bind fun parts t ht ↦ ?_
  exact .branch (fun _ ↦ .ok ht) fun _ ↦ Mirrors.unexpected ht

/-- A run in another dialect leaves the dialect as it found it, whether it failed or not. -/
theorem Matches.inDialect {post : State → Prop} {other : Dialect} {parser : Indexed.Parser α}
    {result : EStateM.Result ParseError State α}
    (h : Matches other post (parser (s.indexed other)) result) :
    Matches dialect post (Indexed.inDialect other parser (s.indexed dialect)) result := by
  change Matches dialect post (parser (s.indexed other) >>= _) result
  generalize parser (s.indexed other) = run at h
  cases h with
  | ok hpost => exact .ok hpost
  | error hfault => exact .error hfault

/-- The arithmetic counterpart exists, so that the first token is not looked up. -/
theorem matches_arithProgram (dialect : Dialect) (hs : s.WellFormed) (hlimit : Suffices limit s) :
    Matches dialect (Ready limit s.depth s.ahead.length)
      (Indexed.arithProgram limit (s.indexed dialect)) (arithProgram s) := by
  have hprogram : Matches dialect (Ready limit s.depth s.ahead.length)
      (Indexed.inDialect .arith (Indexed.program limit) (s.indexed dialect)) (program .arith s) :=
    (matches_program .arith hs hlimit).inDialect
  obtain ⟨arith, t, hrun, harith⟩ | ⟨error, t, hrun, harith⟩ := arithProgram_cases s
  all_goals
    rw [hrun] at hprogram
    rw [harith]
    generalize hindexed :
      Indexed.inDialect .arith (Indexed.program limit) (s.indexed dialect) = run at hprogram
  · cases hprogram with
    | ok ht =>
      rw [Indexed.arithProgram, Indexed.bind_of_ok hindexed, Arith.restrict_embed]
      exact .ok ht
  · cases hprogram with
    | error hfault =>
      rw [Indexed.arithProgram, Indexed.bind_of_error hindexed]
      exact .error hfault

end Programs

/-! ## Progress and messages -/

/-- A parser for sentences that are never empty moves the cursor when it succeeds. -/
theorem Sound.cursor_lt {levels : Nat} {n : Grammar.Nonterminal} {parser : Parser n.Value}
    (hsound : Sound levels n parser) (hsteady : Steady parser)
    (hstarts : n.starts .endOfInput = false) (hs : s.WellFormed) {value : n.Value}
    (h : parser s = .ok value t) : s.cursor < t.cursor := by
  obtain ⟨⟨d, -, -, hreads, -⟩, -⟩ := hsound hs h
  have hpos : 0 < d.terminals.length := by
    refine List.length_pos_iff.mpr fun hnil ↦ ?_
    have hnext := d.starts_nextKind []
    rw [hnil, List.append_nil, Grammar.nextKind_nil, hstarts] at hnext
    cases hnext
  have hfollows := hsteady s
  rw [h] at hfollows
  have hlengths := congrArg List.length hfollows.leadsTo.append_eq
  have hread := hreads.length_eq
  simp only [finalState, List.length_append, List.length_reverse] at hlengths
  unfold cursor
  omega

theorem getElem?_tokens_zero (s : State) : s.tokens[0]? = some s.first := by
  unfold tokens first State.current
  rw [List.getLast?_eq_head?_reverse]
  cases s.before.reverse with
  | cons token before => rfl
  | nil => cases s.ahead <;> rfl

end Parsing

theorem head?_toList_append {text rest : String} {letter : Char}
    (h : text.toList.head? = some letter) : (text ++ rest).toList.head? = some letter := by
  rw [String.toList_append, List.head?_append, h]
  rfl

namespace ParseFault

/-- The letter that the message starts with. -/
def initial : ParseFault → Char
  | nestingTooDeep => 'M'
  | unexpectedEnd | unexpectedCharacter _ | unexpectedToken _ | unknownType _ => 'U'
  | expected _ => 'E'
  | invalidNumber _ => 'I'
  | notArithmetic .variableReference => 'v'
  | notArithmetic .function | notArithmetic .functionCall => 'f'
  | notArithmetic .statementSequence => 's'
  | notArithmetic .constBinding => 'c'

theorem head?_message (fault : ParseFault) :
    fault.message.toList.head? = some fault.initial := by
  cases fault with
  | unexpectedEnd => rfl
  | unexpectedToken | invalidNumber => exact head?_toList_append (by simp [initial])
  | nestingTooDeep | unexpectedCharacter | unknownType =>
    exact head?_toList_append (head?_toList_append (by simp [initial]))
  | expected what =>
    change what.message.toList.head? = some 'E'
    cases what <;> simp [Expectation.message]
  | notArithmetic construct =>
    refine head?_toList_append ?_
    cases construct <;> simp [Construct.name, initial]

theorem Arises.message_ne_invalidNumber {fault : ParseFault} (h : fault.Arises) (lexeme : String) :
    fault.message ≠ "Invalid number: " ++ lexeme := by
  intro hsame
  have hletter : ("Invalid number: " ++ lexeme).toList.head? = some fault.initial := by
    rw [← hsame, head?_message]
  rw [head?_toList_append (show _ = some 'I' by simp), Option.some.injEq] at hletter
  cases fault with
  | invalidNumber => exact h
  | notArithmetic construct => cases construct <;> simp [initial] at hletter
  | _ => simp [initial] at hletter

theorem Arises.message_ne_paramsOpen {fault : ParseFault} (h : fault.Arises) :
    fault.message ≠ "Expected '(' before parameters" := by
  intro hsame
  have hletter : 'E' = fault.initial := by
    rw [← Option.some.injEq, ← head?_message, hsame]
    simp
  cases fault with
  | expected what =>
    change what.message = _ at hsame
    cases what with
    | paramsOpen => exact h rfl
    | _ => simp [Expectation.message] at hsame
  | notArithmetic construct => cases construct <;> simp [initial] at hletter
  | _ => simp [initial] at hletter

end ParseFault

/-! ## Requests -/

namespace Session

open Parsing

variable {session : Session} {limit : Nat}

/-- One request is answered on indices as it is on the tokens ahead, and the dialect is then what it
was before, also after arithmetic. -/
theorem answer_indexed (hs : session.state.WellFormed) (hlimit : Suffices limit session.state)
    (request : Request) :
    Indexed.answer limit request (session.state.indexed session.dialect) =
      some ((session.answer request).1,
        (session.answer request).2.state.indexed session.dialect) := by
  cases request with
  | program =>
    have hrun := (matches_program session.dialect hs hlimit).run_eq
    rw [answer, parse, run_eq]
    change (Indexed.program limit (session.state.indexed session.dialect) >>= _) = _
    rw [hrun]
    rfl
  | arithProgram =>
    have hrun := (matches_arithProgram session.dialect hs hlimit).run_eq
    rw [answer, parseArith, run_eq]
    change (Indexed.arithProgram limit (session.state.indexed session.dialect) >>= _) = _
    rw [hrun]
    rfl

theorem dialect_answer (session : Session) (request : Request) :
    (session.answer request).2.dialect = session.dialect := by
  obtain ⟨result, -, hanswer⟩ := session.exists_follows_answer request
  rw [hanswer]

theorem answers_indexed (hs : session.state.WellFormed) (hlimit : Suffices limit session.state)
    (requests : List Request) :
    Indexed.answers limit requests (session.state.indexed session.dialect) =
      some ((session.answers requests).1,
        (session.answers requests).2.state.indexed session.dialect) := by
  induction requests generalizing session with
  | nil => rfl
  | cons request requests ih =>
    have hleads := session.leadsTo_answer request
    have hnext : Suffices limit (session.answer request).2.state :=
      ⟨hlimit.nestingLimit_lt, hleads.tokens_eq ▸ hlimit.length_le⟩
    have hothers := ih (hleads.wellFormed hs) hnext
    rw [dialect_answer] at hothers
    rw [Indexed.answers, List.mapM_cons]
    change (Indexed.answer limit request (session.state.indexed session.dialect) >>= _) = _
    rw [answer_indexed hs hlimit request]
    change (Indexed.answers limit requests _ >>= _) = _
    rw [hothers]
    rfl

theorem arises_of_answer (hs : session.state.WellFormed) {request : Request} {error : ParseError}
    (herror : (session.answer request).1 = .error error) : error.fault.Arises := by
  obtain ⟨_, _, _, -, hanswer⟩ | ⟨_, t, hrun, hanswer⟩ := session.answer_cases request
  · rw [hanswer] at herror
    cases herror
  · rw [hanswer] at herror
    cases herror
    -- Any sufficient limit will do, as the answer does not depend on it.
    have hlimit : Suffices (nestingLimit + 1 + session.state.tokens.length) session.state :=
      ⟨by omega, by omega⟩
    refine (matches_program (session.dialectFor request) hs hlimit).arises ?_
    rw [hrun]
    rfl

theorem arises_of_answers (hs : session.state.WellFormed) {requests : List Request}
    {error : ParseError} (hmem : .error error ∈ (session.answers requests).1) :
    error.fault.Arises := by
  induction requests generalizing session with
  | nil => cases hmem
  | cons request requests ih =>
    obtain hfirst | hothers := List.mem_cons.mp hmem
    · exact arises_of_answer hs hfirst.symm
    · exact ih ((session.leadsTo_answer request).wellFormed hs) hothers

/-- Any requests, one after the other, are answered by a lexer and a parser on indices as they are
by runs on the tokens ahead: every index is in range, no count goes below zero, no loop takes more
rounds than there are tokens, and no more calls are nested than levels may be opened.  The dialect
of the state, which arithmetic replaces during its run, is the first one again afterwards.  No
answer complains of a numeral or of a missing parenthesis before parameters, what is read as
arithmetic has an arithmetic counterpart, the text has a first token, and the cursor moves whenever
an expression or a type is read. -/
theorem answers_safe (dialect : Dialect) (source : String) (requests : List Request) :
    let start := State.ofString source
    let after := (Session.ofString dialect source).answers requests
    (∀ limit, nestingLimit < limit → start.tokens.length ≤ limit →
      Indexed.answers limit requests (Indexed.ofString dialect source) =
        some (after.1, after.2.state.indexed dialect)) ∧
    (∀ error, .error error ∈ after.1 →
      (∀ lexeme, error.fault.message ≠ "Invalid number: " ++ lexeme) ∧
      error.fault.message ≠ "Expected '(' before parameters") ∧
    (∀ term t, program .arith after.2.state = .ok term t →
      ∃ arith, Arith.restrict term = .ok arith) ∧
    start.tokens[0]? = some after.2.state.first ∧
    (∀ s t, start.LeadsTo s → ∀ levels,
      (∀ dialect term, expression dialect levels s = .ok term t → s.cursor < t.cursor) ∧
      (∀ ty, type levels s = .ok ty t → s.cursor < t.cursor)) := by
  intro start after
  have hstart : start.WellFormed := wellFormed_ofString source
  have hstands : Stands dialect source after.1 after.2 := by
    simpa using (stands_ofString dialect source).answers requests
  refine ⟨fun limit hlimit hlength ↦ ?_, fun error hmem ↦ ?_, fun term t hrun ↦ ?_, ?_,
    fun s t hleads levels ↦ ?_⟩
  · have hrequests : (Session.ofString dialect source).state.WellFormed := hstart
    have htokens := (Indexed.Lexer.ofString source).tokenize_eq_tokensToEnd.1
    rw [Indexed.ofString, htokens]
    exact answers_indexed hrequests ⟨hlimit, hlength⟩ requests
  · have hrequests : (Session.ofString dialect source).state.WellFormed := hstart
    have hfault := arises_of_answers hrequests hmem
    exact ⟨hfault.message_ne_invalidNumber, hfault.message_ne_paramsOpen⟩
  · obtain ⟨arith, u, harith, -⟩ | ⟨error, u, herror, -⟩ := arithProgram_cases after.2.state
    · rw [hrun] at harith
      cases harith
      exact ⟨arith, Arith.restrict_embed arith⟩
    · rw [hrun] at herror
      cases herror
  · rw [← hstands.leadsTo.tokens_eq, getElem?_tokens_zero]
  · have hs := hleads.wellFormed hstart
    constructor
    · intro dialect term hrun
      exact (sound_expression levels).cursor_lt (.expression dialect levels) rfl hs hrun
    · intro ty hrun
      exact (sound_type levels).cursor_lt (.type levels) rfl hs hrun

end Session

end ArrowLang

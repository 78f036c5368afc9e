import ArrowLang.Proofs.Grammar.Derivation

/-!
# What a parser reads

A parser looks at the tokens ahead only through their terminals.  This module says so for the basic
steps: how a step moves through the terminals, and what a successful run of a composed parser is
made of.
-/

namespace ArrowLang

namespace Token

@[simp]
theorem terminal_kind (token : Token) : token.terminal.kind = token.kind := rfl

theorem terminal_eq_mark {token : Token} (hmark : token.kind.isMark) :
    token.terminal = .mark token.kind := by
  simp [terminal, Terminal.mark, hmark]

theorem terminal_eq_ident {token : Token} (hkind : token.kind = .ident) :
    token.terminal = .ident token.lexeme := by
  simp [terminal, Terminal.ident, hkind, TokenKind.isMark]

theorem terminal_eq_number {token : Token} (hkind : token.kind = .number) :
    token.terminal = .number token.lexeme := by
  simp [terminal, Terminal.number, hkind, TokenKind.isMark]

end Token

namespace Parsing

open Grammar

namespace State

variable {s t u : State}

/-- The terminals ahead. -/
def terminals (s : State) : List Terminal := s.ahead.map Token.terminal

/-- The end token stands at the end and nowhere else, and all numerals denote decimals. -/
structure WellFormed (s : State) : Prop where
  finish_kind : s.finish.kind = .endOfInput
  ahead_kind : ∀ terminal ∈ s.terminals, terminal.kind ≠ .endOfInput
  numerals : ∀ lexeme, .number lexeme ∈ s.terminals → (Decimal.ofText? lexeme).isSome

/-- Well-formedness concerns only the terminals ahead and the end token. -/
theorem WellFormed.of_subset (hs : s.WellFormed) (hfinish : t.finish = s.finish)
    (hsubset : t.terminals ⊆ s.terminals) : t.WellFormed where
  finish_kind := by rw [hfinish, hs.finish_kind]
  ahead_kind terminal hmem := hs.ahead_kind terminal (hsubset hmem)
  numerals lexeme hmem := hs.numerals lexeme (hsubset hmem)

theorem WellFormed.atDepth (hs : s.WellFormed) (depth : Nat) :
    ({ s with depth } : State).WellFormed :=
  hs.of_subset rfl (List.Subset.refl _)

@[simp]
theorem length_terminals (s : State) : s.terminals.length = s.ahead.length := by
  simp [terminals]

@[simp]
theorem terminals_advance (s : State) : s.advance.terminals = s.terminals.tail := by
  unfold terminals advance
  split <;> simp [*]

@[simp]
theorem finish_advance (s : State) : s.advance.finish = s.finish := by
  unfold advance
  split <;> rfl

theorem current_kind (hfinish : s.finish.kind = .endOfInput) :
    s.current.kind = nextKind s.terminals := by
  unfold current terminals
  cases s.ahead with
  | nil => exact hfinish
  | cons token ahead => rfl

/-- At the end token nothing is ahead. -/
theorem terminals_eq_nil (hs : s.WellFormed) (hcurrent : s.current.kind = .endOfInput) :
    s.terminals = [] := by
  rw [current_kind hs.finish_kind] at hcurrent
  cases hterminals : s.terminals with
  | nil => rfl
  | cons terminal rest =>
    rw [hterminals] at hcurrent
    exact absurd hcurrent (hs.ahead_kind terminal (by simp [hterminals]))

/-- Before the end, the current token is the first terminal ahead. -/
theorem terminals_eq_cons (hs : s.WellFormed) (hcurrent : s.current.kind ≠ .endOfInput) :
    s.terminals = s.current.terminal :: s.advance.terminals := by
  rw [terminals_advance]
  unfold current terminals at *
  cases hahead : s.ahead with
  | nil =>
    rw [hahead] at hcurrent
    exact absurd hs.finish_kind hcurrent
  | cons token ahead => rfl

/-- From one state to another, exactly the given terminals are read. -/
structure Reads (s : State) (read : List Terminal) (t : State) : Prop where
  terminals_eq : s.terminals = read ++ t.terminals
  finish_eq : t.finish = s.finish

namespace Reads

variable {read read' : List Terminal}

theorem refl (s : State) : Reads s [] s := ⟨rfl, rfl⟩

theorem trans (h : Reads s read t) (h' : Reads t read' u) : Reads s (read ++ read') u where
  terminals_eq := by rw [h.terminals_eq, h'.terminals_eq, List.append_assoc]
  finish_eq := h'.finish_eq.trans h.finish_eq

theorem wellFormed (h : Reads s read t) (hs : s.WellFormed) : t.WellFormed :=
  hs.of_subset h.finish_eq (by rw [h.terminals_eq]; exact List.subset_append_right _ _)

theorem length_eq (h : Reads s read t) : s.ahead.length = read.length + t.ahead.length := by
  rw [← length_terminals, ← length_terminals, h.terminals_eq, List.length_append]

theorem advance (hs : s.WellFormed) (hcurrent : s.current.kind ≠ .endOfInput) :
    Reads s [s.current.terminal] s.advance :=
  ⟨terminals_eq_cons hs hcurrent, finish_advance s⟩

end Reads

end State

section Runs

variable {α β : Type} {s t : State}

theorem bind_eq_ok {first : Parser α} {next : α → Parser β} {value : β} :
    (first >>= next) s = .ok value t ↔
      ∃ middle u, first s = .ok middle u ∧ next middle u = .ok value t := by
  change EStateM.bind first next s = _ ↔ _
  unfold EStateM.bind
  cases first s with
  | error error u => simp
  | ok middle u =>
    simp only [EStateM.Result.ok.injEq]
    constructor
    · intro h
      exact ⟨middle, u, ⟨rfl, rfl⟩, h⟩
    · rintro ⟨_, _, ⟨rfl, rfl⟩, h⟩
      exact h

theorem pure_eq_ok {value value' : α} :
    (pure value : Parser α) s = .ok value' t ↔ value = value' ∧ s = t := by
  change EStateM.Result.ok value s = _ ↔ _
  simp

theorem current_eq_ok {token : Token} : current s = .ok token t ↔ s.current = token ∧ s = t := by
  change EStateM.Result.ok s.current s = _ ↔ _
  simp

theorem advance_eq_ok {done : Unit} : advance s = .ok done t ↔ s.advance = t := by
  change EStateM.Result.ok () s.advance = _ ↔ _
  simp

theorem isAt_eq_ok {kind : TokenKind} {found : Bool} :
    isAt kind s = .ok found t ↔ (s.current.kind == kind) = found ∧ s = t := by
  change EStateM.Result.ok (s.current.kind == kind) s = _ ↔ _
  simp

theorem fail_ne_ok {fault : ParseFault} {value : α} : fail fault s ≠ .ok value t := nofun

theorem unexpected_ne_ok {value : α} : unexpected s ≠ .ok value t := by
  intro h
  obtain ⟨token, _, -, h⟩ := bind_eq_ok.mp h
  generalize token.kind = kind at h
  cases kind <;> exact fail_ne_ok h

theorem requireExtended_eq_ok {dialect : Dialect} {construct : Construct} {done : Unit}
    (h : requireExtended dialect construct s = .ok done t) : s = t := by
  cases dialect with
  | arith => cases h
  | basic => exact (pure_eq_ok.mp h).2

/-- Reading the current mark. -/
theorem reads_mark {kind : TokenKind} (hs : s.WellFormed) (hcurrent : s.current.kind = kind)
    (hmark : kind.isMark) : s.Reads [.mark kind] s.advance := by
  subst hcurrent
  rw [← Token.terminal_eq_mark hmark]
  refine .advance hs fun hend ↦ ?_
  rw [hend] at hmark
  cases hmark

theorem reads_consume {kind : TokenKind} {what : Expectation} {done : Unit} (hs : s.WellFormed)
    (hmark : kind.isMark) (h : consume kind what s = .ok done t) : s.Reads [.mark kind] t := by
  obtain ⟨found, _, hat, h⟩ := bind_eq_ok.mp h
  obtain ⟨rfl, rfl⟩ := isAt_eq_ok.mp hat
  split at h
  · rename_i hcurrent
    obtain rfl := advance_eq_ok.mp h
    exact reads_mark hs (beq_iff_eq.mp hcurrent) hmark
  · exact absurd h fail_ne_ok

theorem reads_identifier {what : Expectation} {name : String} (hs : s.WellFormed)
    (h : identifier what s = .ok name t) : s.Reads [.ident name] t := by
  obtain ⟨token, _, hcurrent, h⟩ := bind_eq_ok.mp h
  obtain ⟨rfl, rfl⟩ := current_eq_ok.mp hcurrent
  obtain ⟨_, u, hconsume, h⟩ := bind_eq_ok.mp h
  obtain ⟨rfl, rfl⟩ := pure_eq_ok.mp h
  obtain ⟨found, _, hat, hadvance⟩ := bind_eq_ok.mp hconsume
  obtain ⟨rfl, rfl⟩ := isAt_eq_ok.mp hat
  split at hadvance
  · rename_i hkind
    obtain rfl := advance_eq_ok.mp hadvance
    rw [beq_iff_eq] at hkind
    rw [← Token.terminal_eq_ident hkind]
    exact .advance hs (by simp [hkind])
  · exact absurd hadvance fail_ne_ok

end Runs

end Parsing

end ArrowLang

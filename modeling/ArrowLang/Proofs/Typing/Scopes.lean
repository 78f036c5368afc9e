import ArrowLang.Proofs.Typing.Invariance

/-!
# Chains of scopes as one list of bindings

A context is built from a first scope by laying further scopes over it.  Looking a name up goes
through the scopes from the inside out, and through each scope from its end.  Both together are a
search from the end of one list, in which the bindings of all scopes stand in the order they were
given.  A new scope leaves the contexts below it as they are.
-/

namespace ArrowLang

namespace Context

/-- The last binding of the name in the list gives it the type. -/
def LastBinds (bindings : List (Binding Ty)) (name : String) (ty : Ty) : Prop :=
  ∃ before after, bindings = before ++ ⟨name, ty⟩ :: after ∧ ∀ binding ∈ after, binding.name ≠ name

theorem lookupScope_eq_some_iff {bindings : List (Binding Ty)} {name : String} {ty : Ty} :
    lookupScope bindings name = some ty ↔ LastBinds bindings name ty := by
  rw [lookupScope, Option.map_eq_some_iff]
  constructor
  · rintro ⟨binding, hfind, rfl⟩
    obtain ⟨hname, after, before, hsplit, hafter⟩ := List.find?_eq_some_iff_append.mp hfind
    obtain rfl := beq_iff_eq.mp hname
    refine ⟨before.reverse, after.reverse, ?_, by simpa using hafter⟩
    apply List.reverse_injective
    simpa using hsplit
  · rintro ⟨before, after, rfl, hafter⟩
    refine ⟨⟨name, ty⟩, ?_, rfl⟩
    apply List.find?_eq_some_iff_append.mpr
    exact ⟨by simp, after.reverse, before.reverse, by simp, by simpa using hafter⟩

/-- Bindings behind others come first. -/
theorem lookupScope_append (outer inner : List (Binding Ty)) (name : String) :
    lookupScope (outer ++ inner) name = (lookupScope inner name).or (lookupScope outer name) := by
  unfold lookupScope
  rw [List.reverse_append, List.find?_append, Option.map_or]

/-- The bindings of all scopes, the outermost scope first. -/
def bindings : Context → List (Binding Ty)
  | top bindings => bindings
  | extend outer bindings => outer.bindings ++ bindings

/-- The scopes of a context act as one. -/
theorem lookup_eq_lookupScope (context : Context) (name : String) :
    context.lookup name = lookupScope context.bindings name := by
  induction context with
  | top bindings => rfl
  | extend outer bindings ih => rw [lookup_extend, ih, Context.bindings, lookupScope_append]

/-- How a context can be started. -/
inductive Origin
  | empty
  | top (bindings : List (Binding Ty))

namespace Origin

def context : Origin → Context
  | empty => Context.empty
  | top bindings => Context.top bindings

def bindings : Origin → List (Binding Ty)
  | empty => []
  | top bindings => bindings

theorem bindings_context (origin : Origin) : origin.context.bindings = origin.bindings := by
  cases origin <;> rfl

theorem depth_context (origin : Origin) : origin.context.depth = 1 := by
  cases origin <;> rfl

end Origin

/-- How a scope can be laid over a context. -/
inductive Extension
  | scope (bindings : List (Binding Ty))
  /-- The parameters of a function. -/
  | params (declared : List Param)
  | single (name : String) (ty : Ty)

def Extension.bindings : Extension → List (Binding Ty)
  | scope bindings => bindings
  | params declared => declared
  | single name ty => [⟨name, ty⟩]

def extendBy (context : Context) : Extension → Context
  | .scope bindings => context.extend bindings
  | .params declared => context.extend declared
  | .single name ty => context.bind name ty

/-- Whichever way a scope is made, it is the innermost one afterwards. -/
theorem extendBy_eq (context : Context) (extension : Extension) :
    context.extendBy extension = context.extend extension.bindings := by
  cases extension <;> rfl

def extendAll (context : Context) (extensions : List Extension) : Context :=
  extensions.foldl extendBy context

theorem extendAll_append (context : Context) (earlier later : List Extension) :
    context.extendAll (earlier ++ later) = (context.extendAll earlier).extendAll later :=
  List.foldl_append

theorem extendAll_append_singleton (context : Context) (extensions : List Extension)
    (extension : Extension) :
    context.extendAll (extensions ++ [extension]) =
      (context.extendAll extensions).extend extension.bindings := by
  rw [extendAll_append, ← extendBy_eq]
  rfl

theorem bindings_extendAll (context : Context) (extensions : List Extension) :
    (context.extendAll extensions).bindings =
      context.bindings ++ extensions.flatMap Extension.bindings := by
  induction extensions using List.reverseRecOn with
  | nil => exact (List.append_nil _).symm
  | append_singleton extensions extension ih =>
    rw [extendAll_append_singleton, Context.bindings, ih, List.flatMap_append,
      List.flatMap_singleton, List.append_assoc]

theorem depth_extendAll (context : Context) (extensions : List Extension) :
    (context.extendAll extensions).depth = context.depth + extensions.length := by
  induction extensions using List.reverseRecOn with
  | nil => rfl
  | append_singleton extensions extension ih =>
    rw [extendAll_append_singleton, depth, ih, List.length_append, List.length_singleton,
      Nat.add_assoc]

/-- The context that so many scopes were laid over. -/
def ancestor? : Context → Nat → Option Context
  | context, 0 => some context
  | top _, _ + 1 => none
  | extend outer _, scopes + 1 => outer.ancestor? scopes

/-- Scopes laid over a context are on top of that same context. -/
theorem ancestor?_extendAll (context : Context) (extensions : List Extension) :
    (context.extendAll extensions).ancestor? extensions.length = some context := by
  induction extensions using List.reverseRecOn with
  | nil => cases context <;> rfl
  | append_singleton extensions extension ih =>
    rw [extendAll_append_singleton, List.length_append, List.length_singleton, ancestor?, ih]

/-- However a context was started and extended, it is a flat environment: the type of a name is that
of its last binding among all that were given, a name without a binding is absent, and the depth is
one more than the number of extensions.  Every context on the way is still there below the
extensions made over it, with the lookups and the depth it had. -/
theorem lookup_after_extensions (origin : Origin) (extensions : List Extension) :
    let context := origin.context.extendAll extensions
    let bindings := origin.bindings ++ extensions.flatMap Extension.bindings
    (∀ name ty, context.lookup name = some ty ↔ LastBinds bindings name ty) ∧
    (∀ name, context.lookup name = none ↔ ∀ binding ∈ bindings, binding.name ≠ name) ∧
    context.depth = 1 + extensions.length ∧
    ∀ earlier later, extensions = earlier ++ later →
      context.ancestor? later.length = some (origin.context.extendAll earlier) := by
  intro context bindings
  have hlookup (name : String) : context.lookup name = lookupScope bindings name := by
    rw [lookup_eq_lookupScope, bindings_extendAll, origin.bindings_context]
  refine ⟨fun name ty ↦ ?_, fun name ↦ ?_, ?_, ?_⟩
  · rw [hlookup, lookupScope_eq_some_iff]
  · rw [hlookup, lookupScope_eq_none_iff]
    simp
  · rw [depth_extendAll, origin.depth_context]
  · intro earlier later hsplit
    subst hsplit
    change (origin.context.extendAll (earlier ++ later)).ancestor? later.length = _
    rw [extendAll_append, ancestor?_extendAll]

end Context

end ArrowLang

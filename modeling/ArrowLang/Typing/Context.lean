import ArrowLang.Ty

/-!
# Contexts

A context is a chain of scopes, each a list of bindings.  Within a scope the last binding of a name
counts, and inner scopes come before outer ones.
-/

namespace ArrowLang

inductive Context
  | top (bindings : List (Binding Ty))
  | extend (outer : Context) (bindings : List (Binding Ty))

namespace Context

def empty : Context := top []

/-- A new innermost scope with a single binding. -/
def bind (context : Context) (name : String) (ty : Ty) : Context := context.extend [⟨name, ty⟩]

/-- The type of the last binding of a name in one scope. -/
def lookupScope (bindings : List (Binding Ty)) (name : String) : Option Ty :=
  (bindings.reverse.find? fun binding ↦ binding.name == name).map Binding.ty

/-- The type of a name, from the innermost scope that binds it. -/
def lookup : Context → String → Option Ty
  | top bindings, name => lookupScope bindings name
  | extend outer bindings, name =>
    match lookupScope bindings name with
    | some ty => some ty
    | none => outer.lookup name

def isBound (context : Context) (name : String) : Bool := (context.lookup name).isSome

/-- The number of scopes. -/
def depth : Context → Nat
  | top _ => 1
  | extend outer _ => outer.depth + 1

end Context

end ArrowLang

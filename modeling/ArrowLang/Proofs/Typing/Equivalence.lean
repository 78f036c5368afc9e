import ArrowLang.Proofs.Typing.Erasure
import Mathlib.Data.List.Forall2

/-!
# Equivalence of types

Types are equivalent when they are the same without the names of parameters.  So equivalence is an
equivalence relation, and a part of a type can be exchanged for an equivalent one, at whatever depth
it stands.
-/

namespace ArrowLang.Ty

theorem eraseParams_eq_iff {params params' : List Param} :
    eraseParams params = eraseParams params' ↔
      List.Forall₂ (fun param param' ↦ param.ty.equiv param'.ty) params params' := by
  simp only [eraseParams_eq_map, equiv_iff_erase_eq]
  rw [← List.forall₂_eq_eq_eq, List.forall₂_map_left_iff, List.forall₂_map_right_iff]

/-- Function types are equivalent when they have equally many parameters, of equivalent types in
order, and equivalent results. -/
theorem equiv_function_iff {params params' : List Param} {result result' : Ty} :
    (function params result).equiv (function params' result') ↔
      List.Forall₂ (fun param param' ↦ param.ty.equiv param'.ty) params params' ∧
        result.equiv result' := by
  rw [← eraseParams_eq_iff, equiv_iff_erase_eq, equiv_iff_erase_eq, erase, erase,
    SimpleTy.function.injEq]

/-- A type with a hole, where the type of a parameter or a result may be. -/
inductive Frame
  | hole
  | inParam (before : List Param) (name : String) (inner : Frame) (after : List Param) (result : Ty)
  | inResult (params : List Param) (inner : Frame)

/-- The type with a type in its hole. -/
def Frame.fill : Frame → Ty → Ty
  | hole, ty => ty
  | inParam before name inner after result, ty =>
    function (before ++ ⟨name, inner.fill ty⟩ :: after) result
  | inResult params inner, ty => function params (inner.fill ty)

/-- What is in the hole matters only without the names of parameters. -/
theorem Frame.erase_fill (frame : Frame) {ty ty' : Ty} (h : ty.erase = ty'.erase) :
    (frame.fill ty).erase = (frame.fill ty').erase := by
  induction frame with
  | hole => exact h
  | inParam before name inner after result ih => simp [fill, eraseParams_eq_map, ih]
  | inResult params inner ih => simp [fill, ih]

/-- Equivalence of types is equality of what is left without the names of parameters.  So it is an
equivalence relation that compares function types part by part, and a part can be exchanged for an
equivalent one at any depth. -/
theorem equiv_is_equality_without_names :
    (∀ ty ty' : Ty, ty.equiv ty' ↔ ty.erase = ty'.erase) ∧
    (∀ (params params' : List Param) (result result' : Ty),
      (function params result).equiv (function params' result') ↔
        List.Forall₂ (fun param param' ↦ param.ty.equiv param'.ty) params params' ∧
          result.equiv result') ∧
    Equivalence (fun ty ty' : Ty ↦ ty.equiv ty') ∧
    (∀ (frame : Frame) (ty ty' other : Ty), ty.equiv ty' →
      ((frame.fill ty).equiv other ↔ (frame.fill ty').equiv other)) := by
  refine ⟨equiv_iff_erase_eq, fun _ _ _ _ ↦ equiv_function_iff, ?_, ?_⟩
  · simp only [equiv_iff_erase_eq]
    exact ⟨fun _ ↦ rfl, Eq.symm, Eq.trans⟩
  · intro frame ty ty' other h
    rw [equiv_iff_erase_eq] at h ⊢
    rw [equiv_iff_erase_eq, frame.erase_fill h]

end ArrowLang.Ty

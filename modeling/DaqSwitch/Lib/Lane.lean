import Mathlib

/-!
# Lanes

A lane is a chain of three buffers between a log of arrivals and a log of departures.
Every move takes a front part of one buffer and puts it at the end of the next, so what
departed, followed by the buffers from the last to the first, is what arrived.
-/

namespace Lib

variable {α : Type*}

@[ext]
structure Lane (α : Type*) where
  arrived : List α
  first : List α
  middle : List α
  last : List α
  departed : List α

namespace Lane

/-- Everything that arrived is in exactly one place, in the order of arrival. -/
def Conserved (x : Lane α) : Prop :=
  x.departed ++ x.last ++ x.middle ++ x.first = x.arrived

inductive Move : Lane α → Lane α → Prop
  | stay (x : Lane α) : Move x x
  | arrive (x : Lane α) (xs : List α) :
      Move x { x with arrived := x.arrived ++ xs, first := x.first ++ xs }
  | push (x : Lane α) (xs rest : List α) (h : x.first = xs ++ rest) :
      Move x { x with first := rest, middle := x.middle ++ xs }
  | pull (x : Lane α) (xs rest : List α) (h : x.middle = xs ++ rest) :
      Move x { x with middle := rest, last := x.last ++ xs }
  | depart (x : Lane α) (xs rest : List α) (h : x.last = xs ++ rest) :
      Move x { x with last := rest, departed := x.departed ++ xs }

lemma Move.of_eq {x y : Lane α} (h : x = y) : Move x y := h ▸ .stay x

def empty : Lane α := ⟨[], [], [], [], []⟩

lemma conserved_empty : (empty : Lane α).Conserved := rfl

lemma Move.conserved {x y : Lane α} (h : Move x y) (hx : x.Conserved) : y.Conserved := by
  unfold Conserved at hx ⊢
  cases h with
  | stay => exact hx
  | arrive xs => rw [← hx, ← List.append_assoc]
  | push xs rest h =>
    rw [← hx, h]
    simp only [List.append_assoc]
  | pull xs rest h =>
    rw [← hx, h]
    simp only [List.append_assoc]
  | depart xs rest h =>
    rw [← hx, h]
    simp only [List.append_assoc]

end Lane

end Lib

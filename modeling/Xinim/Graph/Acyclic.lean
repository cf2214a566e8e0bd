import Mathlib.Logic.Relation

/-! Directed acyclicity of a relation, and what one inserted edge does to it.
A cycle is a nonempty closed walk, so a self-loop is a cycle. -/

namespace Xinim.Graph
open Relation

variable {α : Type*}

def Acyclic (r : α → α → Prop) : Prop := ∀ a, ¬ TransGen r a a

def withEdge (r : α → α → Prop) (a b : α) : α → α → Prop :=
  fun x y => r x y ∨ (x = a ∧ y = b)

variable {r s : α → α → Prop} {a b : α}

theorem Acyclic.mono (hs : Acyclic s) (h : ∀ x y, r x y → s x y) : Acyclic r :=
  fun x hx => hs x (TransGen.mono h x x hx)

theorem Acyclic.irrefl (hr : Acyclic r) (x : α) : ¬ r x x :=
  fun h => hr x (TransGen.single h)

theorem le_withEdge (x y : α) (h : r x y) : withEdge r a b x y := Or.inl h

theorem reflTransGen_withEdge {x y : α} (h : ReflTransGen (withEdge r a b) x y) :
    ReflTransGen r x y ∨ (ReflTransGen r x a ∧ ReflTransGen (withEdge r a b) b y) := by
  induction h with
  | refl => exact Or.inl ReflTransGen.refl
  | tail _ step ih =>
    rcases step with old | ⟨rfl, rfl⟩
    · rcases ih with path | ⟨toA, fromB⟩
      · exact Or.inl (path.tail old)
      · exact Or.inr ⟨toA, fromB.tail (Or.inl old)⟩
    · rcases ih with path | ⟨toA, _⟩
      · exact Or.inr ⟨path, ReflTransGen.refl⟩
      · exact Or.inr ⟨toA, ReflTransGen.refl⟩

theorem reflTransGen_withEdge_iff :
    ReflTransGen (withEdge r a b) b a ↔ ReflTransGen r b a := by
  constructor
  · intro h
    rcases reflTransGen_withEdge h with path | ⟨path, _⟩ <;> exact path
  · exact ReflTransGen.mono le_withEdge b a

theorem transGen_withEdge {x y : α} (h : TransGen (withEdge r a b) x y) :
    TransGen r x y ∨ (ReflTransGen r x a ∧ ReflTransGen (withEdge r a b) b y) := by
  obtain ⟨z, first, rest⟩ := TransGen.head'_iff.mp h
  rcases first with old | ⟨rfl, rfl⟩
  · rcases reflTransGen_withEdge rest with path | ⟨toA, fromB⟩
    · exact Or.inl (TransGen.head' old path)
    · exact Or.inr ⟨ReflTransGen.head old toA, fromB⟩
  · exact Or.inr ⟨ReflTransGen.refl, rest⟩

theorem acyclic_withEdge_iff (hr : Acyclic r) :
    Acyclic (withEdge r a b) ↔ ¬ ReflTransGen r b a := by
  constructor
  · intro hnew back
    have loop : TransGen (withEdge r a b) a a :=
      TransGen.head' (Or.inr ⟨rfl, rfl⟩) (ReflTransGen.mono le_withEdge b a back)
    exact hnew a loop
  · intro noBack x loop
    rcases transGen_withEdge loop with old | ⟨toA, fromB⟩
    · exact hr x old
    · rcases reflTransGen_withEdge fromB with path | ⟨back, _⟩
      · exact noBack (path.trans toA)
      · exact noBack back

end Xinim.Graph

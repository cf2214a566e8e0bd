import Mathlib.Data.Finset.Erase
import Mathlib.Data.Finset.Insert
import Mathlib.Logic.Function.Basic

/-! Pools of free resources, one pool for each kind: a move takes a free
resource out of its kind's pool or gives one back. A run of moves is valid
when every take takes a resource its pool holds; in a valid run a resource
is never taken twice unless it was given back in between. -/

namespace Pool

variable {κ α : Type*} [DecidableEq κ] [DecidableEq α]

inductive Move (κ α : Type*) where
  | take (k : κ) (x : α)
  | give (k : κ) (x : α)
  | idle
  deriving DecidableEq

def Move.apply (pools : κ → Finset α) : Move κ α → κ → Finset α
  | .take k x => Function.update pools k ((pools k).erase x)
  | .give k x => Function.update pools k (insert x (pools k))
  | .idle => pools

def Move.Allowed (pools : κ → Finset α) : Move κ α → Prop
  | .take k x => x ∈ pools k
  | .give _ _ => True
  | .idle => True

instance (pools : κ → Finset α) (m : Move κ α) : Decidable (m.Allowed pools) := by
  cases m <;> unfold Move.Allowed <;> infer_instance

def run (pools : κ → Finset α) (moves : List (Move κ α)) : κ → Finset α :=
  moves.foldl Move.apply pools

def Valid : (κ → Finset α) → List (Move κ α) → Prop
  | _, [] => True
  | pools, m :: ms => m.Allowed pools ∧ Valid (m.apply pools) ms

instance decidableValid : (pools : κ → Finset α) → (ms : List (Move κ α)) → Decidable (Valid pools ms)
  | _, [] => isTrue trivial
  | pools, m :: ms =>
    haveI := decidableValid (m.apply pools) ms
    inferInstanceAs (Decidable (_ ∧ _))

variable {pools : κ → Finset α} {k : κ} {x : α}

@[simp] theorem run_nil : run pools [] = pools := rfl

@[simp] theorem run_cons (m : Move κ α) (ms : List (Move κ α)) :
    run pools (m :: ms) = run (m.apply pools) ms := rfl

theorem run_append (ms ms' : List (Move κ α)) : run pools (ms ++ ms') = run (run pools ms) ms' := by
  rw [run, run, run, List.foldl_append]

@[simp] theorem valid_nil : Valid pools [] := trivial

@[simp] theorem apply_take_self : (Move.take k x).apply pools k = (pools k).erase x := by
  simp [Move.apply]

@[simp] theorem apply_give_self : (Move.give k x).apply pools k = insert x (pools k) := by
  simp [Move.apply]

@[simp] theorem apply_take_of_ne {k' : κ} (other : k' ≠ k) : (Move.take k x).apply pools k' = pools k' := by
  simp [Move.apply, other]

@[simp] theorem apply_give_of_ne {k' : κ} (other : k' ≠ k) : (Move.give k x).apply pools k' = pools k' := by
  simp [Move.apply, other]

end Pool

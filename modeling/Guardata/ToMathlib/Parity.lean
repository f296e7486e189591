import Mathlib.Data.List.Perm.Basic

/-! # Parity of lists of one length

`parity` folds the pointwise action of a commutative operation in which every element is its own inverse.
Any one of the lists can be recovered from the others and their parity.
-/

universe u

namespace List

variable {α : Type u} {op : α → α → α} {zero : α}

instance zipWith_commutative [commutative : Std.Commutative op] : Std.Commutative (List.zipWith op) where
  comm first second := by
    rw [List.zipWith_comm]
    exact congrArg (List.zipWith · second first) (funext₂ fun left right => commutative.comm right left)

instance zipWith_associative [associative : Std.Associative op] :
    Std.Associative (List.zipWith op) where
  assoc first second third := by
    induction first generalizing second third with
    | nil => rfl
    | cons head rest ih =>
      cases second with
      | nil => rfl
      | cons second seconds =>
        cases third with
        | nil => rfl
        | cons third thirds => simp [associative.assoc, ih]

/-- All lists combined, starting from a neutral list of the given length. -/
def parity (op : α → α → α) (zero : α) (length : ℕ) (lists : List (List α)) : List α :=
  lists.foldl (List.zipWith op) (List.replicate length zero)

theorem zipWith_replicate_left (neutral : ∀ value, op zero value = value) (list : List α) :
    List.zipWith op (List.replicate list.length zero) list = list := by
  induction list with
  | nil => rfl
  | cons head rest ih => simpa [List.replicate_succ, neutral] using ih

theorem zipWith_self_of_involutive (inverse : ∀ value, op value value = zero) (list : List α) :
    List.zipWith op list list = List.replicate list.length zero := by
  simp [inverse]

theorem length_parity {length : ℕ} {lists : List (List α)} (same : ∀ list ∈ lists, list.length = length) :
    (parity op zero length lists).length = length := by
  have folded (start : List α) (started : start.length = length) :
      (lists.foldl (List.zipWith op) start).length = length := by
    induction lists generalizing start with
    | nil => exact started
    | cons list rest ih =>
      refine ih (fun other member => same other (List.mem_cons_of_mem _ member)) _ ?_
      simp [started, same list (List.mem_cons_self ..)]
  exact folded _ (by simp)

/-- The parity as a fold that starts from one of the lists. -/
theorem foldl_zipWith_eq_parity (neutral : ∀ value, op zero value = value) {length : ℕ} {list : List α}
    (sized : list.length = length) (lists : List (List α)) :
    lists.foldl (List.zipWith op) list = parity op zero length (list :: lists) := by
  rw [parity, List.foldl_cons, ← sized, zipWith_replicate_left neutral]

section Combine

variable [associative : Std.Associative op] [commutative : Std.Commutative op] {length : ℕ}
  {list : List α} {lists : List (List α)}

theorem parity_perm {other : List (List α)} (permuted : lists.Perm other) :
    parity op zero length lists = parity op zero length other :=
  permuted.foldl_op_eq

theorem parity_cons : parity op zero length (list :: lists) =
    List.zipWith op list (parity op zero length lists) := by
  rw [parity, List.foldl_cons, zipWith_commutative.comm, List.foldl_assoc]
  rfl

/-- The others and the parity give back any one of the lists. -/
theorem parity_recovers (neutral : ∀ value, op zero value = value)
    (inverse : ∀ value, op value value = zero) (sized : list.length = length)
    (same : ∀ other ∈ lists, other.length = length) :
    parity op zero length (lists ++ [parity op zero length (list :: lists)]) = list := by
  have rest : (parity op zero length lists).length = length := length_parity same
  rw [parity_perm (List.perm_append_singleton _ lists), parity_cons, parity_cons,
    zipWith_associative.assoc, zipWith_self_of_involutive inverse, rest, ← sized,
    zipWith_commutative.comm, zipWith_replicate_left neutral]

end Combine

end List

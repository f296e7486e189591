import Mathlib.Algebra.Order.Ring.Int
import Mathlib.Data.List.Basic

/-! # Bisection and signed indices

`bisect` halves an interval of indices until it meets the first entry that does not come before
the query; on a list in which the entries that do all come first it returns their number. Slices
and items with signed indices count a negative index from the end, as sequences do in Python.
-/

namespace List

variable {α : Type*}

/-- Halve `[low, high)` while it is not empty; it shrinks by one at least in every round. -/
def bisectLoop (before : α → Bool) (entries : List α) : ℕ → ℕ → ℕ → ℕ
  | 0, low, _ => low
  | fuel + 1, low, high =>
      if low < high then
        match entries[(low + high) / 2]? with
        | some entry =>
            if before entry then bisectLoop before entries fuel ((low + high) / 2 + 1) high
            else bisectLoop before entries fuel low ((low + high) / 2)
        | none => low
      else low

/-- The insertion point behind the entries that come before the query. -/
def bisect (before : α → Bool) (entries : List α) : ℕ :=
  bisectLoop before entries entries.length 0 entries.length

private theorem bisectLoop_eq {before : α → Bool} {entries : List α} (point : ℕ)
    (head : ∀ index entry, entries[index]? = some entry → index < point → before entry)
    (tail : ∀ index entry, entries[index]? = some entry → point ≤ index → ¬ before entry)
    {fuel low high : ℕ} (lower : low ≤ point) (upper : point ≤ high) (bound : high ≤ entries.length)
    (enough : high - low ≤ fuel) : bisectLoop before entries fuel low high = point := by
  induction fuel generalizing low high with
  | zero => simp only [bisectLoop]; omega
  | succ fuel ih =>
    simp only [bisectLoop]
    split
    · next active =>
      have inside : (low + high) / 2 < entries.length := by omega
      rw [List.getElem?_eq_getElem inside]
      simp only
      split
      · next early =>
        apply ih _ upper bound (by omega)
        by_contra late
        exact tail _ _ (List.getElem?_eq_getElem inside) (by omega) early
      · next late =>
        apply ih lower _ (by omega) (by omega)
        by_contra early
        exact late (head _ _ (List.getElem?_eq_getElem inside) (by omega))
    · omega

/-- Bisection finds the border between the two parts of a partitioned list. -/
theorem bisect_append {before : α → Bool} {front back : List α}
    (head : ∀ entry ∈ front, before entry) (tail : ∀ entry ∈ back, ¬ before entry) :
    (front ++ back).bisect before = front.length := by
  apply bisectLoop_eq front.length _ _ (Nat.zero_le _) (by simp) le_rfl (by simp)
  · intro index entry found early
    rw [List.getElem?_append_left early] at found
    exact head entry (List.mem_of_getElem? found)
  · intro index entry found late
    rw [List.getElem?_append_right late] at found
    exact tail entry (List.mem_of_getElem? found)

/-- An index of a slice, counted from the start and clamped to the length. -/
def sliceIndex (length : ℕ) (index : ℤ) : ℕ :=
  if index < 0 then (index + length).toNat else min index.toNat length

/-- `entries[start:stop]`. -/
def slice (entries : List α) (start stop : ℤ) : List α :=
  (entries.take (sliceIndex entries.length stop)).drop (sliceIndex entries.length start)

/-- `entries[index]`, if the index is within bounds. -/
def item? (entries : List α) (index : ℤ) : Option α :=
  if 0 ≤ index then entries[index.toNat]?
  else if 0 ≤ index + entries.length then entries[(index + entries.length).toNat]?
  else none

@[simp] theorem slice_natCast (entries : List α) (start stop : ℕ) :
    entries.slice start stop = (entries.take stop).drop start := by
  have clamp : ∀ index : ℕ, sliceIndex entries.length index = min index entries.length := by
    intro index
    rw [sliceIndex, if_neg (by omega), Int.toNat_natCast]
  rw [slice, clamp, clamp]
  rcases le_total start entries.length with within | beyond
  · rw [min_eq_left within]
    rcases le_total stop entries.length with short | long
    · rw [min_eq_left short]
    · rw [min_eq_right long, List.take_of_length_le long, List.take_length]
  · rw [min_eq_right beyond, List.drop_eq_nil_of_le (by simp), List.drop_eq_nil_of_le (by simp; omega)]

@[simp] theorem slice_zero_natCast (entries : List α) (stop : ℕ) :
    entries.slice 0 stop = entries.take stop := slice_natCast entries 0 stop

@[simp] theorem item?_natCast (entries : List α) (index : ℕ) :
    entries.item? index = entries[index]? := by
  rw [item?, if_pos (by omega), Int.toNat_natCast]

/-- A cut inside of a window is a cut of the whole, on its left side. -/
theorem take_append_take_window {start width cut : ℕ} (lower : start ≤ cut) (upper : cut ≤ start + width)
    (entries : List α) :
    entries.take start ++ ((entries.drop start).take width).take (cut - start) = entries.take cut := by
  rw [List.take_take, min_eq_left (by omega), ← List.take_add, Nat.add_sub_cancel' lower]

/-- A cut inside of a window is a cut of the whole, on its right side. -/
theorem drop_window_append_drop {start width cut : ℕ} (lower : start ≤ cut) (upper : cut ≤ start + width)
    (entries : List α) :
    ((entries.drop start).take width).drop (cut - start) ++ entries.drop (start + width) =
      entries.drop cut := by
  have later : entries.drop (start + width) = (entries.drop cut).drop (start + width - cut) := by
    rw [List.drop_drop, Nat.add_sub_cancel' upper]
  rw [List.drop_take, List.drop_drop, Nat.add_sub_cancel' lower, later,
    show width - (cut - start) = start + width - cut by omega, List.take_append_drop]

end List

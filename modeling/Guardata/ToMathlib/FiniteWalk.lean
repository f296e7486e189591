import Mathlib.Data.Fintype.Pigeonhole
import Mathlib.Data.Set.Finite.Basic
import Mathlib.Logic.Relation
import Mathlib.Order.WellFounded

/-! # Walks through finitely many places

A walk can only go on for ever through finitely many places if it comes back to one of them.
-/

namespace Relation

variable {α : Type*} {r : α → α → Prop} {a b : α}

/-- From `a`, walking against `r`, one comes to a place that lies behind itself. -/
def ComesBack (r : α → α → Prop) (a : α) : Prop := ∃ b, ReflTransGen r b a ∧ TransGen r b b

theorem not_self_of_acc (acc : Acc r a) : ¬ r a a := by
  induction acc with
  | intro a later ih =>
    intro self
    exact ih a self self

theorem acc_of_reflTransGen (acc : Acc r a) (reached : ReflTransGen r b a) : Acc r b := by
  induction reached using ReflTransGen.head_induction_on with
  | refl => exact acc
  | head step later ih => exact ih.inv step

/-- If only finitely many places can be left, the walks from a place end unless one comes back. -/
theorem acc_iff_not_comesBack (finite : {a | ∃ b, r b a}.Finite) : Acc r a ↔ ¬ ComesBack r a := by
  constructor
  · rintro acc ⟨b, reached, cycle⟩
    exact not_self_of_acc (acc_of_reflTransGen acc reached).transGen cycle
  · intro never
    by_contra endless
    obtain ⟨place, begins, goes⟩ := not_acc_iff_exists_descending_chain.mp endless
    have reached (n m : ℕ) : ReflTransGen r (place (n + m)) (place n) := by
      induction m with
      | zero => exact .refl
      | succ m ih => exact .head (goes (n + m)) ih
    have : Finite {a | ∃ b, r b a} := finite
    obtain ⟨i, j, different, same⟩ := Finite.exists_ne_map_eq_of_infinite
      fun n => (⟨place n, place (n + 1), goes n⟩ : {a | ∃ b, r b a})
    have same : place i = place j := congrArg Subtype.val same
    have from_start (n : ℕ) : ReflTransGen r (place n) a := by
      have walked := reached 0 n
      rwa [Nat.zero_add, begins] at walked
    -- The later one of the two is behind the earlier one.
    have later (i j : ℕ) (before : i < j) (same : place i = place j) : ComesBack r a := by
      obtain ⟨distance, rfl⟩ := Nat.exists_eq_add_of_lt before
      refine ⟨place i, from_start i, ?_⟩
      have behind : TransGen r (place (i + distance + 1)) (place i) :=
        .head' (goes (i + distance)) (reached i distance)
      rwa [← same] at behind
    rcases Nat.lt_or_gt_of_ne different with before | after
    · exact never (later i j before same)
    · exact never (later j i after same.symm)

/-- A loop that goes on along a relation, to one place from each place, ends where the walks end. -/
theorem exists_rounds_iff_acc {ends : ℕ → α → Prop} (one : ∀ a b c, r b a → r c a → b = c)
    (never : ∀ a b, r b a → ¬ ends 0 a) (round : ∀ rounds a, ends (rounds + 1) a ↔ ∀ b, r b a → ends rounds b) :
    (∃ rounds, ends rounds a) ↔ Acc r a := by
  constructor
  · rintro ⟨rounds, ended⟩
    induction rounds generalizing a with
    | zero => exact .intro a fun b step => absurd ended (never a b step)
    | succ rounds ih => exact .intro a fun b step => ih ((round rounds a).mp ended b step)
  · intro acc
    induction acc with
    | intro a later ih =>
      by_cases goes : ∃ b, r b a
      · obtain ⟨b, step⟩ := goes
        obtain ⟨rounds, ended⟩ := ih b step
        refine ⟨rounds + 1, (round rounds a).mpr ?_⟩
        intro c other
        rwa [one a c b other step]
      · exact ⟨1, (round 0 a).mpr fun b step => absurd ⟨b, step⟩ goes⟩

end Relation

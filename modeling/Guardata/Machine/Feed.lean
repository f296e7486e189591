import Mathlib.Data.List.Basic

/-! # A queue of updates and a copy that follows it

Updates are put at the end of a queue and taken from its front, and a copy makes of each update what it makes of
it when it is taken. However the puts and the takes alternate, the copy is what the updates taken so far make of
it; once as many have been taken as there were in the queue at some time, it is what it was going to be then.
-/

namespace Machine

structure Feed (ε σ : Type*) where
  queue : List ε
  copy : σ

namespace Feed

variable {ε σ : Type*} (apply : σ → ε → σ)

/-- What the copy is going to be. -/
def pending (feed : Feed ε σ) : σ := feed.queue.foldl apply feed.copy

/-- Some updates are put in the queue, and some are taken from it. -/
structure Moves (before after : Feed ε σ) (taken pushed : List ε) : Prop where
  queue : before.queue ++ pushed = taken ++ after.queue
  copy : after.copy = taken.foldl apply before.copy

variable {apply} {before between after : Feed ε σ} {taken pushed : List ε}

theorem Moves.refl (feed : Feed ε σ) : Moves apply feed feed [] [] := ⟨List.append_nil _, rfl⟩

theorem Moves.push (queue new : List ε) (copy : σ) : Moves apply ⟨queue, copy⟩ ⟨queue ++ new, copy⟩ [] new :=
  ⟨rfl, rfl⟩

theorem Moves.pop (update : ε) (rest : List ε) (copy : σ) :
    Moves apply ⟨update :: rest, copy⟩ ⟨rest, apply copy update⟩ [update] [] :=
  ⟨List.append_nil _, rfl⟩

theorem Moves.trans {taken' pushed' : List ε} (first : Moves apply before between taken pushed)
    (second : Moves apply between after taken' pushed') :
    Moves apply before after (taken ++ taken') (pushed ++ pushed') := by
  constructor
  · rw [← List.append_assoc, first.queue, List.append_assoc, second.queue, List.append_assoc]
  · rw [second.copy, first.copy, List.foldl_append]

/-- What the copy is going to be is changed by what is put in the queue only. -/
theorem Moves.pending_eq (moves : Moves apply before after taken pushed) :
    after.pending apply = pushed.foldl apply (before.pending apply) := by
  rw [pending, pending, moves.copy, ← List.foldl_append, ← moves.queue, List.foldl_append]

/-- So many updates later, the copy is what it was going to be. -/
theorem Moves.copy_of_length (moves : Moves apply before after taken pushed)
    (length : taken.length = before.queue.length) :
    after.copy = before.pending apply ∧ after.queue = pushed := by
  obtain ⟨same, rest⟩ := List.append_inj moves.queue length.symm
  exact ⟨by rw [moves.copy, pending, same], rest.symm⟩

end Feed

end Machine

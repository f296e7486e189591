import Guardata.Proofs.Winify
import Mathlib.Algebra.Order.BigOperators.Group.List

/-! # What the path of a listed entry reads as

The names of a path are escaped one by one, and the whole path is read at once. No escape crosses a separator, so
every name is read by itself, and nothing that is read is heavier than the names of the path.
-/

namespace Guardata

/-- The length of the canonical decomposition, separators aside: that of a text is that of its normal form. -/
structure CanonicalWeight (normalize : String → String) (weight : Char → ℕ) : Prop extends LightEscapes weight where
  separator : weight '/' = 0
  normalize : ∀ text, weigh weight (normalize text).toList = weigh weight text.toList

section Weigh

variable {normalize : String → String} {weight : Char → ℕ}

theorem weigh_intercalate (none : weight '/' = 0) (parts : List (List Char)) :
    weigh weight (['/'].intercalate parts) = (parts.map (weigh weight)).sum := by
  induction parts with
  | nil => rfl
  | cons part rest ih =>
    cases rest with
    | nil => simp
    | cons next rest =>
      rw [List.intercalate_cons_cons, weigh_append, weigh_append, ih, weigh_cons, none]
      simp

/-- The weight of all names of a path. -/
def weighNames (weight : Char → ℕ) (path : List EntryName) : ℕ := (path.map fun name => weigh weight name.toList).sum

theorem weighNames_addRawPart (canonical : CanonicalWeight normalize weight) {path next : List EntryName}
    {rawPart : String}
    (added : FsPath.addRawPart normalize path rawPart = .ok next) :
    weighNames weight next ≤ weighNames weight path + weigh weight rawPart.toList := by
  unfold FsPath.addRawPart at added
  split at added
  · cases added
    exact Nat.le_add_right _ _
  · split at added
    · cases added
      have fewer : weighNames weight path.dropLast ≤ weighNames weight path :=
        List.Sublist.sum_le_sum ((List.dropLast_sublist path).map _) (by simp)
      omega
    · simp only [Except.bind_eq_ok_iff, Except.pure_eq_ok_iff] at added
      obtain ⟨name, accepted, rfl⟩ := added
      have same := (EntryName.new_eq_ok_iff.mp (Except.mapError_eq_ok_iff.mp accepted)).2
      have added : weighNames weight (path ++ [name]) = weighNames weight path + weigh weight name.toList := by
        simp [weighNames]
      rw [added, ← same, canonical.normalize]

theorem weighNames_addRawParts (canonical : CanonicalWeight normalize weight) {rawParts : List String}
    {path last : List EntryName} (added : rawParts.foldlM (FsPath.addRawPart normalize) path = .ok last) :
    weighNames weight last ≤ weighNames weight path + (rawParts.map fun part => weigh weight part.toList).sum := by
  induction rawParts generalizing path with
  | nil =>
    cases added
    exact Nat.le_add_right _ _
  | cons rawPart rest ih =>
    simp only [List.foldlM_cons, Except.bind_eq_ok_iff] at added
    obtain ⟨next, here, later⟩ := added
    have first := weighNames_addRawPart canonical here
    have after := ih later
    rw [List.map_cons, List.sum_cons]
    omega

/-- A path is not heavier than the text that it was read from. -/
theorem weighNames_parse_le (canonical : CanonicalWeight normalize weight) {raw : String} {path : FsPath}
    (accepted : FsPath.parse normalize raw = .ok path) : weighNames weight path ≤ weigh weight raw.toList := by
  simp only [FsPath.parse, Except.bind_eq_ok_iff, Except.require_eq_ok_iff, exists_const] at accepted
  have parts := weighNames_addRawParts canonical accepted.2
  have whole : (raw.toList.splitOn '/').map (weigh weight) =
      ((raw.toList.splitOn '/').map String.ofList).map fun part => weigh weight part.toList := by
    simp
  have text := weigh_intercalate canonical.separator (raw.toList.splitOn '/')
  rw [List.intercalate_splitOn, whole] at text
  rw [text]
  exact parts.trans_eq (Nat.zero_add _)

end Weigh

section Paths

variable {path : FsPath}

/-- The texts that are shown of the names of a path. -/
theorem exists_presented_path (nonempty : ∀ name ∈ path, name ≠ "") : ∃ shown : List (List Char),
    path.mapM winifyEntryName = .ok (shown.map String.ofList) ∧
      List.Forall₂ (fun text (name : EntryName) =>
        Presented (slashed '/' text) (asSeen '/' name.toList)) shown path := by
  induction path with
  | nil => exact ⟨[], rfl, .nil⟩
  | cons name rest ih =>
    rw [List.forall_mem_cons] at nonempty
    have some : name.toList ≠ [] := fun nil => nonempty.1 (String.toList_eq_nil_iff.mp nil)
    obtain ⟨text, escaped, shown⟩ := exists_presented '/' some
    obtain ⟨texts, later, rel⟩ := ih nonempty.2
    rw [String.ofList_toList] at escaped
    refine ⟨text :: texts, ?_, .cons shown rel⟩
    rw [List.mapM_cons, escaped, later]
    rfl

/-- Every part of a path is read by itself. -/
theorem unescape_intercalate (parts : List (List Char)) :
    unescape (['/'].intercalate parts) = (parts.mapM unescape).map ['/'].intercalate := by
  induction parts with
  | nil => rfl
  | cons part rest ih =>
    cases rest with
    | nil =>
      rw [List.intercalate_singleton, List.mapM_cons, List.mapM_nil]
      cases unescape part <;> simp [Except.map, pure, Except.pure, bind, Except.bind]
    | cons next rest =>
      have split : (part :: next :: rest).mapM unescape = do
          let front ← unescape part
          let back ← (next :: rest).mapM unescape
          return front :: back := List.mapM_cons
      rw [split, List.intercalate_cons_cons, List.append_assoc, List.singleton_append, unescape_append_slash, ih]
      cases unescape part with
      | error err => rfl
      | ok front =>
        cases others : (next :: rest).mapM unescape with
        | error err => rfl
        | ok back =>
          cases back with
          | nil =>
            rw [List.mapM_cons] at others
            simp only [Except.bind_eq_ok_iff, Except.pure_eq_ok_iff, reduceCtorEq, and_false, exists_false] at others
          | cons other others => simp [Except.map, pure, Except.pure, bind, Except.bind, List.intercalate_cons_cons]

theorem unescape_path (parts : List (List Char)) :
    unescape ('/' :: ['/'].intercalate parts) = (parts.mapM unescape).map fun decoded =>
      '/' :: ['/'].intercalate decoded := by
  rw [unescape_cons '/' _ nofun, unescape_intercalate]
  cases parts.mapM unescape <;> rfl

end Paths

end Guardata

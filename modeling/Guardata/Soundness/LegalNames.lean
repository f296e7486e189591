import Guardata.Proofs.Winify

/-! # Windows takes the names that are shown

The conditional of `winify_entry_name` either escapes a reserved word or the reserved characters. Behind a word the
reserved characters stay, and that is all that can be wrong with a name.
-/

namespace Guardata

/-- Windows takes what is shown of a name if and only if no reserved character stands behind a reserved word. -/
theorem winify_legal_iff (normalize : String → String) (form : NormalForm normalize) :
    ∀ name, EntryName.IsValid normalize name → ∃ shown, winifyEntryName name = .ok shown ∧
      (IsLegal shown ↔ ¬ (isReservedName name.toList ∧ ∃ char ∈ win32ResChars, char ∈ name.toList)) := by
  intro name valid
  have some : name ≠ "" := fun nil => valid.plain form (by simp [nil])
  have nonempty : name.toList ≠ [] := fun nil => some (String.toList_eq_nil_iff.mp nil)
  cases reserved : isReservedName name.toList with
  | false =>
    obtain ⟨shown, escaped, rel, free, -⟩ := exists_winify_other nonempty reserved
    rw [String.ofList_toList] at escaped
    refine ⟨_, escaped, iff_of_true ⟨?_, ?_, winify_ends some escaped⟩ (by simp)⟩
    · rwa [String.toList_ofList]
    · rw [String.toList_ofList]
      by_cases tilde : '~' ∈ firstPart shown
      · exact not_isReservedName_of_tilde tilde
      · rw [isReservedName, ← rel.firstPart_eq (List.Subset.refl _) tilde]
        exact reserved
  | true =>
    obtain ⟨front, last, back, split, escaped, rel, reads, letters, -⟩ := exists_winify_reserved reserved
    rw [String.ofList_toList] at escaped
    refine ⟨_, escaped, ?_⟩
    have noDots : ∀ char ∈ front, decide (char ≠ '.') := by
      intro char member
      refine decide_eq_true fun dot => (letters char (List.mem_append_left _ member)).1 ?_
      rw [dot]
      decide
    have tilde : '~' ∈ firstPart (front ++ (escapeChar last ++ back)) := by
      obtain ⟨high, low, shape, -⟩ := exists_of_readsBack reads
      rw [firstPart, List.takeWhile_append_of_pos noDots, shape]
      simp
    have chars {char : Char} (special : char ∈ win32ResChars) :
        char ∈ front ++ (escapeChar last ++ back) ↔ char ∈ name.toList := by
      have known := reservedChars_subset special
      have word : char ∉ front ++ [last] := fun member => (letters char member).1 known
      have absent : char ∉ escapeChar last := fun here => not_mem_of_mem_escapeChar reads here known
      have free : char ∉ ['.', ' '] := by
        have : ∀ char ∈ win32ResChars, char ∉ ['.', ' '] := by decide
        exact this char special
      rw [List.mem_append, List.mem_singleton, not_or] at word
      conv_rhs => rw [split]
      simp only [List.mem_append, List.mem_cons, word, absent, false_or, rel.mem_iff badEnds_subset known free]
    have ends := winify_ends some escaped
    rw [String.toList_ofList] at ends
    rw [IsLegal, String.toList_ofList]
    constructor
    · rintro ⟨free, -⟩ ⟨-, char, special, member⟩
      exact free char special ((chars special).mpr member)
    · intro free
      refine ⟨?_, not_isReservedName_of_tilde tilde, ends⟩
      exact fun char special member => free ⟨rfl, char, special, (chars special).mp member⟩

section Example

/-- The colon stays behind the reserved word. -/
theorem colon_stays_behind_reserved_word : EntryName.new id "CON.a:b" = .ok "CON.a:b" ∧
    winifyEntryName "CON.a:b" = .ok "CO~4e.a:b" ∧ ¬ IsLegal "CO~4e.a:b" := by
  decide +kernel

/-- A reserved word with a blank at the end. -/
theorem winify_legal_iff_word : ∃ shown, winifyEntryName "AUX.tar " = .ok shown ∧ IsLegal shown := by
  have form : NormalForm id := ⟨fun _ => rfl, fun _ clean => clean, fun _ _ => rfl⟩
  obtain ⟨shown, winified, legal⟩ := winify_legal_iff id form "AUX.tar " ⟨"AUX.tar ", by decide⟩
  exact ⟨shown, winified, legal.mpr (by decide +kernel)⟩

end Example

end Guardata

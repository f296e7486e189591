import Guardata.Proofs.Escapes

/-! # What is shown of a name

What the conditional of `winify_entry_name` leaves is an escaped text, behind a word with an escaped last letter
or without one. Behind a word the reserved characters stay as they are, and the backslashes of a path are replaced
after its names were escaped.
-/

namespace Guardata

section Winify

theorem escapeLast_of_ne_nil (test : Char → Bool) {name : List Char} (nonempty : name ≠ []) :
    escapeLast test name =
      .ok (if test (name.getLast nonempty) then name.dropLast ++ escapeChar (name.getLast nonempty) else name) := by
  rw [escapeLast, List.getLast?_eq_getLast_of_ne_nil nonempty]

theorem escapeLast_append (test : Char → Bool) (front : List Char) {name : List Char} (nonempty : name ≠ []) :
    escapeLast test (front ++ name) = (escapeLast test name).map (front ++ ·) := by
  rw [escapeLast_of_ne_nil test nonempty,
    escapeLast_of_ne_nil test (List.append_ne_nil_of_right_ne_nil front nonempty),
    List.getLast_append_of_ne_nil _ nonempty, List.dropLast_append_of_ne_nil nonempty]
  split <;> simp [Except.map]

/-- A dot or a blank, as it is not wanted at the end. -/
def badEnd (last : Char) : Bool := last = '.' ∨ last = ' '

theorem badEnd_iff {last : Char} : badEnd last ↔ last ∈ ['.', ' '] := by
  simp [badEnd]

theorem badEnds_subset : ['.', ' '] ⊆ escapedChars := List.subset_append_right _ _

theorem reservedChars_subset : win32ResChars ⊆ escapedChars := List.subset_append_left _ _

/-- An escape is made of characters that are not escaped. -/
theorem not_mem_of_mem_escapeChar {char other : Char} (reads : readsBack char) (member : other ∈ escapeChar char) :
    other ∉ escapedChars := by
  obtain ⟨high, low, shape, digitHigh, digitLow, -⟩ := exists_of_readsBack reads
  have digit {digit : Char} (isDigit : isHexDigit digit) : digit ∉ escapedChars := fun member => by
    simp [(not_digit_of_mem member).1] at isDigit
  simp only [shape, List.mem_cons, List.not_mem_nil, or_false] at member
  rcases member with rfl | rfl | rfl
  · exact fun member => (not_digit_of_mem member).2.1 rfl
  · exact digit digitHigh
  · exact digit digitLow

/-- Escaping the last character of an escaped text gives an escaped text that ends well. -/
theorem exists_escapeLast {special escaped name : List Char} (known : special ⊆ escapedChars)
    (ends : ['.', ' '] ⊆ special) (rel : Escaped special escaped name) (nonempty : escaped ≠ []) :
    ∃ shown, escapeLast badEnd escaped = .ok shown ∧ Escaped special shown name ∧
      (∀ char ∈ escapedChars, char ∈ shown → char ∈ escaped) ∧ ∃ last, shown.getLast? = some last ∧ ¬ badEnd last := by
  have atEnd := List.getLast?_eq_getLast_of_ne_nil nonempty
  rw [escapeLast_of_ne_nil badEnd nonempty]
  split
  · next bad =>
    have member := badEnd_iff.mp bad
    have reads := readsBack_of_mem (badEnds_subset member)
    obtain ⟨high, low, shape, -, digit, -⟩ := exists_of_readsBack reads
    refine ⟨_, rfl, rel.escapeLast known atEnd (ends member), ?_, low, by simp [shape], ?_⟩
    · intro char special member
      rcases List.mem_append.mp member with before | here
      · exact List.mem_of_mem_dropLast before
      · exact absurd special (not_mem_of_mem_escapeChar reads here)
    · intro bad
      simp [(not_digit_of_mem (badEnds_subset (badEnd_iff.mp bad))).1] at digit
  · next good => exact ⟨_, rfl, rel, fun _ _ member => member, _, atEnd, good⟩

theorem replaceReserved_flatMap {done : List Char} (known : done ⊆ escapedChars) {reserved : Char}
    (special : reserved ∈ escapedChars) (name : List Char) :
    replaceReserved (name.flatMap fun char => if char ∈ done then escapeChar char else [char]) reserved =
      name.flatMap fun char => if char ∈ done ++ [reserved] then escapeChar char else [char] := by
  rw [replaceReserved, List.flatMap_assoc]
  congr 1
  funext char
  by_cases before : char ∈ done
  · have still : (escapeChar char).flatMap (fun other => if other = reserved then escapeChar reserved else [other]) =
        escapeChar char := by
      conv_rhs => rw [← List.flatMap_singleton' (escapeChar char)]
      refine List.flatMap_congr fun other member => if_neg ?_
      rintro rfl
      exact not_mem_of_mem_escapeChar (readsBack_of_mem (known before)) member special
    rw [if_pos before, if_pos (List.mem_append_left _ before), still]
  · rw [if_neg before, List.flatMap_singleton]
    by_cases here : char = reserved
    · rw [if_pos here, if_pos (by simp [here]), here]
    · rw [if_neg here, if_neg (by simp [before, here])]

/-- Replacing one reserved character after the other escapes them all. -/
theorem foldl_replaceReserved {done chars : List Char} (known : done ⊆ escapedChars) (reserved : chars ⊆ escapedChars)
    (name : List Char) :
    chars.foldl replaceReserved (name.flatMap fun char => if char ∈ done then escapeChar char else [char]) =
      name.flatMap fun char => if char ∈ done ++ chars then escapeChar char else [char] := by
  induction chars generalizing done with
  | nil => rw [List.foldl_nil, List.append_nil]
  | cons char rest ih =>
    have special : char ∈ escapedChars := reserved (List.mem_cons_self ..)
    rw [List.foldl_cons, replaceReserved_flatMap known special,
      ih (List.append_subset.mpr ⟨known, List.cons_subset.mpr ⟨special, List.nil_subset _⟩⟩)
        (List.Subset.trans (List.subset_cons_self ..) reserved),
      List.append_assoc, List.singleton_append]

theorem replaceAll_eq (name : List Char) : win32ResChars.foldl replaceReserved name =
    name.flatMap fun char => if char ∈ win32ResChars then escapeChar char else [char] := by
  have := foldl_replaceReserved (List.nil_subset escapedChars) reservedChars_subset name
  simpa using this

theorem not_mem_replaceAll {name : List Char} {char : Char} (reserved : char ∈ win32ResChars) :
    char ∉ name.flatMap fun char => if char ∈ win32ResChars then escapeChar char else [char] := by
  intro member
  obtain ⟨other, -, here⟩ := List.mem_flatMap.mp member
  split at here
  · next special =>
    exact not_mem_of_mem_escapeChar (readsBack_of_mem (reservedChars_subset special)) here
      (reservedChars_subset reserved)
  · next free => exact free (List.mem_singleton.mp here ▸ reserved)

/-- What is shown of a name that is not a reserved word. -/
theorem exists_winify_other {name : List Char} (nonempty : name ≠ []) (other : isReservedName name = false) :
    ∃ shown, winifyEntryName (.ofList name) = .ok (.ofList shown) ∧ Escaped escapedChars shown name ∧
      (∀ char ∈ win32ResChars, char ∉ shown) ∧ ∃ last, shown.getLast? = some last ∧ ¬ badEnd last := by
  have rel : Escaped escapedChars (win32ResChars.foldl replaceReserved name) name := by
    rw [replaceAll_eq]
    exact (Escaped.flatMap win32ResChars name).mono reservedChars_subset
  have some : win32ResChars.foldl replaceReserved name ≠ [] := fun nil => nonempty (rel.eq_nil_iff.mp nil)
  obtain ⟨shown, escaped, rel, kept, ends⟩ := exists_escapeLast (List.Subset.refl _) badEnds_subset rel some
  refine ⟨shown, ?_, rel, ?_, ends⟩
  · have : escapeReserved name = .ok (win32ResChars.foldl replaceReserved name) := by
      rw [escapeReserved, if_neg (by simp [other])]
    rw [winifyEntryName, String.toList_ofList, this, Except.ok_bind]
    exact congrArg (Except.bind · _) escaped
  · intro char reserved member
    have before := kept char (reservedChars_subset reserved) member
    rw [replaceAll_eq] at before
    exact not_mem_replaceAll reserved before

/-- The words are made of letters and digits. -/
theorem exists_of_reservedWord {word : String} (reserved : word ∈ win32ResNames) : ∃ front last,
    word.toList = front ++ [last] ∧ readsBack last ∧
      ∀ char ∈ front ++ [last], char ∉ escapedChars ∧ char ≠ '~' ∧ char ≠ '/' := by
  have all : ∀ word ∈ win32ResNames, word.toList ≠ [] ∧ readsBack (word.toList.getLastD '~') ∧
      ∀ char ∈ word.toList, char ∉ escapedChars ∧ char ≠ '~' ∧ char ≠ '/' := by decide +kernel
  obtain ⟨nonempty, reads, plain⟩ := all word reserved
  have split := List.dropLast_append_getLast nonempty
  rw [List.getLastD_eq_getLast?, List.getLast?_eq_getLast_of_ne_nil nonempty, Option.getD_some] at reads
  exact ⟨_, _, split.symm, reads, by rwa [split]⟩

/-- What is shown of a name with a reserved word in front. -/
theorem exists_winify_reserved {name : List Char} (reserved : isReservedName name) : ∃ front last back,
    name = front ++ last :: fullSuffix name ∧
      winifyEntryName (.ofList name) = .ok (.ofList (front ++ (escapeChar last ++ back))) ∧
      Escaped ['.', ' '] back (fullSuffix name) ∧ readsBack last ∧
      (∀ char ∈ front ++ [last], char ∉ escapedChars ∧ char ≠ '~' ∧ char ≠ '/') ∧
      ∃ last', (escapeChar last ++ back).getLast? = some last' ∧ ¬ badEnd last' := by
  obtain ⟨front, last, word, reads, plain⟩ := exists_of_reservedWord (of_decide_eq_true reserved)
  rw [String.toList_ofList] at word
  have split : name = front ++ last :: fullSuffix name := by
    conv_lhs => rw [← List.takeWhile_append_dropWhile (p := (· ≠ '.')) (l := name)]
    rw [← firstPart, ← fullSuffix, word, List.append_assoc, List.singleton_append]
  have first : escapeReserved name = .ok (front ++ (escapeChar last ++ fullSuffix name)) := by
    rw [escapeReserved, if_pos reserved, word, escapeLast_of_ne_nil _ (by simp)]
    simp [Except.map]
  obtain ⟨high, low, shape, -, digit, -⟩ := exists_of_readsBack reads
  have escaped : escapeLast badEnd (front ++ (escapeChar last ++ fullSuffix name)) =
      (escapeLast badEnd (escapeChar last ++ fullSuffix name)).map (front ++ ·) :=
    escapeLast_append badEnd front (by simp [shape])
  have ends : ∃ back, escapeLast badEnd (escapeChar last ++ fullSuffix name) = .ok (escapeChar last ++ back) ∧
      Escaped ['.', ' '] back (fullSuffix name) ∧
      ∃ last', (escapeChar last ++ back).getLast? = some last' ∧ ¬ badEnd last' := by
    by_cases none : fullSuffix name = []
    · have good : ¬ badEnd low := fun bad => by
        simp [(not_digit_of_mem (badEnds_subset (badEnd_iff.mp bad))).1] at digit
      refine ⟨[], ?_, by rw [none]; exact .nil, low, by simp [shape], good⟩
      rw [none, List.append_nil, escapeLast_of_ne_nil _ (by simp [shape]), if_neg (by simpa [shape] using good)]
    · obtain ⟨back, shown, rel, -, last', atEnd, good⟩ :=
        exists_escapeLast badEnds_subset (List.Subset.refl _) (Escaped.refl ['.', ' '] (fullSuffix name)) none
      refine ⟨back, ?_, rel, last', ?_, good⟩
      · rw [escapeLast_append badEnd _ none, shown]
        rfl
      · rw [List.getLast?_append, atEnd]
        rfl
  obtain ⟨back, shown, rel, good⟩ := ends
  refine ⟨front, last, back, split, ?_, rel, reads, plain, good⟩
  rw [winifyEntryName, String.toList_ofList, first, Except.ok_bind]
  exact congrArg (Except.bind · _) (escaped.trans (congrArg (Except.map _) shown))

end Winify

section Legal

/-- What `_WIN32_RES_CHARS` and `_WIN32_RES_NAMES` are there for. -/
def IsLegal (shown : String) : Prop :=
  (∀ char ∈ win32ResChars, char ∉ shown.toList) ∧ isReservedName shown.toList = false ∧
    shown.toList.getLast? ≠ some '.' ∧ shown.toList.getLast? ≠ some ' '

instance (shown : String) : Decidable (IsLegal shown) := inferInstanceAs (Decidable (_ ∧ _))

/-- Characters that are not escaped are in the escaped text if and only if they were in the name. -/
theorem Escaped.mem_iff {special escaped name : List Char} (known : special ⊆ escapedChars)
    (rel : Escaped special escaped name) {char : Char} (reserved : char ∈ escapedChars) (free : char ∉ special) :
    char ∈ escaped ↔ char ∈ name := by
  induction rel with
  | nil => exact Iff.rfl
  | keep other rest ih => simp [ih]
  | @escape other member escaped name rest ih =>
    have absent : char ∉ escapeChar other :=
      fun here => not_mem_of_mem_escapeChar (readsBack_of_mem (known member)) here reserved
    have different : char ≠ other := fun same => free (same ▸ member)
    simp [absent, different, ih]

/-- An escape in front of the first dot is seen there. -/
theorem Escaped.firstPart_eq {special escaped name : List Char} (known : special ⊆ escapedChars)
    (rel : Escaped special escaped name) (plain : '~' ∉ firstPart escaped) : firstPart name = firstPart escaped := by
  induction rel with
  | nil => rfl
  | keep char rest ih =>
    by_cases dot : char = '.'
    · simp [firstPart, dot]
    · simp only [firstPart, ne_eq, dot, not_false_eq_true, decide_true, List.takeWhile_cons_of_pos,
        List.mem_cons, not_or] at plain ⊢
      rw [← firstPart, ← firstPart, ih plain.2]
  | @escape char member escaped name rest ih =>
    obtain ⟨high, low, shape, -⟩ := exists_of_readsBack (readsBack_of_mem (known member))
    exact absurd (by simp [firstPart, shape]) plain

theorem not_isReservedName_of_tilde {name : List Char} (tilde : '~' ∈ firstPart name) :
    isReservedName name = false := by
  refine Bool.eq_false_iff.mpr fun reserved => ?_
  obtain ⟨front, last, word, -, letters⟩ := exists_of_reservedWord (of_decide_eq_true reserved)
  rw [String.toList_ofList] at word
  exact (letters '~' (word ▸ tilde)).2.1 rfl

theorem not_badEnd {last : Option Char} : (∃ char, last = some char ∧ ¬ badEnd char) →
    last ≠ some '.' ∧ last ≠ some ' ' := by
  rintro ⟨char, rfl, good⟩
  constructor
  · rintro ⟨⟩
    exact good (by decide)
  · rintro ⟨⟩
    exact good (by decide)

/-- What is shown ends neither with a dot nor with a blank. -/
theorem winify_ends {name shown : String} (nonempty : name ≠ "") (shows : winifyEntryName name = .ok shown) :
    shown.toList.getLast? ≠ some '.' ∧ shown.toList.getLast? ≠ some ' ' := by
  have some : name.toList ≠ [] := fun nil => nonempty (String.toList_eq_nil_iff.mp nil)
  cases reserved : isReservedName name.toList with
  | false =>
    obtain ⟨text, escaped, -, -, ends⟩ := exists_winify_other some reserved
    rw [String.ofList_toList, shows] at escaped
    rw [Except.ok.inj escaped, String.toList_ofList]
    exact not_badEnd ends
  | true =>
    obtain ⟨front, last, back, -, escaped, -, -, -, lastShown, atEnd, good⟩ := exists_winify_reserved reserved
    rw [String.ofList_toList, shows] at escaped
    rw [Except.ok.inj escaped, String.toList_ofList]
    refine not_badEnd ⟨lastShown, ?_, good⟩
    rw [List.getLast?_append, atEnd]
    rfl

/-- A name is shown as it is if and only if Windows takes it. -/
theorem winify_eq_self_iff {name : String} (nonempty : name ≠ "") : winifyEntryName name = .ok name ↔ IsLegal name := by
  have some : name.toList ≠ [] := fun nil => nonempty (String.toList_eq_nil_iff.mp nil)
  constructor
  · intro same
    cases reserved : isReservedName name.toList with
    | false =>
      obtain ⟨shown, escaped, -, free, ends⟩ := exists_winify_other some reserved
      rw [String.ofList_toList, same] at escaped
      obtain rfl : name.toList = shown := by rw [Except.ok.inj escaped, String.toList_ofList]
      exact ⟨free, reserved, not_badEnd ends⟩
    | true =>
      obtain ⟨front, last, back, split, escaped, -, reads, letters, -⟩ := exists_winify_reserved reserved
      rw [String.ofList_toList, same] at escaped
      have text := congrArg String.toList (Except.ok.inj escaped)
      obtain ⟨high, low, shape, -⟩ := exists_of_readsBack reads
      rw [String.toList_ofList, shape, split] at text
      have tilde : last = '~' := (List.cons.inj (List.append_cancel_left text)).1
      exact absurd tilde (letters last (by simp)).2.1
  · rintro ⟨free, reserved, ends⟩
    have kept : win32ResChars.foldl replaceReserved name.toList = name.toList := by
      rw [replaceAll_eq]
      conv_rhs => rw [← List.flatMap_singleton' name.toList]
      exact List.flatMap_congr fun char member => if_neg fun special => free char special member
    have good : ¬ badEnd (name.toList.getLast some) := by
      have atEnd := List.getLast?_eq_getLast_of_ne_nil some
      rw [atEnd, ne_eq, Option.some.injEq, ne_eq, Option.some.injEq] at ends
      simpa [badEnd] using ends
    have first : escapeReserved name.toList = .ok name.toList := by
      rw [escapeReserved, if_neg (by simp [reserved]), kept]
    have second : escapeLast badEnd name.toList = .ok name.toList := by
      rw [escapeLast_of_ne_nil badEnd some, if_neg good]
    rw [winifyEntryName, first, Except.ok_bind]
    exact (congrArg (Except.bind · _) second).trans (congrArg Except.ok String.ofList_toList)

end Legal

section Present

/-- A text as it is when something stands in the place of its backslashes. -/
def slashed (sep : Char) (text : List Char) : List Char := text.map fun char => if char = '\\' then sep else char

variable {sep : Char}

@[simp] theorem slashed_nil : slashed sep [] = [] := rfl

@[simp] theorem slashed_cons (char : Char) (rest : List Char) :
    slashed sep (char :: rest) = (if char = '\\' then sep else char) :: slashed sep rest := rfl

@[simp] theorem slashed_append (first second : List Char) :
    slashed sep (first ++ second) = slashed sep first ++ slashed sep second := List.map_append

theorem slashed_of_not_mem {text : List Char} (plain : '\\' ∉ text) : slashed sep text = text := by
  have same : ∀ char ∈ text, (if char = '\\' then sep else char) = char := by
    intro char member
    refine if_neg ?_
    rintro rfl
    exact plain member
  exact (List.map_congr_left same).trans (List.map_id _)

@[simp] theorem slashed_self (text : List Char) : slashed '\\' text = text := by
  have same : ∀ char ∈ text, (if char = '\\' then '\\' else char) = char := by
    intro char _
    split
    · next backslash => exact backslash.symm
    · rfl
  exact (List.map_congr_left same).trans (List.map_id _)

theorem slashed_escapeChar {char : Char} (reads : readsBack char) : slashed sep (escapeChar char) = escapeChar char :=
  slashed_of_not_mem fun member => not_mem_of_mem_escapeChar reads member (by decide)

theorem Escaped.slashed {special escaped name : List Char} (known : special ⊆ escapedChars) (other : '\\' ∉ special)
    (rel : Escaped special escaped name) : Escaped special (slashed sep escaped) (slashed sep name) := by
  induction rel with
  | nil => exact .nil
  | keep char rest ih => exact .keep _ ih
  | @escape char member escaped name rest ih =>
    have free : char ≠ '\\' := by
      rintro rfl
      exact other member
    rw [slashed_append, slashed_escapeChar (readsBack_of_mem (known member)), slashed_cons, if_neg free]
    exact .escape member ih

theorem startsWithDigits_slashed (slash : sep = '\\' ∨ sep = '/') (name : List Char) :
    startsWithDigits (slashed sep name) = startsWithDigits name := by
  have digit (char : Char) : isHexDigit (if char = '\\' then sep else char) = isHexDigit char := by
    split
    · next backslash =>
      subst backslash
      rcases slash with rfl | rfl
      · rfl
      · decide
    · rfl
  match name with
  | [] => rfl
  | [_] => rfl
  | high :: low :: rest => simp only [slashed_cons, startsWithDigits, digit]

theorem hasEscape_slashed (slash : sep = '\\' ∨ sep = '/') (name : List Char) :
    hasEscape (slashed sep name) = hasEscape name := by
  induction name with
  | nil => rfl
  | cons char rest ih =>
    have tilde : ((if char = '\\' then sep else char) = '~') = (char = '~') := by
      split
      · next backslash => rcases slash with rfl | rfl <;> simp [backslash]
      · rfl
    simp only [slashed_cons, hasEscape, tilde, startsWithDigits_slashed slash, ih]

/-- What is presented in the place of a name: a word with an escaped last letter may stand in front. -/
inductive Presented : List Char → List Char → Prop
  | plain {escaped name : List Char} (rel : Escaped escapedChars escaped name) : Presented escaped name
  | word {front : List Char} {last : Char} (reads : readsBack last)
      (letters : ∀ char ∈ front ++ [last], char ∉ escapedChars ∧ char ≠ '~' ∧ char ≠ '/')
      {escaped name : List Char} (rel : Escaped escapedChars escaped name) :
      Presented (front ++ (escapeChar last ++ escaped)) (front ++ last :: name)

namespace Presented

variable {escaped name : List Char}

theorem unescape_eq (shown : Presented escaped name) (plain : hasEscape name = false) :
    unescape escaped = .ok name := by
  cases shown with
  | plain rel => exact rel.unescape_eq (List.Subset.refl _) plain
  | @word front last reads letters escaped name rel =>
    obtain ⟨high, low, shape, digitHigh, digitLow, converted⟩ := exists_of_readsBack reads
    have free : '~' ∉ front := fun member => (letters '~' (List.mem_append_left _ member)).2.1 rfl
    have other : last ≠ '~' := (letters last (by simp)).2.1
    have back : hasEscape name = false := by
      rw [hasEscape_append free] at plain
      simpa [hasEscape, other] using plain
    rw [unescape_append free, shape, List.cons_append, List.cons_append, List.singleton_append, unescape,
      if_pos ⟨rfl, digitHigh, digitLow⟩, converted, rel.unescape_eq (List.Subset.refl _) back]
    rfl

theorem weigh_le {weight : Char → ℕ} (light : LightEscapes weight) (shown : Presented escaped name)
    {decoded : List Char} (reads : unescape escaped = .ok decoded) :
    weigh weight decoded ≤ weigh weight name ∧ (hasEscape name → weigh weight decoded < weigh weight name) := by
  cases shown with
  | plain rel => exact rel.weigh_le (List.Subset.refl _) light reads
  | @word front last readsLast letters escaped name rel =>
    obtain ⟨high, low, shape, digitHigh, digitLow, converted⟩ := exists_of_readsBack readsLast
    have free : '~' ∉ front := fun member => (letters '~' (List.mem_append_left _ member)).2.1 rfl
    have other : hasEscape (front ++ last :: name) = hasEscape name := by
      rw [hasEscape_append free]
      simp [hasEscape, (letters last (by simp)).2.1]
    rw [unescape_append free, shape, List.cons_append, List.cons_append, List.singleton_append, unescape,
      if_pos ⟨rfl, digitHigh, digitLow⟩, converted, Except.ok_bind, Except.map_eq_ok_iff] at reads
    simp only [Except.bind_eq_ok_iff, Except.pure_eq_ok_iff] at reads
    obtain ⟨_, ⟨more, later, rfl⟩, rfl⟩ := reads
    have step := rel.weigh_le (List.Subset.refl _) light later
    rw [other, weigh_append, weigh_append, weigh_cons, weigh_cons]
    exact ⟨by omega, fun own => by have := step.2 own; omega⟩

end Presented

/-- What a name becomes when its backslashes are replaced after it was escaped: behind a word they are not
escaped. -/
def asSeen (sep : Char) (name : List Char) : List Char := if isReservedName name then slashed sep name else name

theorem exists_presented (sep : Char) {name : List Char} (nonempty : name ≠ []) : ∃ shown,
    winifyEntryName (.ofList name) = .ok (.ofList shown) ∧ Presented (slashed sep shown) (asSeen sep name) := by
  cases reserved : isReservedName name with
  | false =>
    obtain ⟨shown, escaped, rel, free, -⟩ := exists_winify_other nonempty reserved
    refine ⟨shown, escaped, ?_⟩
    rw [slashed_of_not_mem (free '\\' (by decide)), asSeen, if_neg (by simp [reserved])]
    exact .plain rel
  | true =>
    obtain ⟨front, last, back, split, escaped, rel, reads, letters, -⟩ := exists_winify_reserved reserved
    refine ⟨_, escaped, ?_⟩
    have front_free : '\\' ∉ front := fun member => (letters '\\' (List.mem_append_left _ member)).1 (by decide)
    have last_free : last ≠ '\\' := by
      rintro rfl
      exact (letters '\\' (by simp)).1 (by decide)
    rw [asSeen, if_pos reserved, split, slashed_append, slashed_append, slashed_append, slashed_cons,
      slashed_of_not_mem front_free, slashed_escapeChar reads, if_neg last_free]
    exact .word reads letters ((rel.slashed badEnds_subset (by decide)).mono badEnds_subset)

theorem hasEscape_asSeen (slash : sep = '\\' ∨ sep = '/') (name : List Char) :
    hasEscape (asSeen sep name) = hasEscape name := by
  rw [asSeen]
  split
  · exact hasEscape_slashed slash name
  · rfl

/-- Separators weigh nothing. -/
theorem weigh_slashed {weight : Char → ℕ} (light : LightEscapes weight) (none : weight '/' = 0) (name : List Char) :
    weigh weight (slashed '/' name) ≤ weigh weight name ∧
      ('\\' ∈ name → weigh weight (slashed '/' name) < weigh weight name) := by
  induction name with
  | nil => exact ⟨le_rfl, nofun⟩
  | cons char rest ih =>
    rw [slashed_cons, weigh_cons, weigh_cons]
    by_cases backslash : char = '\\'
    · have some := light.pos '\\' (by decide)
      rw [if_pos backslash, none, backslash]
      exact ⟨by omega, fun _ => by omega⟩
    · rw [if_neg backslash]
      refine ⟨by omega, fun member => ?_⟩
      have later := ih.2 ((List.mem_cons.mp member).resolve_left fun same => backslash same.symm)
      omega

end Present

end Guardata

import Guardata.Model.Winify
import Guardata.Proofs.EntryPaths

/-! # What escaped names read as

An escape begins with a `~` and goes on with two digits, none of which is a `~`: escapes never overlap, and
reading takes every one of them for a character. So a name with an escape of its own comes back shorter, and
every other name comes back as it was.
-/

namespace Guardata

/-- Two hexadecimal digits in front. -/
def startsWithDigits : List Char → Bool
  | high :: low :: _ => isHexDigit high && isHexDigit low
  | _ => false

/-- Something in the name looks like an escape. -/
def hasEscape : List Char → Bool
  | [] => false
  | char :: rest => (char = '~' && startsWithDigits rest) || hasEscape rest

section Read

/-- What `unwinify_entry_name` does, from left to right. -/
def unescape : List Char → Except TextError (List Char)
  | char :: high :: low :: rest =>
      if char = '~' ∧ isHexDigit high ∧ isHexDigit low then do
        let converted ← convertEscape [char, high, low]
        let more ← unescape rest
        return converted :: more
      else (unescape (high :: low :: rest)).map (char :: ·)
  | short => .ok short

theorem splitEscapes_ne_nil (name : List Char) : splitEscapes name ≠ [] := by
  fun_induction splitEscapes name with
  | case1 => simp
  | case2 _ _ _ _ _ ih => simpa using ih
  | case3 => simp

theorem convertParts_splitEscapes (name : List Char) : convertParts false (splitEscapes name) = unescape name := by
  fun_induction splitEscapes name with
  | case1 char high low rest escape ih =>
    rw [unescape, if_pos escape, ← ih]
    obtain ⟨part, parts, split⟩ := List.exists_cons_of_ne_nil (splitEscapes_ne_nil rest)
    simp only [split, convertParts, convertPart, Bool.not_false, Bool.not_true, if_true, Bool.false_eq_true, if_false]
    cases convertEscape [char, high, low] with
    | error err => rfl
    | ok converted => cases convertParts false (part :: parts) <;> rfl
  | case2 char high low rest other ih =>
    rw [unescape, if_neg other, ← ih]
    obtain ⟨part, parts, split⟩ := List.exists_cons_of_ne_nil (splitEscapes_ne_nil (high :: low :: rest))
    rw [split, List.modifyHead_cons]
    cases parts with
    | nil => rfl
    | cons next rest =>
      simp only [convertParts, convertPart, Bool.false_eq_true, if_false]
      cases convertParts (!false) (next :: rest) <;> rfl
  | case3 short others =>
    match short, others with
    | [], _ => rfl
    | [_], _ => rfl
    | [_, _], _ => rfl
    | _ :: _ :: _ :: _, others => exact absurd rfl (others _ _ _ _)

theorem unescape_cons (char : Char) (rest : List Char) (plain : char = '~' → startsWithDigits rest = false) :
    unescape (char :: rest) = (unescape rest).map (char :: ·) := by
  match rest with
  | [] => rfl
  | [_] => rfl
  | high :: low :: rest =>
    rw [unescape, if_neg]
    rintro ⟨tilde, digits⟩
    simpa [startsWithDigits, digits] using plain tilde

theorem unescape_append {front : List Char} (plain : '~' ∉ front) (rest : List Char) :
    unescape (front ++ rest) = (unescape rest).map (front ++ ·) := by
  induction front with
  | nil =>
    rw [List.nil_append]
    cases unescape rest <;> rfl
  | cons char front ih =>
    rw [List.mem_cons, not_or] at plain
    rw [List.cons_append, unescape_cons char _ fun tilde => absurd tilde.symm plain.1, ih plain.2]
    cases unescape rest <;> rfl

theorem unescape_of_not_mem {name : List Char} (plain : '~' ∉ name) : unescape name = .ok name := by
  have := unescape_append plain []
  rw [List.append_nil] at this
  rw [this, unescape]
  · exact congrArg Except.ok (List.append_nil name)
  · exact nofun

theorem unwinifyEntryName_eq (name : String) :
    unwinifyEntryName name = (unescape name.toList).map String.ofList := by
  rw [unwinifyEntryName]
  split
  · next plain =>
    rw [unescape_of_not_mem plain]
    exact congrArg Except.ok String.ofList_toList.symm
  · rw [convertParts_splitEscapes]

theorem hasEscape_append {front : List Char} (plain : '~' ∉ front) (rest : List Char) :
    hasEscape (front ++ rest) = hasEscape rest := by
  induction front with
  | nil => rfl
  | cons char front ih =>
    rw [List.mem_cons, not_or] at plain
    simp [hasEscape, Ne.symm plain.1, ih plain.2]

/-- A separator is part of no escape. -/
theorem unescape_append_slash (first second : List Char) :
    unescape (first ++ '/' :: second) = do
      let front ← unescape first
      let back ← unescape second
      return front ++ '/' :: back := by
  have separator : unescape ('/' :: second) = (unescape second).map ('/' :: ·) := unescape_cons '/' second nofun
  fun_induction unescape first with
  | case1 char high low rest escape ih =>
    rw [List.cons_append, List.cons_append, List.cons_append, unescape, if_pos escape, ih]
    cases convertEscape [char, high, low] with
    | error err => rfl
    | ok converted =>
      cases unescape rest with
      | error err => rfl
      | ok front => cases unescape second <;> rfl
  | case2 char high low rest other ih =>
    rw [List.cons_append, List.cons_append, List.cons_append, unescape, if_neg other]
    rw [List.cons_append, List.cons_append] at ih
    rw [ih]
    cases unescape (high :: low :: rest) with
    | error err => rfl
    | ok front => cases unescape second <;> rfl
  | case3 short others =>
    match short, others with
    | [], _ =>
      rw [List.nil_append, separator]
      cases unescape second <;> rfl
    | [char], _ =>
      rw [List.singleton_append, unescape_cons char _ fun _ => by cases second <;> rfl, separator]
      cases unescape second <;> rfl
    | [char, next], _ =>
      rw [List.cons_append, List.singleton_append, unescape_cons char _ fun _ => by simp [startsWithDigits, isHexDigit],
        unescape_cons next _ fun _ => by cases second <;> rfl, separator]
      cases unescape second <;> rfl
    | _ :: _ :: _ :: _, others => exact absurd rfl (others _ _ _ _)

end Read

section Escape

/-- The characters that some rule escapes wherever they stand. -/
def escapedChars : List Char := win32ResChars ++ ['.', ' ']

/-- An escape is a `~` with two digits, and reads as the character it was made of. -/
def readsBack (char : Char) : Bool :=
  match escapeChar char with
  | [tilde, high, low] =>
      tilde = '~' ∧ isHexDigit high ∧ isHexDigit low ∧ (convertEscape [tilde, high, low]).toOption = some char
  | _ => false

theorem exists_of_readsBack {char : Char} (reads : readsBack char) : ∃ high low,
    escapeChar char = ['~', high, low] ∧ isHexDigit high ∧ isHexDigit low ∧
      convertEscape ['~', high, low] = .ok char := by
  rw [readsBack] at reads
  split at reads
  · next tilde high low shape =>
    simp only [decide_eq_true_eq, Except.toOption_eq_some_iff] at reads
    obtain ⟨rfl, digits⟩ := reads
    exact ⟨high, low, shape, digits⟩
  · exact absurd reads (by decide)

theorem readsBack_of_mem {char : Char} (special : char ∈ escapedChars) : readsBack char := by
  have all : ∀ char ∈ escapedChars, readsBack char := by decide +kernel
  exact all char special

theorem not_digit_of_mem {char : Char} (special : char ∈ escapedChars) :
    isHexDigit char = false ∧ char ≠ '~' ∧ char ≠ '/' := by
  have all : ∀ char ∈ escapedChars, isHexDigit char = false ∧ char ≠ '~' ∧ char ≠ '/' := by decide +kernel
  exact all char special

/-- A text in which some of the special characters were escaped. -/
inductive Escaped (special : List Char) : List Char → List Char → Prop
  | nil : Escaped special [] []
  | keep (char : Char) {escaped name : List Char} (rest : Escaped special escaped name) :
      Escaped special (char :: escaped) (char :: name)
  | escape {char : Char} (member : char ∈ special) {escaped name : List Char} (rest : Escaped special escaped name) :
      Escaped special (escapeChar char ++ escaped) (char :: name)

namespace Escaped

variable {special escaped name : List Char}

theorem refl (special name : List Char) : Escaped special name name := by
  induction name with
  | nil => exact .nil
  | cons char rest ih => exact .keep char ih

theorem mono {more : List Char} (subset : special ⊆ more) (rel : Escaped special escaped name) :
    Escaped more escaped name := by
  induction rel with
  | nil => exact .nil
  | keep char rest ih => exact .keep char ih
  | escape member rest ih => exact .escape (subset member) ih

theorem flatMap (special name : List Char) :
    Escaped special (name.flatMap fun char => if char ∈ special then escapeChar char else [char]) name := by
  induction name with
  | nil => exact .nil
  | cons char rest ih =>
    rw [List.flatMap_cons]
    split
    · next member => exact .escape member ih
    · exact .keep char ih

/-- A digit is never escaped and an escape does not begin with one. -/
theorem startsWithDigits_eq (known : special ⊆ escapedChars) (rel : Escaped special escaped name) :
    startsWithDigits escaped = startsWithDigits name := by
  have digit {char : Char} (member : char ∈ special) : isHexDigit char = false := (not_digit_of_mem (known member)).1
  have tilde : isHexDigit '~' = false := by decide
  cases rel with
  | nil => rfl
  | keep char rest =>
    cases rest with
    | nil => rfl
    | keep next rest => rfl
    | escape member rest =>
      obtain ⟨high, low, shape, -⟩ := exists_of_readsBack (readsBack_of_mem (known member))
      simp [shape, startsWithDigits, tilde, digit member]
  | @escape char member escaped name rest =>
    obtain ⟨high, low, shape, -⟩ := exists_of_readsBack (readsBack_of_mem (known member))
    rw [shape]
    cases name <;> simp [startsWithDigits, tilde, digit member]

theorem of_startsWithDigits (known : special ⊆ escapedChars) (rel : Escaped special escaped name)
    (digits : startsWithDigits name) : ∃ high low escapedRest rest, escaped = high :: low :: escapedRest ∧
      name = high :: low :: rest ∧ isHexDigit high ∧ isHexDigit low ∧ Escaped special escapedRest rest := by
  have digit {char : Char} (member : char ∈ special) : isHexDigit char = false := (not_digit_of_mem (known member)).1
  cases rel with
  | nil => exact absurd digits (by decide)
  | keep high rel =>
    cases rel with
    | nil => exact absurd digits (by simp [startsWithDigits])
    | keep low rel =>
      rw [startsWithDigits, Bool.and_eq_true] at digits
      exact ⟨high, low, _, _, rfl, rfl, digits.1, digits.2, rel⟩
    | escape member => simp [startsWithDigits, digit member] at digits
  | @escape char member escaped name =>
    cases name <;> simp [startsWithDigits, digit member] at digits

theorem eq_nil_iff (rel : Escaped special escaped name) : escaped = [] ↔ name = [] := by
  cases rel <;> simp [escapeChar]

/-- The last character may be escaped afterwards. -/
theorem escapeLast (known : special ⊆ escapedChars) (rel : Escaped special escaped name) {last : Char}
    (atEnd : escaped.getLast? = some last) (member : last ∈ special) :
    Escaped special (escaped.dropLast ++ escapeChar last) name := by
  induction rel with
  | nil => exact nomatch atEnd
  | @keep char escaped name rest ih =>
    cases escaped with
    | nil =>
      cases rest
      obtain rfl : char = last := by simpa using atEnd
      exact (List.append_nil (escapeChar char)) ▸ Escaped.escape member .nil
    | cons next others =>
      rw [List.getLast?_cons_cons] at atEnd
      rw [List.dropLast_cons_cons, List.cons_append]
      exact .keep char (ih atEnd)
  | @escape char here escaped name rest ih =>
    obtain ⟨high, low, shape, -, digit, -⟩ := exists_of_readsBack (readsBack_of_mem (known here))
    cases escaped with
    | nil =>
      obtain rfl : low = last := by simpa [shape] using atEnd
      exact absurd digit (by simp [(not_digit_of_mem (known member)).1])
    | cons next others =>
      rw [List.getLast?_append_of_ne_nil _ (by simp)] at atEnd
      rw [List.dropLast_append_of_ne_nil (by simp), List.append_assoc]
      exact .escape here (ih atEnd)

/-- A name without escapes of its own is read back. -/
theorem unescape_eq (known : special ⊆ escapedChars) (rel : Escaped special escaped name)
    (plain : hasEscape name = false) : unescape escaped = .ok name := by
  induction rel with
  | nil => rfl
  | @keep char escaped name rest ih =>
    simp only [hasEscape, Bool.or_eq_false_iff, Bool.and_eq_false_imp, decide_eq_true_eq] at plain
    rw [unescape_cons char escaped fun tilde => (rest.startsWithDigits_eq known).trans (plain.1 (by simpa using tilde)),
      ih plain.2]
    rfl
  | @escape char member escaped name rest ih =>
    obtain ⟨high, low, shape, digitHigh, digitLow, reads⟩ := exists_of_readsBack (readsBack_of_mem (known member))
    simp only [hasEscape, Bool.or_eq_false_iff] at plain
    rw [shape, List.cons_append, List.cons_append, List.singleton_append, unescape,
      if_pos ⟨rfl, digitHigh, digitLow⟩, reads, ih plain.2]
    rfl

end Escaped

end Escape

section Weigh

/-- The sum of what the characters of a text weigh. -/
def weigh (weight : Char → ℕ) (text : List Char) : ℕ := (text.map weight).sum

/-- No character but the separator weighs nothing, and none that an escape can read as weighs more than two. -/
structure LightEscapes (weight : Char → ℕ) : Prop where
  pos : ∀ char, char ≠ '/' → 0 < weight char
  light : ∀ char : Char, char.toNat < 256 → weight char ≤ 2

variable {weight : Char → ℕ}

@[simp] theorem weigh_nil : weigh weight [] = 0 := rfl

@[simp] theorem weigh_cons (char : Char) (rest : List Char) :
    weigh weight (char :: rest) = weight char + weigh weight rest := rfl

@[simp] theorem weigh_append (first second : List Char) :
    weigh weight (first ++ second) = weigh weight first + weigh weight second := by
  simp [weigh]

theorem hexDigitValue_lt {char : Char} (digit : isHexDigit char) : hexDigitValue char < 16 := by
  simp only [isHexDigit, decide_eq_true_eq, Char.le_def, UInt32.le_iff_toNat_le] at digit
  simp only [hexDigitValue, Char.le_def, UInt32.le_iff_toNat_le, Char.toNat]
  have values : '0'.val.toNat = 48 ∧ '9'.val.toNat = 57 ∧ 'A'.val.toNat = 65 ∧ 'F'.val.toNat = 70 ∧
      'a'.val.toNat = 97 ∧ 'f'.val.toNat = 102 := by decide
  split_ifs <;> omega

theorem toNat_lt_of_convertEscape {tilde high low char : Char} (digitHigh : isHexDigit high)
    (digitLow : isHexDigit low) (reads : convertEscape [tilde, high, low] = .ok char) : char.toNat < 256 := by
  have first := hexDigitValue_lt digitHigh
  have second := hexDigitValue_lt digitLow
  simp only [convertEscape, Except.bind_eq_ok_iff, Except.require_eq_ok_iff, exists_const, Except.pure_eq_ok_iff,
    List.drop_succ_cons, List.drop_zero, List.foldl_cons, List.foldl_nil, Nat.mul_zero, Nat.zero_add] at reads
  have small : 16 * hexDigitValue high + hexDigitValue low < 256 := by omega
  have valid : (16 * hexDigitValue high + hexDigitValue low).isValidChar := .inl (by omega)
  rw [← reads.2, Char.ofNat, dif_pos valid]
  exact small

theorem digit_ne_slash {char : Char} (digit : isHexDigit char) : char ≠ '/' := by
  rintro rfl
  exact absurd digit (by decide)

/-- Reading makes no text heavier than what was escaped, and lighter if that had an escape of its own. -/
theorem Escaped.weigh_le {special : List Char} (known : special ⊆ escapedChars) (light : LightEscapes weight)
    {escaped name decoded : List Char} (rel : Escaped special escaped name)
    (reads : unescape escaped = .ok decoded) :
    weigh weight decoded ≤ weigh weight name ∧ (hasEscape name → weigh weight decoded < weigh weight name) := by
  -- An escape of the name takes three characters at once, so the induction is on its length.
  induction size : name.length using Nat.strong_induction_on generalizing escaped name decoded with
  | _ size ih =>
  subst size
  cases rel with
  | nil =>
    cases reads
    exact ⟨le_rfl, nofun⟩
  | @escape char member escaped name rest =>
    obtain ⟨high, low, shape, digitHigh, digitLow, converted⟩ := exists_of_readsBack (readsBack_of_mem (known member))
    rw [shape, List.cons_append, List.cons_append, List.singleton_append, unescape, if_pos ⟨rfl, digitHigh, digitLow⟩,
      converted] at reads
    simp only [Except.bind_eq_ok_iff, Except.ok.injEq, exists_eq_left', Except.pure_eq_ok_iff] at reads
    obtain ⟨more, later, rfl⟩ := reads
    have step := ih name.length (by simp) rest later rfl
    have other : hasEscape (char :: name) = hasEscape name := by simp [hasEscape, (not_digit_of_mem (known member)).2.1]
    rw [other, weigh_cons, weigh_cons]
    exact ⟨by omega, fun own => by have := step.2 own; omega⟩
  | @keep char escaped name rest =>
    by_cases own : char = '~' ∧ startsWithDigits name
    · obtain ⟨rfl, digits⟩ := own
      obtain ⟨high, low, escaped, name, rfl, rfl, digitHigh, digitLow, rel⟩ := rest.of_startsWithDigits known digits
      rw [unescape, if_pos ⟨rfl, digitHigh, digitLow⟩] at reads
      simp only [Except.bind_eq_ok_iff, Except.pure_eq_ok_iff] at reads
      obtain ⟨converted, found, more, later, rfl⟩ := reads
      have step := ih name.length (by simp only [List.length_cons]; omega) rel later rfl
      have two := light.light converted (toNat_lt_of_convertEscape digitHigh digitLow found)
      have tilde := light.pos '~' (by decide)
      have first := light.pos high (digit_ne_slash digitHigh)
      have second := light.pos low (digit_ne_slash digitLow)
      simp only [weigh_cons]
      exact ⟨by omega, fun _ => by omega⟩
    · have digits : char = '~' → startsWithDigits name = false := fun tilde =>
        Bool.eq_false_iff.mpr fun digits => own ⟨tilde, digits⟩
      rw [unescape_cons char escaped fun tilde => (rest.startsWithDigits_eq known).trans (digits tilde),
        Except.map_eq_ok_iff] at reads
      obtain ⟨more, later, rfl⟩ := reads
      have step := ih name.length (by simp) rest later rfl
      have other : hasEscape (char :: name) = hasEscape name := by
        simpa [hasEscape] using fun tilde digits' => absurd digits' (by simp [digits tilde])
      rw [other, weigh_cons, weigh_cons]
      exact ⟨by omega, fun own => by have := step.2 own; omega⟩

end Weigh

end Guardata

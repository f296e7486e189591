import Mathlib.Data.List.DropRight
import Mathlib.Tactic.IntervalCases
import Mathlib.Tactic.Ring

/-! # Base 32

Bytes are read as one number, five at a time, and written as digits of base 32, eight at a time. A last group of
less than five bytes is filled up with zeros; the digits that hold no part of it are left out and replaced by
padding. What was written is read back.
-/

namespace Base32

section Digits

/-- The lowest digits of a number, most significant digit first. -/
def digits (base : ℕ) : ℕ → ℕ → List ℕ
  | 0, _ => []
  | width + 1, number => digits base width (number / base) ++ [number % base]

def ofDigits (base : ℕ) (digits : List ℕ) : ℕ := digits.foldl (base * · + ·) 0

variable {base : ℕ}

theorem length_digits (width number : ℕ) : (digits base width number).length = width := by
  induction width generalizing number with
  | zero => rfl
  | succ width ih => rw [digits, List.length_append, ih, List.length_singleton]

theorem lt_of_mem_digits (positive : 0 < base) {width number digit : ℕ} (member : digit ∈ digits base width number) :
    digit < base := by
  induction width generalizing number with
  | zero => cases member
  | succ width ih =>
    rcases List.mem_append.mp member with high | low
    · exact ih high
    · exact List.mem_singleton.mp low ▸ Nat.mod_lt _ positive

theorem ofDigits_concat (high : List ℕ) (low : ℕ) :
    ofDigits base (high ++ [low]) = base * ofDigits base high + low := by
  rw [ofDigits, List.foldl_append, List.foldl_cons, List.foldl_nil, ofDigits]

/-- The digits in front are those of the number without the digits behind. -/
theorem digits_add (front behind number : ℕ) :
    digits base (front + behind) number = digits base front (number / base ^ behind) ++ digits base behind number := by
  induction behind generalizing number with
  | zero => rw [Nat.add_zero, pow_zero, Nat.div_one, digits, List.append_nil]
  | succ behind ih =>
    rw [← Nat.add_assoc, digits, ih, digits, List.append_assoc, Nat.div_div_eq_div_mul, ← pow_succ']

theorem ofDigits_digits {width number : ℕ} (small : number < base ^ width) :
    ofDigits base (digits base width number) = number := by
  induction width generalizing number with
  | zero =>
    rw [pow_zero, Nat.lt_one_iff] at small
    rw [small]
    rfl
  | succ width ih =>
    rw [pow_succ] at small
    rw [digits, ofDigits_concat, ih (Nat.div_lt_of_lt_mul (by rwa [Nat.mul_comm])), Nat.div_add_mod]

theorem digits_ofDigits {list : List ℕ} (small : ∀ digit ∈ list, digit < base) :
    digits base list.length (ofDigits base list) = list := by
  induction list using List.reverseRecOn with
  | nil => rfl
  | append_singleton high low ih =>
    obtain ⟨before, last⟩ := List.forall_mem_append.mp small
    have lowSmall : low < base := last low (List.mem_singleton_self low)
    have positive : 0 < base := Nat.lt_of_le_of_lt (Nat.zero_le _) lowSmall
    rw [List.length_append, List.length_singleton, digits, ofDigits_concat, Nat.mul_add_mod,
      Nat.mod_eq_of_lt lowSmall, Nat.mul_add_div positive, Nat.div_eq_of_lt lowSmall, Nat.add_zero, ih before]

theorem ofDigits_lt {list : List ℕ} (small : ∀ digit ∈ list, digit < base) :
    ofDigits base list < base ^ list.length := by
  induction list using List.reverseRecOn with
  | nil => exact Nat.one_pos
  | append_singleton high low ih =>
    obtain ⟨before, last⟩ := List.forall_mem_append.mp small
    have lowSmall : low < base := last low (List.mem_singleton_self low)
    have highSmall := Nat.mul_le_mul_left base (ih before)
    rw [ofDigits_concat, List.length_append, List.length_singleton, pow_succ, Nat.mul_comm (base ^ _)]
    rw [Nat.succ_eq_add_one, Nat.mul_add, Nat.mul_one] at highSmall
    omega

end Digits

def alphabet : List Char := "ABCDEFGHIJKLMNOPQRSTUVWXYZ234567".toList

def digitOf (char : Char) : Option ℕ := alphabet.idxOf? char

/-- At most five bytes. -/
def encodeGroup (group : List UInt8) : List Char :=
  let number := ofDigits 256 (group.map UInt8.toNat) * 256 ^ (5 - group.length)
  let kept := (8 * group.length + 4) / 5
  ((digits 32 8 number).take kept).map (alphabet.getD · 'A') ++ List.replicate (8 - kept) '='

def b32encode : List UInt8 → List Char
  | first :: second :: third :: fourth :: fifth :: rest =>
    encodeGroup [first, second, third, fourth, fifth] ++ b32encode rest
  | [] => []
  | short => encodeGroup short

/-- At most eight characters, without the padding. -/
def decodeGroup (group : List Char) : Option (List UInt8) := do
  let values ← group.mapM digitOf
  let number := ofDigits 32 values * 32 ^ (8 - group.length)
  return ((digits 256 5 number).take ((43 - 5 * (8 - group.length)) / 8)).map UInt8.ofNat

def decodeGroups : List Char → Option (List UInt8)
  | first :: second :: third :: fourth :: fifth :: sixth :: seventh :: eighth :: rest => do
    let bytes ← decodeGroup [first, second, third, fourth, fifth, sixth, seventh, eighth]
    let others ← decodeGroups rest
    return bytes ++ others
  | [] => some []
  | short => decodeGroup short

def b32decode (text : List Char) : Option (List UInt8) :=
  let body := text.rdropWhile (· = '=')
  if text.length % 8 = 0 ∧ text.length - body.length ∈ [0, 1, 3, 4, 6] then decodeGroups body else none

section Groups

variable {group : List UInt8}

theorem digitOf_getD : ∀ digit < 32, digitOf (alphabet.getD digit 'A') = some digit := by decide

theorem getD_mem_alphabet : ∀ digit < 32, alphabet.getD digit 'A' ∈ alphabet := by decide

theorem mapM_digitOf {values : List ℕ} (small : ∀ value ∈ values, value < 32) :
    (values.map (alphabet.getD · 'A')).mapM digitOf = some values := by
  induction values with
  | nil => rfl
  | cons value values ih =>
    obtain ⟨here, there⟩ := List.forall_mem_cons.mp small
    rw [List.map_cons, List.mapM_cons, digitOf_getD value here, ih there]
    rfl

def keptDigits (group : List UInt8) : ℕ := (8 * group.length + 4) / 5

theorem toNat_lt_of_mem (group : List UInt8) : ∀ byte ∈ group.map UInt8.toNat, byte < 256 := by
  simp only [List.mem_map, forall_exists_index, and_imp, forall_apply_eq_imp_iff₂]
  exact fun byte _ => byte.toNat_lt

/-- The bytes of a group, filled up with zeros. -/
def groupNumber (group : List UInt8) : ℕ := ofDigits 256 (group.map UInt8.toNat) * 256 ^ (5 - group.length)

theorem groupNumber_lt (short : group.length ≤ 5) : groupNumber group < 32 ^ 8 := by
  have bytes := ofDigits_lt (toNat_lt_of_mem group)
  rw [List.length_map] at bytes
  calc groupNumber group
      < 256 ^ group.length * 256 ^ (5 - group.length) := Nat.mul_lt_mul_of_pos_right bytes (by positivity)
    _ = 256 ^ 5 := by rw [← pow_add, Nat.add_sub_cancel' short]
    _ = 32 ^ 8 := rfl

/-- The digits that are left out are zeros. -/
theorem pow_dvd_groupNumber (short : group.length ≤ 5) : 32 ^ (8 - keptDigits group) ∣ groupNumber group := by
  have powers : (32 : ℕ) = 2 ^ 5 ∧ (256 : ℕ) = 2 ^ 8 := ⟨rfl, rfl⟩
  rw [groupNumber, powers.1, powers.2, ← pow_mul, ← pow_mul]
  apply Nat.dvd_mul_left_of_dvd
  apply Nat.pow_dvd_pow
  rw [keptDigits]
  omega

/-- The bytes that are not filled up are the bytes of the group. -/
theorem take_digits_groupNumber (short : group.length ≤ 5) :
    ((digits 256 5 (groupNumber group)).take group.length).map UInt8.ofNat = group := by
  obtain ⟨zeros, width⟩ := Nat.exists_eq_add_of_le short
  have shift : 5 - group.length = zeros := by omega
  have bytes := digits_ofDigits (toNat_lt_of_mem group)
  rw [List.length_map] at bytes
  rw [groupNumber, shift, width, digits_add, List.take_left' (length_digits ..),
    Nat.mul_div_cancel _ (by positivity), bytes, List.map_map]
  exact (List.map_congr_left fun byte _ => UInt8.ofNat_toNat).trans (List.map_id _)

def keptValues (group : List UInt8) : List ℕ := (digits 32 8 (groupNumber group)).take (keptDigits group)

theorem length_keptValues (short : group.length ≤ 5) : (keptValues group).length = keptDigits group := by
  rw [keptValues, List.length_take, length_digits, keptDigits]
  omega

theorem lt_of_mem_keptValues : ∀ value ∈ keptValues group, value < 32 := fun _ member =>
  lt_of_mem_digits (by decide) (List.mem_of_mem_take member)

theorem ofDigits_keptValues (short : group.length ≤ 5) :
    ofDigits 32 (keptValues group) * 32 ^ (8 - keptDigits group) = groupNumber group := by
  have kept : keptDigits group ≤ 8 := by rw [keptDigits]; omega
  obtain ⟨behind, width⟩ := Nat.exists_eq_add_of_le kept
  have shift : 8 - keptDigits group = behind := by omega
  have small : groupNumber group / 32 ^ behind < 32 ^ keptDigits group := by
    have whole := groupNumber_lt short
    rw [width, pow_add, Nat.mul_comm] at whole
    exact Nat.div_lt_of_lt_mul whole
  have exact := pow_dvd_groupNumber short
  rw [shift] at exact ⊢
  rw [keptValues, width, digits_add, List.take_left' (length_digits ..), ofDigits_digits small]
  exact Nat.div_mul_cancel exact

/-- The characters of a group in front of its padding. -/
def groupCharacters (group : List UInt8) : List Char := (keptValues group).map (alphabet.getD · 'A')

theorem encodeGroup_eq (group : List UInt8) :
    encodeGroup group = groupCharacters group ++ List.replicate (8 - keptDigits group) '=' := rfl

theorem length_groupCharacters (short : group.length ≤ 5) : (groupCharacters group).length = keptDigits group := by
  rw [groupCharacters, List.length_map, length_keptValues short]

theorem groupCharacters_subset (group : List UInt8) : groupCharacters group ⊆ alphabet := by
  intro char member
  obtain ⟨value, kept, rfl⟩ := List.mem_map.mp member
  exact getD_mem_alphabet value (lt_of_mem_keptValues value kept)

theorem decodeGroup_groupCharacters (short : group.length ≤ 5) : decodeGroup (groupCharacters group) = some group := by
  have taken : (43 - 5 * (8 - keptDigits group)) / 8 = group.length := by
    rw [keptDigits]
    omega
  rw [decodeGroup, length_groupCharacters short, groupCharacters, mapM_digitOf lt_of_mem_keptValues]
  simp only [Option.bind_eq_bind, Option.bind_some, ofDigits_keptValues short, taken, take_digits_groupNumber short]
  rfl

end Groups

theorem decodeGroups_append {front : List Char} (full : front.length = 8) (rest : List Char) :
    decodeGroups (front ++ rest) = do
      let bytes ← decodeGroup front
      let others ← decodeGroups rest
      return bytes ++ others := by
  match front, full with
  | [_, _, _, _, _, _, _, _], _ => rfl

theorem decodeGroups_short {text : List Char} (some : text ≠ []) (short : text.length < 8) :
    decodeGroups text = decodeGroup text := by
  rw [decodeGroups]
  · rintro _ _ _ _ _ _ _ _ _ rfl
    simp only [List.length_cons] at short
    omega
  · exact some

/-- An encoded text is what the bytes are decoded from, and padding. -/
theorem b32encode_spec (bytes : List UInt8) : ∃ body padding,
    b32encode bytes = body ++ List.replicate padding '=' ∧ body ⊆ alphabet ∧ padding ∈ [0, 1, 3, 4, 6] ∧
      (body.length + padding) % 8 = 0 ∧ decodeGroups body = some bytes := by
  fun_induction b32encode bytes with
  | case1 first second third fourth fifth rest ih =>
    obtain ⟨body, padding, is, letters, few, whole, decoded⟩ := ih
    have short : [first, second, third, fourth, fifth].length ≤ 5 := Nat.le_refl 5
    have kept : keptDigits [first, second, third, fourth, fifth] = 8 := by simp [keptDigits]
    have full := (length_groupCharacters short).trans kept
    refine ⟨groupCharacters [first, second, third, fourth, fifth] ++ body, padding, ?_, ?_, few, ?_, ?_⟩
    · rw [encodeGroup_eq, kept, Nat.sub_self, List.replicate_zero, List.append_nil, is, List.append_assoc]
    · exact List.append_subset.mpr ⟨groupCharacters_subset _, letters⟩
    · rw [List.length_append, full]
      omega
    · rw [decodeGroups_append full, decodeGroup_groupCharacters short, decoded]
      rfl
  | case2 => exact ⟨[], 0, rfl, List.nil_subset _, by decide, rfl, rfl⟩
  | case3 group notFull notEmpty =>
    have few : 0 < group.length ∧ group.length < 5 := by
      match group with
      | [] => exact absurd rfl notEmpty
      | [_] | [_, _] | [_, _, _] | [_, _, _, _] => simp
      | first :: second :: third :: fourth :: fifth :: rest =>
          exact absurd rfl (notFull first second third fourth fifth rest)
    have length := length_groupCharacters (Nat.le_of_lt few.2)
    have kept : keptDigits group ∈ [2, 4, 5, 7] := by
      obtain ⟨some, short⟩ := few
      rw [keptDigits]
      interval_cases group.length <;> decide
    have padding : ∀ kept ∈ [2, 4, 5, 7], 0 < kept ∧ kept < 8 ∧ 8 - kept ∈ [0, 1, 3, 4, 6] := by decide
    obtain ⟨some, inside, allowed⟩ := padding _ kept
    refine ⟨groupCharacters group, 8 - keptDigits group, encodeGroup_eq group, groupCharacters_subset group,
      allowed, ?_, ?_⟩
    · rw [length]
      omega
    · have characters : groupCharacters group ≠ [] := List.ne_nil_of_length_pos (length ▸ some)
      rw [decodeGroups_short characters (length ▸ inside), decodeGroup_groupCharacters (Nat.le_of_lt few.2)]

/-- Bytes that were encoded are decoded again. -/
theorem b32decode_b32encode (bytes : List UInt8) : b32decode (b32encode bytes) = some bytes := by
  obtain ⟨body, padding, is, letters, few, whole, decoded⟩ := b32encode_spec bytes
  have stripped : (b32encode bytes).rdropWhile (· = '=') = body := by
    rw [is]
    clear is few whole
    induction padding with
    | zero =>
      rw [List.replicate_zero, List.append_nil, List.rdropWhile_eq_self_iff]
      exact fun some last => absurd (letters (of_decide_eq_true last ▸ List.getLast_mem some)) (by decide)
    | succ padding ih => rw [List.replicate_succ', ← List.append_assoc, List.rdropWhile_concat_pos _ _ _ rfl, ih]
  have length : (b32encode bytes).length = body.length + padding := by
    rw [is, List.length_append, List.length_replicate]
  simp only [b32decode, stripped, length]
  rw [if_pos ⟨whole, by rwa [Nat.add_sub_cancel_left]⟩, decoded]

theorem mem_b32encode {bytes : List UInt8} {char : Char} (member : char ∈ b32encode bytes) :
    char ∈ '=' :: alphabet := by
  obtain ⟨body, padding, is, letters, -⟩ := b32encode_spec bytes
  rw [is] at member
  rcases List.mem_append.mp member with front | behind
  · exact List.mem_cons_of_mem _ (letters front)
  · exact List.eq_of_mem_replicate behind ▸ List.mem_cons_self ..

end Base32

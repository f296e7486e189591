import Guardata.ToMathlib.CharLists
import Mathlib.Data.List.SplitBy
import Mathlib.Data.Nat.Notation

/-! # Percent-encoding

A text is written as bytes, and the bytes that are not safe as `%` and two digits. Reading takes the `%` apart
again and decodes the bytes, either strictly or with a replacement character for what is no UTF-8. Whatever was
safe, a text that was written is read back. Lists of names and values are read back as well.
-/

namespace PercentEncoding

/-- What the decoder does with bytes that are no character. -/
inductive Errors where
  | strict
  | replace
deriving DecidableEq, Repr

section Utf8

def utf8Encode (text : List Char) : List UInt8 := text.flatMap String.utf8EncodeChar

/-- How many bytes of an ill-formed sequence one replacement character stands for: those that could have begun
a character. -/
def malformedLength : List UInt8 → ℕ
  | first :: second :: rest =>
    let low : UInt8 := if first = 0xE0 then 0xA0 else if first = 0xF0 then 0x90 else 0x80
    let high : UInt8 := if first = 0xED then 0x9F else if first = 0xF4 then 0x8F else 0xBF
    if 0xE0 ≤ first ∧ first ≤ 0xF4 ∧ low ≤ second ∧ second ≤ high then
      if 0xF0 ≤ first ∧ rest.head?.any fun third => 0x80 ≤ third ∧ third ≤ 0xBF then 3 else 2
    else 1
  | _ => 1

/-- Decodes the bytes behind those of the last character. -/
def utf8DecodeFrom (errors : Errors) : ℕ → List UInt8 → Option (List Char)
  | _, [] => some []
  | skipped + 1, _ :: rest => utf8DecodeFrom errors skipped rest
  | 0, byte :: rest =>
    match (byte :: rest).toByteArray.utf8DecodeChar? 0, errors with
    | some char, _ => (utf8DecodeFrom errors (char.utf8Size - 1) rest).map (char :: ·)
    | none, .strict => none
    | none, .replace =>
      (utf8DecodeFrom errors (malformedLength (byte :: rest) - 1) rest).map ('\ufffd' :: ·)

def utf8Decode (errors : Errors) (bytes : List UInt8) : Option (List Char) := utf8DecodeFrom errors 0 bytes

variable {errors : Errors}

theorem utf8DecodeFrom_append (skipped rest : List UInt8) :
    utf8DecodeFrom errors skipped.length (skipped ++ rest) = utf8DecodeFrom errors 0 rest := by
  induction skipped with
  | nil => rfl
  | cons byte skipped ih =>
    rw [List.length_cons, List.cons_append, utf8DecodeFrom]
    exact ih

/-- One character is read off the front. -/
theorem utf8Decode_char (char : Char) (rest : List UInt8) :
    utf8Decode errors (String.utf8EncodeChar char ++ rest) = (utf8Decode errors rest).map (char :: ·) := by
  have reads : (String.utf8EncodeChar char ++ rest).toByteArray.utf8DecodeChar? 0 = some char := by
    rw [List.toByteArray_append, ByteArray.utf8DecodeChar?_utf8EncodeChar_append]
  have length := String.length_utf8EncodeChar char
  have some := char.utf8Size_pos
  cases bytes : String.utf8EncodeChar char with
  | nil =>
    rw [bytes, List.length_nil] at length
    omega
  | cons byte others =>
    rw [bytes, List.cons_append] at reads
    rw [bytes, List.length_cons] at length
    have skipped : char.utf8Size - 1 = others.length := by omega
    simp only [List.cons_append, utf8Decode, utf8DecodeFrom, reads]
    rw [skipped, utf8DecodeFrom_append]

theorem utf8Decode_utf8Encode (text : List Char) : utf8Decode errors (utf8Encode text) = some text := by
  induction text with
  | nil => rfl
  | cons char text ih =>
    have front : utf8Encode (char :: text) = String.utf8EncodeChar char ++ utf8Encode text := rfl
    rw [front, utf8Decode_char, ih, Option.map_some]

end Utf8

section Quote

def alwaysSafe : List Char := "ABCDEFGHIJKLMNOPQRSTUVWXYZabcdefghijklmnopqrstuvwxyz0123456789_.-~".toList

def hexDigits : List Char := "0123456789ABCDEF".toList

def quoteByte (safe : List Char) (byte : UInt8) : List Char :=
  let char := Char.ofNat byte.toNat
  if char ∈ alwaysSafe ∨ char ∈ safe then [char]
  else ['%', hexDigits.getD (byte.toNat / 16) '0', hexDigits.getD (byte.toNat % 16) '0']

def quote (safe text : List Char) : List Char := (utf8Encode text).flatMap (quoteByte safe)

/-- A form writes a space as `+`. -/
def quotePlus (text : List Char) : List Char :=
  if ' ' ∈ text then (quote [' '] text).map fun char => if char = ' ' then '+' else char else quote [] text

def hexValue (char : Char) : Option ℕ :=
  if '0' ≤ char ∧ char ≤ '9' then some (char.toNat - '0'.toNat)
  else if 'A' ≤ char ∧ char ≤ 'F' then some (char.toNat - 'A'.toNat + 10)
  else if 'a' ≤ char ∧ char ≤ 'f' then some (char.toNat - 'a'.toNat + 10)
  else none

/-- A `%` without two digits stands for itself. -/
def unquoteToBytes : List Char → List UInt8
  | '%' :: high :: low :: rest =>
    match hexValue high, hexValue low with
    | some high', some low' => UInt8.ofNat (16 * high' + low') :: unquoteToBytes rest
    | _, _ => 0x25 :: unquoteToBytes (high :: low :: rest)
  | char :: rest => UInt8.ofNat char.toNat :: unquoteToBytes rest
  | [] => []

def isAscii (char : Char) : Bool := char.toNat < 128

/-- Runs of ASCII characters are taken for bytes. The characters between them stay as they are. -/
def unquote (errors : Errors) (text : List Char) : Option (List Char) :=
  if '%' ∈ text then do
    let runs ← (text.splitBy fun first second => isAscii first = isAscii second).mapM fun run =>
      if run.all isAscii then utf8Decode errors (unquoteToBytes run) else some run
    return runs.flatten
  else some text

def plusToSpace (text : List Char) : List Char := text.map fun char => if char = '+' then ' ' else char

def unquotePlus (errors : Errors) (text : List Char) : Option (List Char) := unquote errors (plusToSpace text)

/-- What a quoted text is made of. -/
def quotedCharacters : List Char := '%' :: '+' :: alwaysSafe

variable {errors : Errors} {text safe : List Char}

theorem quoteByte_eq (safe : List Char) (byte : UInt8) :
    quoteByte safe byte = [Char.ofNat byte.toNat] ∧
        (Char.ofNat byte.toNat ∈ alwaysSafe ∨ Char.ofNat byte.toNat ∈ safe) ∨
      ∃ high low, high < 16 ∧ low < 16 ∧ 16 * high + low = byte.toNat ∧
        quoteByte safe byte = ['%', hexDigits.getD high '0', hexDigits.getD low '0'] := by
  have small := byte.toNat_lt
  by_cases literal : Char.ofNat byte.toNat ∈ alwaysSafe ∨ Char.ofNat byte.toNat ∈ safe
  · exact .inl ⟨if_pos literal, literal⟩
  · exact .inr ⟨byte.toNat / 16, byte.toNat % 16, by omega, by omega, by omega, if_neg literal⟩

theorem hexValue_getD : ∀ value < 16, hexValue (hexDigits.getD value '0') = some value := by decide

theorem getD_mem_alwaysSafe : ∀ value < 16, hexDigits.getD value '0' ∈ alwaysSafe := by decide

theorem isAscii_of_mem_quotedCharacters : ∀ char ∈ quotedCharacters, isAscii char = true := by decide

/-- The bytes of a text come back, as long as no `%` is written for itself. -/
theorem unquoteToBytes_quoteByte (clean : '%' ∉ safe) (byte : UInt8) (rest : List Char) :
    unquoteToBytes (quoteByte safe byte ++ rest) = byte :: unquoteToBytes rest := by
  rcases quoteByte_eq safe byte with ⟨is, literal⟩ | ⟨high, low, highSmall, lowSmall, whole, is⟩
  · have other : Char.ofNat byte.toNat ≠ '%' := by
      intro percent
      rw [percent] at literal
      rcases literal with always | here
      · exact absurd always (by decide)
      · exact clean here
    have small := byte.toNat_lt
    have same : (Char.ofNat byte.toNat).toNat = byte.toNat := by
      rw [Char.ofNat, dif_pos (.inl (by omega))]
      rfl
    rw [is, List.cons_append, List.nil_append, unquoteToBytes]
    · rw [same, UInt8.ofNat_toNat]
    · rintro _ _ _ percent
      exact absurd percent other
  · rw [is]
    simp only [List.cons_append, List.nil_append, unquoteToBytes, hexValue_getD high highSmall,
      hexValue_getD low lowSmall]
    rw [whole, UInt8.ofNat_toNat]

theorem unquoteToBytes_quote (clean : '%' ∉ safe) : unquoteToBytes (quote safe text) = utf8Encode text := by
  rw [quote]
  induction utf8Encode text with
  | nil => rfl
  | cons byte bytes ih => rw [List.flatMap_cons, unquoteToBytes_quoteByte clean, ih]

theorem mem_quote {char : Char} (member : char ∈ quote safe text) :
    char ∈ quotedCharacters ∧ char ≠ '+' ∨ char ∈ safe := by
  obtain ⟨byte, -, here⟩ := List.mem_flatMap.mp member
  have always {char : Char} (safe : char ∈ alwaysSafe) : char ∈ quotedCharacters ∧ char ≠ '+' := by
    refine ⟨List.mem_cons_of_mem _ (List.mem_cons_of_mem _ safe), ?_⟩
    rintro rfl
    exact absurd safe (by decide)
  rcases quoteByte_eq safe byte with ⟨is, literal⟩ | ⟨high, low, highSmall, lowSmall, -, is⟩
  · rw [is, List.mem_singleton] at here
    rw [here]
    exact literal.imp_left always
  · rw [is] at here
    simp only [List.mem_cons, List.not_mem_nil, or_false] at here
    rcases here with rfl | rfl | rfl
    · exact .inl (by decide)
    · exact .inl (always (getD_mem_alwaysSafe high highSmall))
    · exact .inl (always (getD_mem_alwaysSafe low lowSmall))

theorem utf8Encode_of_ascii (ascii : ∀ char ∈ text, isAscii char = true) :
    utf8Encode text = text.map fun char => UInt8.ofNat char.toNat := by
  induction text with
  | nil => rfl
  | cons char text ih =>
    obtain ⟨here, there⟩ := List.forall_mem_cons.mp ascii
    have one : String.utf8EncodeChar char = [UInt8.ofNat char.toNat] := by
      exact if_pos (Nat.le_of_lt_succ (of_decide_eq_true here))
    rw [utf8Encode, List.flatMap_cons, one, List.map_cons, ← utf8Encode, ih there]
    rfl

/-- Characters other than `%` stand for themselves. -/
theorem unquoteToBytes_append (clean : '%' ∉ text) (rest : List Char) :
    unquoteToBytes (text ++ rest) = text.map (fun char => UInt8.ofNat char.toNat) ++ unquoteToBytes rest := by
  induction text with
  | nil => rfl
  | cons char text ih =>
    simp only [List.mem_cons, not_or] at clean
    rw [List.cons_append, unquoteToBytes, ih clean.2, List.map_cons, List.cons_append]
    rintro _ _ _ percent
    exact absurd percent.symm clean.1

/-- A text of ASCII characters is decoded as a whole. -/
theorem unquote_of_ascii (ascii : ∀ char ∈ text, isAscii char = true) :
    unquote errors text = utf8Decode errors (unquoteToBytes text) := by
  by_cases percent : '%' ∈ text
  · have one : text.splitBy (fun first second => isAscii first = isAscii second) = [text] := by
      apply List.splitBy_of_isChain (List.ne_nil_of_mem percent)
      apply List.Pairwise.isChain
      exact List.pairwise_iff_forall_sublist.mpr fun {first second} both => by
        have both := both.subset
        simp [ascii first (both (by simp)), ascii second (both (by simp))]
    have all : text.all isAscii = true := List.all_eq_true.mpr ascii
    rw [unquote, if_pos percent, one, List.mapM_cons, if_pos all]
    cases utf8Decode errors (unquoteToBytes text) with
    | none => rfl
    | some decoded => exact congrArg some (List.append_nil decoded)
  · have bytes := unquoteToBytes_append percent []
    rw [List.append_nil, unquoteToBytes, List.append_nil] at bytes
    rw [unquote, if_neg percent, bytes, ← utf8Encode_of_ascii ascii, utf8Decode_utf8Encode]

theorem plusToSpace_quotePlus (text : List Char) :
    ∃ safe, plusToSpace (quotePlus text) = quote safe text ∧ ∀ char ∈ safe, char = ' ' := by
  have plain {safe : List Char} (spaces : ∀ char ∈ safe, char = ' ') :
      plusToSpace (quote safe text) = quote safe text := by
    rw [plusToSpace, List.map_congr_left (g := id), List.map_id]
    intro char member
    rw [if_neg, id]
    rintro rfl
    rcases mem_quote member with ⟨-, other⟩ | space
    · exact other rfl
    · exact absurd (spaces _ space) (by decide)
  rw [quotePlus]
  split
  · have spaces : ∀ char ∈ [' '], char = ' ' := by simp
    refine ⟨[' '], ?_, spaces⟩
    conv_rhs => rw [← plain spaces]
    rw [plusToSpace, plusToSpace, List.map_map]
    apply List.map_congr_left
    intro char _
    by_cases space : char = ' '
    · rw [space]
      rfl
    · rw [Function.comp_apply, if_neg space]
  · exact ⟨[], plain nofun, nofun⟩

/-- A text that was quoted is read back, also behind characters that need not be quoted. -/
theorem unquotePlus_append_quotePlus {front : List Char}
    (plain : ∀ char ∈ front, isAscii char = true ∧ char ≠ '%' ∧ char ≠ '+') (text : List Char) :
    unquotePlus errors (front ++ quotePlus text) = some (front ++ text) := by
  obtain ⟨safe, is, spaces⟩ := plusToSpace_quotePlus text
  have same : plusToSpace (front ++ quotePlus text) = front ++ quote safe text := by
    have kept : front.map (fun char => if char = '+' then ' ' else char) = front :=
      (List.map_congr_left fun char member => if_neg (plain char member).2.2).trans (List.map_id _)
    rw [plusToSpace, List.map_append, kept, ← plusToSpace, is]
  have ascii : ∀ char ∈ front ++ quote safe text, isAscii char = true := by
    intro char member
    rcases List.mem_append.mp member with here | quoted
    · exact (plain char here).1
    · rcases mem_quote quoted with ⟨quoted, -⟩ | space
      · exact isAscii_of_mem_quotedCharacters char quoted
      · rw [spaces char space]
        rfl
  have clean : '%' ∉ safe := fun percent => absurd (spaces _ percent) (by decide)
  have bytes : utf8Encode (front ++ text) = utf8Encode front ++ utf8Encode text := List.flatMap_append
  rw [unquotePlus, same, unquote_of_ascii ascii, unquoteToBytes_append fun percent => (plain _ percent).2.1 rfl,
    unquoteToBytes_quote clean, ← utf8Encode_of_ascii fun char member => (plain char member).1, ← bytes,
    utf8Decode_utf8Encode]

theorem unquotePlus_quotePlus (text : List Char) : unquotePlus errors (quotePlus text) = some text :=
  unquotePlus_append_quotePlus (List.forall_mem_nil _) text

theorem quotePlus_eq_nil_iff : quotePlus text = [] ↔ text = [] := by
  constructor
  · intro none
    have back : unquotePlus .strict (quotePlus text) = some text := unquotePlus_quotePlus text
    rw [none] at back
    exact (Option.some.inj back).symm
  · rintro rfl
    rfl

theorem mem_quotedCharacters_of_mem_quotePlus {char : Char} (member : char ∈ quotePlus text) :
    char ∈ quotedCharacters := by
  rw [quotePlus] at member
  split at member
  · obtain ⟨plain, here, rfl⟩ := List.mem_map.mp member
    split
    · decide
    · next other =>
      rcases mem_quote here with ⟨quoted, -⟩ | space
      · exact quoted
      · exact absurd (List.mem_singleton.mp space) other
  · rcases mem_quote member with ⟨quoted, -⟩ | none
    · exact quoted
    · cases none

end Quote

section Form

/-- What comes in front of the first separator, and what comes behind it. -/
def partition {α : Type*} [DecidableEq α] (separator : α) : List α → List α × Option (List α)
  | [] => ([], none)
  | item :: rest =>
    if item = separator then ([], some rest)
    else ((item :: (partition separator rest).1), (partition separator rest).2)

/-- One field of a query, which must be a name and a value. -/
def parseField (field : List Char) : Option (List Char × List Char) := do
  let (name, value) := partition '=' field
  let name ← unquotePlus .strict name
  let value ← unquotePlus .strict (← value)
  return (name, value)

/-- `parse_qsl` with `keep_blank_values` and `strict_parsing`. -/
def parseQsl (query : List Char) : Option (List (List Char × List Char)) := (query.splitOn '&').mapM parseField

def writeField (field : List Char × List Char) : List Char := quotePlus field.1 ++ '=' :: quotePlus field.2

def urlencode (fields : List (List Char × List Char)) : List Char := ['&'].intercalate (fields.map writeField)

section Partition

variable {α : Type*} [DecidableEq α] {separator : α} {before after : List α}

theorem partition_of_not_mem (clean : separator ∉ before) : partition separator before = (before, none) := by
  induction before with
  | nil => rfl
  | cons item rest ih =>
    simp only [List.mem_cons, not_or] at clean
    rw [partition, if_neg (Ne.symm clean.1), ih clean.2]

theorem partition_append (clean : separator ∉ before) :
    partition separator (before ++ separator :: after) = (before, some after) := by
  induction before with
  | nil => exact if_pos rfl
  | cons item rest ih =>
    simp only [List.mem_cons, not_or] at clean
    rw [List.cons_append, partition, if_neg (Ne.symm clean.1), ih clean.2]

theorem not_mem_partition (separator : α) (text : List α) : separator ∉ (partition separator text).1 := by
  induction text with
  | nil => exact List.not_mem_nil
  | cons item rest ih =>
    rw [partition]
    split
    · exact List.not_mem_nil
    · next other => simp [Ne.symm other, ih]

/-- Both parts and the separator make up the text. -/
theorem partition_join (separator : α) (text : List α) :
    (partition separator text).1 ++ (partition separator text).2.elim [] (separator :: ·) = text := by
  induction text with
  | nil => rfl
  | cons item rest ih =>
    rw [partition]
    split
    · next same => rw [same, Option.elim_some, List.nil_append]
    · exact congrArg (item :: ·) ih

theorem partition_fst_subset (separator : α) (text : List α) : (partition separator text).1 ⊆ text := by
  conv_rhs => rw [← partition_join separator text]
  exact List.subset_append_left ..

theorem partition_snd_subset {text : List α} (found : (partition separator text).2 = some after) :
    after ⊆ text := by
  conv_rhs => rw [← partition_join separator text, found]
  exact List.Subset.trans (List.subset_cons_self ..) (List.subset_append_right ..)

theorem not_mem_of_partition_snd {text : List α} (alone : (partition separator text).2 = none) :
    separator ∉ text := by
  have whole := partition_join separator text
  rw [alone, Option.elim_none, List.append_nil] at whole
  exact whole ▸ not_mem_partition separator text

end Partition

theorem parseField_writeField (field : List Char × List Char) : parseField (writeField field) = some field := by
  have clean : '=' ∉ quotePlus field.1 := fun member =>
    absurd (mem_quotedCharacters_of_mem_quotePlus member) (by decide)
  rw [parseField, writeField, partition_append clean]
  simp [unquotePlus_quotePlus]

theorem mem_writeField {field : List Char × List Char} {char : Char} (member : char ∈ writeField field) :
    char ∈ '=' :: quotedCharacters := by
  rcases List.mem_append.mp member with name | value
  · exact List.mem_cons_of_mem _ (mem_quotedCharacters_of_mem_quotePlus name)
  · rcases List.mem_cons.mp value with rfl | value
    · exact List.mem_cons_self ..
    · exact List.mem_cons_of_mem _ (mem_quotedCharacters_of_mem_quotePlus value)

theorem mem_urlencode {fields : List (List Char × List Char)} {char : Char} (member : char ∈ urlencode fields) :
    char ∈ '&' :: '=' :: quotedCharacters := by
  rw [urlencode] at member
  induction fields with
  | nil => cases member
  | cons field rest ih =>
    rw [List.map_cons] at member
    cases rest with
    | nil =>
      rw [List.map_nil, List.intercalate_singleton] at member
      exact List.mem_cons_of_mem _ (mem_writeField member)
    | cons next rest =>
      rw [List.intercalate_cons_of_ne_nil (by simp), List.mem_append, List.mem_append] at member
      rcases member with (here | separator) | there
      · exact List.mem_cons_of_mem _ (mem_writeField here)
      · exact List.mem_singleton.mp separator ▸ List.mem_cons_self ..
      · exact ih there

/-- Names and values that were written are read back. -/
theorem parseQsl_urlencode {fields : List (List Char × List Char)} (some : fields ≠ []) :
    parseQsl (urlencode fields) = .some fields := by
  have clean : ∀ part ∈ fields.map writeField, '&' ∉ part := by
    simp only [List.mem_map, forall_exists_index, and_imp, forall_apply_eq_imp_iff₂]
    exact fun field _ member => absurd (mem_writeField member) (by decide)
  rw [parseQsl, urlencode, List.splitOn_intercalate _ clean (by simpa using some)]
  clear clean some
  induction fields with
  | nil => rfl
  | cons field rest ih => simp [parseField_writeField, ih]

end Form

end PercentEncoding

import Guardata.Model.DeviceIds
import Guardata.Proofs.DecodedData

/-! # Taking device ids apart

A device id that is accepted has at most sixty-five bytes, but nothing keeps one of its parts from having
more than the thirty-two that the part may have: then the part cannot be taken out. A user id may end with a
newline, which a pattern lets pass at the end of a text only, so that such an id makes up no device id.
-/

namespace Guardata

variable {lib : DecodingLibrary}

/-- Neither the separator of a device id nor a newline is a character of a word. -/
structure DecodingLibrary.PlainWords (lib : DecodingLibrary) : Prop where
  separator : lib.wordCharacter '@' = false
  newline : lib.wordCharacter '\n' = false

section Identifiers

theorem not_mem_of_isIdentifier {text : List Char} {char : Char} (identifier : isIdentifier lib text = true)
    (noWord : lib.wordCharacter char = false) (other : char ≠ '-') : char ∉ text := by
  simp only [isIdentifier, decide_eq_true_eq, List.all_eq_true, Bool.or_eq_true] at identifier
  intro member
  rcases identifier.2.2 char member with word | dash
  · simp [noWord] at word
  · exact other dash

theorem dropNewline_of_not_mem {text : List Char} (clean : '\n' ∉ text) : dropNewline text = text := by
  rw [dropNewline, if_neg]
  exact fun last => clean (List.mem_of_getLast? last)

/-- What a pattern ignores is one newline at the end. -/
theorem mem_dropNewline {text : List Char} {char : Char} (member : char ∈ text) (other : char ≠ '\n') :
    char ∈ dropNewline text := by
  rw [dropNewline]
  split
  · next last =>
    obtain ⟨front, rfl⟩ := List.getLast?_eq_some_iff.mp last
    rw [List.dropLast_concat]
    rcases List.mem_append.mp member with there | newline
    · exact there
    · exact absurd (List.mem_singleton.mp newline) other
  · exact member

theorem DecodingLibrary.PlainWords.separator_not_mem (words : lib.PlainWords) {text : List Char}
    (identifier : isIdentifier lib (dropNewline text) = true) : '@' ∉ text := fun member =>
  not_mem_of_isIdentifier identifier words.separator (by decide) (mem_dropNewline member (by decide))

theorem matchesDeviceId_iff {raw : String} : matchesDeviceId lib raw = true ↔
    ∃ userId deviceName, raw.toList = userId ++ '@' :: deviceName ∧ isIdentifier lib userId = true ∧
      isIdentifier lib (dropNewline deviceName) = true := by
  simp only [matchesDeviceId, List.any_eq_true, List.mem_range, decide_eq_true_eq]
  constructor
  · rintro ⟨position, inside, separator, user, device⟩
    refine ⟨_, _, ?_, user, device⟩
    obtain ⟨_, is⟩ := List.getElem?_eq_some_iff.mp separator
    rw [← is, List.getElem_cons_drop, List.take_append_drop]
  · rintro ⟨userId, deviceName, is, user, device⟩
    refine ⟨userId.length, ?_⟩
    rw [is]
    simp [user, device]

end Identifiers

namespace DeviceIDText

variable {id : DeviceIDText} {user device : List Char}

theorem parts_eq (words : lib.PlainWords) (is : id.toList = user ++ '@' :: device) (before : '@' ∉ user)
    (identifier : isIdentifier lib (dropNewline device) = true) :
    id.parts = [String.ofList user, String.ofList device] := by
  rw [parts, is, List.splitOn_append_cons_self_of_not_mem before,
    List.splitOn_eq_singleton (words.separator_not_mem identifier)]
  rfl

theorem userId_of_parts (is : id.parts = [String.ofList user, String.ofList device]) :
    id.userId lib = UserID.new lib (String.ofList user) := by
  rw [userId, is]
  rfl

theorem deviceName_of_parts (is : id.parts = [String.ofList user, String.ofList device]) :
    id.deviceName lib = DeviceName.new lib (String.ofList device) := by
  rw [deviceName, is]
  rfl

/-- The schemas accept the same texts, and keep the parts. -/
theorem parseDeviceID_eq_some_iff (words : lib.PlainWords) {raw : String} {parsed : DeviceID} :
    parseDeviceID lib raw = some parsed ↔
      new lib raw = .ok raw ∧ parts raw = [parsed.userId, parsed.deviceName] := by
  rw [new, checkedText_eq_ok_iff, and_iff_left rfl, matchesDeviceId_iff]
  simp only [parseDeviceID, Option.ite_none_right_eq_some, Option.some.injEq]
  constructor
  · rintro ⟨⟨userMatched, deviceMatched, fits⟩, rfl⟩
    have before := not_mem_of_isIdentifier userMatched words.separator (by decide)
    have is : raw.toList = raw.toList.takeWhile (· ≠ '@') ++ '@' :: (raw.toList.dropWhile (· ≠ '@')).drop 1 := by
      conv_lhs => rw [← List.takeWhile_append_dropWhile (p := (· ≠ '@')) (l := raw.toList)]
      cases rest : raw.toList.dropWhile (· ≠ '@') with
      | nil =>
        rw [rest] at deviceMatched
        cases deviceMatched
      | cons first tail =>
        have stopped := List.head?_dropWhile_not (fun char => decide (char ≠ '@')) raw.toList
        have separator : first = '@' := by
          rw [rest] at stopped
          simpa using stopped
        rw [separator, List.drop_one, List.tail_cons]
    exact ⟨⟨⟨_, _, is, userMatched, deviceMatched⟩, fits⟩, parts_eq words is before deviceMatched⟩
  · rintro ⟨⟨⟨user, device, is, userMatched, deviceMatched⟩, fits⟩, apart⟩
    have before : ∀ char ∈ user, char ≠ '@' := fun char member same =>
      not_mem_of_isIdentifier userMatched words.separator (by decide) (same ▸ member)
    have stops : raw.toList.takeWhile (· ≠ '@') = user ∧ raw.toList.dropWhile (· ≠ '@') = '@' :: device := by
      rw [is, List.takeWhile_append_of_pos (by simpa using before),
        List.dropWhile_append_of_pos (by simpa using before)]
      simp
    rw [stops.1, stops.2, List.drop_one, List.tail_cons]
    refine ⟨⟨userMatched, deviceMatched, fits⟩, ?_⟩
    rw [parts_eq words is (fun member => before _ member rfl) deviceMatched] at apart
    simp only [List.cons.injEq, and_true] at apart
    rw [apart.1, apart.2]

/-- Both properties return, and their values make up the id again. -/
def Decomposes (lib : DecodingLibrary) (id : DeviceIDText) : Prop :=
  ∃ userId deviceName, id.userId lib = .ok userId ∧ id.deviceName lib = .ok deviceName ∧
    UserID.toDeviceId lib userId deviceName = .ok id

/-- An accepted id can be taken apart if its parts are short enough. -/
theorem decomposes_iff (words : lib.PlainWords) {raw : String} (accepted : new lib raw = .ok id) :
    id.Decomposes lib ↔ ∀ part ∈ id.parts, part.utf8ByteSize ≤ 32 := by
  obtain ⟨⟨matched, -⟩, rfl⟩ := checkedText_eq_ok_iff.mp accepted
  obtain ⟨user, device, is, userMatched, deviceMatched⟩ := matchesDeviceId_iff.mp matched
  have clean : '\n' ∉ user := not_mem_of_isIdentifier userMatched words.newline (by decide)
  have before : '@' ∉ user := not_mem_of_isIdentifier userMatched words.separator (by decide)
  have parts := parts_eq words is before deviceMatched
  have whole : String.ofList user ++ "@" ++ String.ofList device = raw := by
    rw [← String.toList_inj, is]
    simp
  simp only [Decomposes, userId_of_parts parts, deviceName_of_parts parts, UserID.new, DeviceName.new,
    checkedText_eq_ok_iff, parts, List.mem_cons, List.not_mem_nil, or_false, forall_eq_or_imp, forall_eq]
  constructor
  · rintro ⟨_, _, ⟨⟨-, userFits⟩, -⟩, ⟨⟨-, deviceFits⟩, -⟩, -⟩
    exact ⟨userFits, deviceFits⟩
  · rintro ⟨userFits, deviceFits⟩
    refine ⟨_, _, ⟨⟨?_, userFits⟩, rfl⟩, ⟨⟨?_, deviceFits⟩, rfl⟩, ?_⟩
    · rw [matchesIdentifier, String.toList_ofList, dropNewline_of_not_mem clean]
      exact userMatched
    · rw [matchesIdentifier, String.toList_ofList]
      exact deviceMatched
    · rw [UserID.toDeviceId, whole]
      exact accepted

end DeviceIDText

/-- A valid user id and a valid device name make up a device id unless a newline stands between them. -/
theorem toDeviceId_decomposes_iff (words : lib.PlainWords) {rawUser rawDevice : String} {userId : UserID}
    {deviceName : DeviceName} (user : UserID.new lib rawUser = .ok userId)
    (device : DeviceName.new lib rawDevice = .ok deviceName) :
    (∃ id, UserID.toDeviceId lib userId deviceName = .ok id ∧ id.userId lib = .ok userId ∧
        id.deviceName lib = .ok deviceName) ↔ userId.toList.getLast? ≠ some '\n' := by
  obtain ⟨⟨userMatched, userFits⟩, rfl⟩ := checkedText_eq_ok_iff.mp user
  obtain ⟨⟨deviceMatched, deviceFits⟩, rfl⟩ := checkedText_eq_ok_iff.mp device
  have before : '@' ∉ rawUser.toList := words.separator_not_mem userMatched
  have whole : (rawUser ++ "@" ++ rawDevice).toList = rawUser.toList ++ '@' :: rawDevice.toList := by simp
  constructor
  · rintro ⟨id, accepted, -, -⟩ newline
    obtain ⟨⟨matched, -⟩, rfl⟩ := checkedText_eq_ok_iff.mp accepted
    obtain ⟨first, second, is, firstMatched, -⟩ := matchesDeviceId_iff.mp matched
    have noSeparator : '@' ∉ first := not_mem_of_isIdentifier firstMatched words.separator (by decide)
    -- Both splits are at the first separator.
    have split := congrArg (List.splitOn '@') (whole.symm.trans is)
    rw [List.splitOn_append_cons_self_of_not_mem before,
      List.splitOn_append_cons_self_of_not_mem noSeparator] at split
    have same : rawUser.toList = first := (List.cons.inj split).1
    exact not_mem_of_isIdentifier firstMatched words.newline (by decide) (same ▸ List.mem_of_getLast? newline)
  · intro noNewline
    have kept : dropNewline rawUser.toList = rawUser.toList := if_neg noNewline
    have userIdentifier : isIdentifier lib rawUser.toList = true := by rw [← kept]; exact userMatched
    have parts := DeviceIDText.parts_eq words whole before deviceMatched
    refine ⟨rawUser ++ "@" ++ rawDevice, ?_, ?_, ?_⟩
    · refine checkedText_eq_ok_iff.mpr ⟨⟨matchesDeviceId_iff.mpr ⟨_, _, whole, userIdentifier, deviceMatched⟩, ?_⟩, rfl⟩
      have one : ("@" : String).utf8ByteSize = 1 := by decide
      simp only [String.utf8ByteSize_append]
      omega
    · rw [DeviceIDText.userId_of_parts parts, String.ofList_toList]
      exact user
    · rw [DeviceIDText.deviceName_of_parts parts, String.ofList_toList]
      exact device

/-- A device id decomposes if and only if none of its parts has more than thirty-two bytes. A user id and a
device name make up a device id that decomposes into them if and only if no newline ends the user id. -/
theorem device_ids_decompose_iff (lib : DecodingLibrary) (words : lib.PlainWords) :
    (∀ raw id, DeviceIDText.new lib raw = .ok id →
      (id.Decomposes lib ↔ ∀ part ∈ id.parts, part.utf8ByteSize ≤ 32)) ∧
    ∀ rawUser rawDevice userId deviceName, UserID.new lib rawUser = .ok userId →
      DeviceName.new lib rawDevice = .ok deviceName →
      ((∃ id, UserID.toDeviceId lib userId deviceName = .ok id ∧ id.userId lib = .ok userId ∧
          id.deviceName lib = .ok deviceName) ↔ userId.toList.getLast? ≠ some '\n') :=
  ⟨fun _ _ accepted => DeviceIDText.decomposes_iff words accepted,
    fun _ _ _ _ user device => toDeviceId_decomposes_iff words user device⟩

section Example

/-- An accented letter belongs to a word. -/
private def accentedLibrary : DecodingLibrary :=
  { plainLibrary with wordCharacter := fun char => char.isAlphanum || char = '_' || char = '\u00e9' }

private theorem accentedWords : accentedLibrary.PlainWords := ⟨by decide, by decide⟩

/-- Seventeen accented letters have thirty-four bytes. The user id that ends with a newline is a user id. -/
theorem long_part_is_no_user_id :
    (∃ id, DeviceIDText.new accentedLibrary (String.ofList (List.replicate 17 '\u00e9' ++ "@pc".toList)) = .ok id ∧
      id.userId accentedLibrary = .error (.value "Invalid user name")) ∧
    UserID.new accentedLibrary "alice\n" = .ok "alice\n" ∧ DeviceName.new accentedLibrary "pc" = .ok "pc" ∧
      UserID.toDeviceId accentedLibrary "alice\n" "pc" = .error (.value "Invalid device ID") :=
  ⟨⟨_, rfl, by decide⟩, by decide, by decide, by decide⟩

/-- Parts of ten and of two bytes, where the first five letters have two each. -/
theorem device_ids_decompose_iff_accented :
    DeviceIDText.Decomposes accentedLibrary "\u00e9\u00e9\u00e9\u00e9\u00e9@pc" ∧
      ∃ id, UserID.toDeviceId accentedLibrary "\u00e9" "pc" = .ok id ∧ id.userId accentedLibrary = .ok "\u00e9" ∧
        id.deviceName accentedLibrary = .ok "pc" :=
  ⟨((device_ids_decompose_iff accentedLibrary accentedWords).1 "\u00e9\u00e9\u00e9\u00e9\u00e9@pc" _
      (by decide)).mpr (by decide),
    ((device_ids_decompose_iff accentedLibrary accentedWords).2 "\u00e9" "pc" _ _ (by decide) (by decide)).mpr
      (by decide)⟩

end Example

end Guardata

import Guardata.Proofs.WindowsPaths

/-! # Windows names are read back

A name that has something like an escape in it is not told from the name that the escape stands for. Behind a
reserved word a backslash is not escaped, and in a path it becomes a separator. Everything else comes back, unless
a name of a path has become too long to be a name again.
-/

namespace Guardata

/-- A name that is told from all others in a path. -/
def ReadsBackInPath (name : EntryName) : Prop :=
  hasEscape name.toList = false ∧ ¬ (isReservedName name.toList ∧ '\\' ∈ name.toList) ∧ name.utf8ByteSize < 256

instance (name : EntryName) : Decidable (ReadsBackInPath name) := inferInstanceAs (Decidable (_ ∧ _))

section Names

/-- Every character has some weight, for names without paths. -/
theorem lightEscapes_one : LightEscapes fun _ => 1 := ⟨fun _ _ => by decide, fun _ _ => by decide⟩

/-- A name is read back if and only if nothing in it looks like an escape. -/
theorem unwinify_winify_iff {name : String} (nonempty : name ≠ "") : ∃ shown, winifyEntryName name = .ok shown ∧
    (unwinifyEntryName shown = .ok name ↔ hasEscape name.toList = false) := by
  have some : name.toList ≠ [] := fun nil => nonempty (String.toList_eq_nil_iff.mp nil)
  obtain ⟨text, escaped, shown⟩ := exists_presented '\\' some
  have same : asSeen '\\' name.toList = name.toList := by
    rw [asSeen, slashed_self, ite_self]
  rw [slashed_self, same] at shown
  rw [String.ofList_toList] at escaped
  refine ⟨_, escaped, ?_⟩
  rw [unwinifyEntryName_eq, String.toList_ofList]
  constructor
  · intro reads
    obtain ⟨decoded, decodes, rfl⟩ := Except.map_eq_ok_iff.mp reads
    rw [String.toList_ofList] at shown ⊢
    refine Bool.eq_false_iff.mpr fun own => ?_
    have less := (shown.weigh_le lightEscapes_one decodes).2 own
    exact absurd less (lt_irrefl _)
  · intro plain
    rw [shown.unescape_eq plain]
    exact congrArg Except.ok String.ofList_toList

/-- Names that are read back are shown differently. -/
theorem winify_ne {first second shownFirst shownSecond : String} (some : first ≠ "" ∧ second ≠ "")
    (plain : hasEscape first.toList = false ∧ hasEscape second.toList = false) (different : first ≠ second)
    (winifyFirst : winifyEntryName first = .ok shownFirst) (winifySecond : winifyEntryName second = .ok shownSecond) :
    shownFirst ≠ shownSecond := by
  rintro rfl
  obtain ⟨_, shown, readsFirst⟩ := unwinify_winify_iff some.1
  cases shown.symm.trans winifyFirst
  obtain ⟨_, shown, readsSecond⟩ := unwinify_winify_iff some.2
  cases shown.symm.trans winifySecond
  exact different (Except.ok.inj ((readsFirst.mpr plain.1).symm.trans (readsSecond.mpr plain.2)))

end Names

section Paths

variable {normalize : String → String} {weight : Char → ℕ} {path : FsPath}

theorem parsecToWinpath_toList (shown : List (List Char)) :
    (replaceBackslashes ("\\" ++ "\\".intercalate (shown.map String.ofList))).toList =
      '/' :: ['/'].intercalate (shown.map (slashed '/')) := by
  have inside : slashed '/' (['\\'].intercalate shown) = ['/'].intercalate (shown.map (slashed '/')) := by
    induction shown with
    | nil => rfl
    | cons text rest ih =>
      cases rest with
      | nil => simp
      | cons next rest =>
        rw [List.intercalate_cons_cons, slashed_append, slashed_append, ih]
        exact List.intercalate_cons_cons.symm
  have texts : (shown.map String.ofList).map String.toList = shown := by
    rw [List.map_map]
    exact (List.map_congr_left fun _ _ => String.toList_ofList).trans (List.map_id _)
  rw [replaceBackslashes, String.toList_ofList, String.toList_append, String.toList_intercalate, texts]
  exact congrArg ('/' :: ·) inside

/-- The names of a path that is read back are weighed one by one. -/
theorem weigh_decoded (canonical : CanonicalWeight normalize weight) {shown decoded : List (List Char)}
    (rel : List.Forall₂ (fun text (name : EntryName) =>
      Presented (slashed '/' text) (asSeen '/' name.toList)) shown path)
    (reads : (shown.map (slashed '/')).mapM unescape = .ok decoded) :
    (decoded.map (weigh weight)).sum ≤ weighNames weight path ∧
      ((∃ name ∈ path, hasEscape name.toList ∨ (isReservedName name.toList ∧ '\\' ∈ name.toList)) →
        (decoded.map (weigh weight)).sum < weighNames weight path) := by
  induction rel generalizing decoded with
  | nil =>
    cases reads
    exact ⟨le_rfl, nofun⟩
  | @cons text name shown path here rel ih =>
    simp only [List.map_cons, List.mapM_cons, Except.bind_eq_ok_iff, Except.pure_eq_ok_iff] at reads
    obtain ⟨first, readsFirst, others, readsOthers, rfl⟩ := reads
    obtain ⟨le, lt⟩ := ih readsOthers
    have single := here.weigh_le canonical.toLightEscapes readsFirst
    rw [hasEscape_asSeen (.inr rfl)] at single
    have slashes := weigh_slashed canonical.toLightEscapes canonical.separator name.toList
    have seen : weigh weight (asSeen '/' name.toList) ≤ weigh weight name.toList ∧
        (isReservedName name.toList ∧ '\\' ∈ name.toList →
          weigh weight (asSeen '/' name.toList) < weigh weight name.toList) := by
      rw [asSeen]
      split
      · next reserved => exact ⟨slashes.1, fun both => slashes.2 both.2⟩
      · next other => exact ⟨le_rfl, fun both => absurd both.1 other⟩
    have total : weighNames weight (name :: path) = weigh weight name.toList + weighNames weight path := rfl
    rw [List.map_cons, List.sum_cons, total]
    refine ⟨by omega, ?_⟩
    rintro ⟨bad, member, why⟩
    rcases List.mem_cons.mp member with rfl | member
    · rcases why with own | both
      · have := single.2 own
        omega
      · have := seen.2 both
        omega
    · have := lt ⟨bad, member, why⟩
      omega

/-- Names without escapes and without open backslashes are read as they are. -/
theorem decoded_eq {shown : List (List Char)}
    (rel : List.Forall₂ (fun text (name : EntryName) =>
      Presented (slashed '/' text) (asSeen '/' name.toList)) shown path)
    (plain : ∀ name ∈ path, hasEscape name.toList = false ∧ ¬ (isReservedName name.toList ∧ '\\' ∈ name.toList)) :
    (shown.map (slashed '/')).mapM unescape = .ok (path.map String.toList) := by
  induction rel with
  | nil => rfl
  | @cons text name shown path here rel ih =>
    rw [List.forall_mem_cons] at plain
    have seen : asSeen '/' name.toList = name.toList := by
      rw [asSeen]
      split
      · next reserved => exact slashed_of_not_mem fun backslash => plain.1.2 ⟨reserved, backslash⟩
      · rfl
    rw [seen] at here
    rw [List.map_cons, List.mapM_cons, here.unescape_eq plain.1.1, ih plain.2]
    rfl

/-- The name of an entry stands behind the path of its folder. -/
theorem parsecToWinpath_concat_iff {folder : FsPath} {name : EntryName} {whole : String} :
    parsecToWinpath (folder ++ [name]) = .ok whole ↔ ∃ shownFolder shown, parsecToWinpath folder = .ok shownFolder ∧
      winifyEntryName name = .ok shown ∧
        (if folder.isRoot then shownFolder ++ shown else shownFolder ++ "\\" ++ shown) = whole := by
  have empty {names : List String} (winified : folder.mapM winifyEntryName = .ok names) :
      names.isEmpty = folder.isRoot := by
    cases folder with
    | nil => cases winified; rfl
    | cons first rest =>
      simp only [List.mapM_cons, Except.bind_eq_ok_iff, Except.pure_eq_ok_iff] at winified
      obtain ⟨_, -, _, -, rfl⟩ := winified
      rfl
  have joined {names : List String} (last : String) (winified : folder.mapM winifyEntryName = .ok names) :
      "\\" ++ "\\".intercalate (names ++ [last]) =
        if folder.isRoot then "\\" ++ "\\".intercalate names ++ last
        else "\\" ++ "\\".intercalate names ++ "\\" ++ last := by
    rw [← empty winified]
    cases names with
    | nil => simp
    | cons first rest =>
      rw [String.intercalate_append_of_ne_nil (by simp) (by simp)]
      simp [String.append_assoc]
  simp only [parsecToWinpath, List.mapM_append, List.mapM_cons, List.mapM_nil, Except.bind_eq_ok_iff,
    Except.pure_eq_ok_iff]
  constructor
  · rintro ⟨_, ⟨names, winified, _, ⟨last, shown, _, rfl, rfl⟩, rfl⟩, rfl⟩
    exact ⟨_, last, ⟨names, winified, rfl⟩, shown, (joined last winified).symm⟩
  · rintro ⟨_, last, ⟨names, winified, rfl⟩, shown, rfl⟩
    exact ⟨_, ⟨names, winified, _, ⟨last, shown, _, rfl, rfl⟩, rfl⟩, joined last winified⟩

/-- A path is read back if and only if each of its names is. -/
theorem winpath_round_trip_iff (form : NormalForm normalize) (canonical : CanonicalWeight normalize weight)
    (valid : path.IsValid normalize) : ∃ shown, parsecToWinpath path = .ok shown ∧
      (winpathToGuardata normalize shown = .ok path ↔ ∀ name ∈ path, ReadsBackInPath name) := by
  have nonempty : ∀ name ∈ path, name ≠ "" := by
    intro name member nil
    exact (valid name member).plain form (by simp [nil])
  obtain ⟨shown, winified, rel⟩ := exists_presented_path nonempty
  refine ⟨"\\" ++ "\\".intercalate (shown.map String.ofList), ?_, ?_⟩
  · rw [parsecToWinpath, winified]
    rfl
  have reading {read : FsPath} :
      winpathToGuardata normalize ("\\" ++ "\\".intercalate (shown.map String.ofList)) = .ok read ↔
        ∃ decoded, (shown.map (slashed '/')).mapM unescape = .ok decoded ∧
          FsPath.parse normalize (.ofList ('/' :: ['/'].intercalate decoded)) = .ok read := by
    rw [winpathToGuardata, unwinifyEntryName_eq, parsecToWinpath_toList, unescape_path]
    cases (shown.map (slashed '/')).mapM unescape with
    | error err => simp [Except.map, bind, Except.bind]
    | ok decoded => simp [Except.map, bind, Except.bind]
  have text : FsPath.text path = .ofList ('/' :: ['/'].intercalate (path.map String.toList)) := by
    rw [← FsPath.toList_text, String.ofList_toList]
  rw [reading]
  constructor
  · rintro ⟨decoded, reads, parsed⟩
    obtain ⟨-, lt⟩ := weigh_decoded canonical rel reads
    have kept := weighNames_parse_le canonical parsed
    rw [String.toList_ofList, weigh_cons, canonical.separator, weigh_intercalate canonical.separator] at kept
    have plain : ∀ name ∈ path,
        hasEscape name.toList = false ∧ ¬ (isReservedName name.toList ∧ '\\' ∈ name.toList) := by
      intro name member
      by_contra bad
      have := lt ⟨name, member, by simpa [or_iff_not_imp_left] using bad⟩
      omega
    cases (decoded_eq rel plain).symm.trans reads
    rw [← text, FsPath.parse_text_iff form valid] at parsed
    exact fun name member => ⟨(plain name member).1, (plain name member).2, parsed.1 name member⟩
  · intro reads
    refine ⟨_, decoded_eq rel fun name member => ⟨(reads name member).1, (reads name member).2.1⟩, ?_⟩
    rw [← text, FsPath.parse_text_iff form valid]
    exact ⟨fun name member => (reads name member).2.2, rfl⟩

end Paths

/-- Windows names are read back if and only if nothing in them looks like an escape, and paths if moreover no
backslash stands behind a reserved word and no name has become too long to be one again. Names without escapes are
then shown differently, and what is shown of an entry opens it. -/
theorem windows_names_reversible_iff (normalize : String → String) (weight : Char → ℕ) (form : NormalForm normalize)
    (canonical : CanonicalWeight normalize weight) :
    (∀ name, EntryName.IsValid normalize name → ∃ shown, winifyEntryName name = .ok shown ∧
      (unwinifyEntryName shown = .ok name ↔ hasEscape name.toList = false)) ∧
    (∀ path : FsPath, path.IsValid normalize → ∃ shown, parsecToWinpath path = .ok shown ∧
      (winpathToGuardata normalize shown = .ok path ↔ ∀ name ∈ path, ReadsBackInPath name)) ∧
    (∀ first second, EntryName.IsValid normalize first → EntryName.IsValid normalize second → first ≠ second →
      hasEscape first.toList = false → hasEscape second.toList = false →
        winifyEntryName first ≠ winifyEntryName second) ∧
    ∀ (folder : FsPath) name, FsPath.IsValid normalize (folder ++ [name]) →
      ∃ shownFolder shown, parsecToWinpath folder = .ok shownFolder ∧ winifyEntryName name = .ok shown ∧
        (winpathToGuardata normalize (if folder.isRoot then shownFolder ++ shown else shownFolder ++ "\\" ++ shown) =
            .ok (folder ++ [name]) ↔ ∀ part ∈ folder ++ [name], ReadsBackInPath part) := by
  have nonempty {name : String} (valid : EntryName.IsValid normalize name) : name ≠ "" := by
    rintro rfl
    exact valid.plain form (by simp)
  refine ⟨fun name valid => unwinify_winify_iff (nonempty valid),
    fun path valid => winpath_round_trip_iff form canonical valid, ?_, ?_⟩
  · intro first second validFirst validSecond different plainFirst plainSecond same
    obtain ⟨shownFirst, winifyFirst, -⟩ := unwinify_winify_iff (nonempty validFirst)
    exact winify_ne ⟨nonempty validFirst, nonempty validSecond⟩ ⟨plainFirst, plainSecond⟩ different winifyFirst
      (same ▸ winifyFirst) rfl
  · intro folder name valid
    obtain ⟨whole, shows, reads⟩ := winpath_round_trip_iff form canonical valid
    obtain ⟨shownFolder, shownName, folderShown, nameShown, rfl⟩ := parsecToWinpath_concat_iff.mp shows
    exact ⟨shownFolder, shownName, folderShown, nameShown, reads⟩

section Example

/-- The names of the example are in normal form, and no character of theirs decomposes. -/
private theorem id_form : NormalForm id := ⟨fun _ => rfl, fun _ clean => clean, fun _ _ => rfl⟩

private def plainWeight (char : Char) : ℕ := if char = '/' then 0 else 1

private theorem id_canonical : CanonicalWeight id plainWeight where
  pos char other := by simp [plainWeight, other]
  light char _ := by
    rw [plainWeight]
    split
    · exact Nat.zero_le 2
    · exact Nat.le_succ 1
  separator := rfl
  normalize _ := rfl

/-- What looks like an escape is read as one, so that two names are shown as one; a backslash behind a reserved
word divides it into two names. -/
theorem escape_like_name_not_read_back :
    (EntryName.new id "a~41" = .ok "a~41" ∧ winifyEntryName "a~41" = .ok "a~41" ∧
      unwinifyEntryName "a~41" = .ok "aA") ∧
    (EntryName.new id "a:" = .ok "a:" ∧ EntryName.new id "a~3a" = .ok "a~3a" ∧
      winifyEntryName "a:" = .ok "a~3a" ∧ winifyEntryName "a~3a" = .ok "a~3a") ∧
    FsPath.parse id "/CON.a\\b" = .ok ["CON.a\\b"] ∧ parsecToWinpath ["CON.a\\b"] = .ok "\\CO~4e.a\\b" ∧
      winpathToGuardata id "\\CO~4e.a\\b" = .ok ["CON.a", "b"] := by
  decide +kernel

/-- A reserved word, reserved characters and a dot at the end. -/
theorem windows_names_reversible_iff_some :
    (∃ shown, winifyEntryName "CON.x:y" = .ok shown ∧ unwinifyEntryName shown = .ok "CON.x:y") ∧
      (∃ shown, parsecToWinpath ["CON.x:y", "a|b~c."] = .ok shown ∧
        winpathToGuardata id shown = .ok ["CON.x:y", "a|b~c."]) ∧
      winifyEntryName "CON.x:y" ≠ winifyEntryName "a|b~c." ∧
      ∃ shownFolder shown, parsecToWinpath ["CON.x:y"] = .ok shownFolder ∧ winifyEntryName "a|b~c." = .ok shown ∧
        winpathToGuardata id (shownFolder ++ "\\" ++ shown) = .ok ["CON.x:y", "a|b~c."] := by
  obtain ⟨names, paths, distinct, opened⟩ := windows_names_reversible_iff id plainWeight id_form id_canonical
  have first : EntryName.IsValid id "CON.x:y" := ⟨"CON.x:y", by decide⟩
  have second : EntryName.IsValid id "a|b~c." := ⟨"a|b~c.", by decide⟩
  have both : FsPath.IsValid id ["CON.x:y", "a|b~c."] := by
    intro name member
    rcases List.mem_cons.mp member with rfl | member
    · exact first
    · exact List.mem_singleton.mp member ▸ second
  have reads : ∀ name ∈ ["CON.x:y", "a|b~c."], ReadsBackInPath name := by decide +kernel
  refine ⟨?_, ?_, distinct _ _ first second (by decide) (by decide) (by decide), ?_⟩
  · obtain ⟨shown, winified, back⟩ := names _ first
    exact ⟨shown, winified, back.mpr (by decide)⟩
  · obtain ⟨shown, winified, back⟩ := paths _ both
    exact ⟨shown, winified, back.mpr reads⟩
  · obtain ⟨shownFolder, shown, folderShown, nameShown, back⟩ := opened ["CON.x:y"] "a|b~c." both
    exact ⟨shownFolder, shown, folderShown, nameShown, back.mpr reads⟩

end Example

end Guardata

import Mathlib.Data.List.Dedup
import Guardata.Model.FolderMerge

/-! # Where a merge puts each child

Every surviving id has one intended name, which depends on the three mappings only. Walking
through the ids places each of them under that name as long as no local child finds its own name
taken by an earlier local one: `merge_places`. Insertions under equal names overwrite each other.
-/

namespace Guardata

section Reversed

variable {children : Dict EntryName EntryID}

theorem get?_reversedChildren (unique : children.values.Nodup) {id : EntryID} {name : EntryName} :
    (reversedChildren children).get? id = some name ↔ children.get? name = some id := by
  have distinct : ((children.items.map Prod.swap).map Prod.fst).Nodup := by
    rw [List.map_map]
    exact unique
  rw [Dict.get?_eq_some_iff, Dict.get?_eq_some_iff, reversedChildren, Dict.items_ofList_of_nodup distinct]
  simp

/-- A name that an id is reversed to holds that id. -/
theorem get?_of_reversedChildren {id : EntryID} {name : EntryName}
    (found : (reversedChildren children).get? id = some name) : children.get? name = some id := by
  rcases Dict.mem_of_get?_insertMany found with member | nothing
  · obtain ⟨⟨_, _⟩, entry, same⟩ := List.mem_map.mp member
    cases same
    exact Dict.get?_eq_some_iff.mpr entry
  · cases nothing

theorem exists_get?_reversedChildren (unique : children.values.Nodup) {id : EntryID} :
    (∃ name, (reversedChildren children).get? id = some name) ↔ id ∈ children.values := by
  rw [Dict.mem_values_iff]
  simp [get?_reversedChildren unique]

end Reversed

namespace ConflictingChildren

variable (normalize : String → String) (conflict : ConflictingChildren)

/-- No entry id occurs under two names of one mapping. -/
structure Unique : Prop where
  baseSide : conflict.baseChildren.values.Nodup
  localSide : conflict.localChildren.values.Nodup
  remoteSide : conflict.remoteChildren.values.Nodup

/-- The names that the remote side lays down. -/
def takenNames : List EntryName :=
  conflict.remoteChildren.values.filterMap fun id =>
    match conflict.rightfulNameOf id with
    | .remoteSide name suffixes => (fullName normalize name suffixes).toOption
    | _ => none

/-- The name an id is to get, if it survives: the remote one, with a suffix if both sides renamed
it, or the local one, with a suffix if the remote side lays down the same name. -/
def intendedName (id : EntryID) : Option (Except InvalidEntryName EntryName) :=
  match conflict.rightfulNameOf id with
  | .removed => none
  | .remoteSide name suffixes => some (fullName normalize name suffixes)
  | .localSide name => some <|
      if name ∈ conflict.takenNames normalize then
        fullName normalize name ["conflicting with " ++ conflict.remoteDeviceName]
      else .ok name

/-- The local children that a walk solves, in its order. -/
def localChild? (id : EntryID) : Option (EntryName × EntryID × List String) :=
  match conflict.rightfulNameOf id with
  | .localSide name => some (name, id, [])
  | _ => none

/-- The remote children that a walk solves, in its order. -/
def remoteChild? (id : EntryID) : Option (EntryName × EntryID × List String) :=
  match conflict.rightfulNameOf id with
  | .remoteSide name suffixes => some (name, id, suffixes)
  | _ => none

variable {normalize : String → String} {conflict : ConflictingChildren}

theorem get?_of_localSide {id : EntryID} {name : EntryName}
    (rightful : conflict.rightfulNameOf id =
      .localSide name) : conflict.localChildren.get? name = some id := by
  apply get?_of_reversedChildren
  unfold rightfulNameOf rightfulName at rightful
  split at rightful
  · next found => cases rightful; exact found
  · cases rightful
  · cases rightful
  · cases rightful
  · next found _ =>
    split_ifs at rightful
    · cases rightful; exact found
    · cases rightful; exact found

theorem get?_of_remoteSide {id : EntryID} {name : EntryName}
    {suffixes : List String}
    (rightful : conflict.rightfulNameOf id =
      .remoteSide name suffixes) : conflict.remoteChildren.get? name = some id := by
  apply get?_of_reversedChildren
  unfold rightfulNameOf rightfulName at rightful
  split at rightful
  · cases rightful
  · next found => cases rightful; exact found
  · cases rightful
  · cases rightful
  · next found =>
    split_ifs at rightful
    · cases rightful; exact found
    · cases rightful; exact found

/-- The ids that a merge has to keep. -/
theorem rightfulNameOf_ne_removed_iff (unique : conflict.Unique) {id : EntryID} :
    conflict.rightfulNameOf id ≠ .removed ↔
      (id ∉ conflict.baseChildren.values ∧
        (id ∈ conflict.localChildren.values ∨ id ∈ conflict.remoteChildren.values)) ∨
      (id ∈ conflict.baseChildren.values ∧ id ∈ conflict.localChildren.values ∧
        id ∈ conflict.remoteChildren.values) := by
  rw [← exists_get?_reversedChildren unique.baseSide, ← exists_get?_reversedChildren unique.localSide,
    ← exists_get?_reversedChildren unique.remoteSide, rightfulNameOf]
  cases (reversedChildren conflict.baseChildren).get? id <;>
    cases (reversedChildren conflict.localChildren).get? id <;>
    cases (reversedChildren conflict.remoteChildren).get? id <;> simp [rightfulName]
  split_ifs <;> simp

/-- Solving inserts the entries of the walk, side by side. -/
theorem foldl_solveChild (ids : List EntryID) (solved : SolvedChildren) :
    ids.foldl (solveChild conflict) solved =
      { localSide := solved.localSide.insertMany
          (ids.filterMap conflict.localChild?)
        remoteSide := solved.remoteSide.insertMany
          (ids.filterMap conflict.remoteChild?) } := by
  induction ids generalizing solved with
  | nil => rfl
  | cons id rest ih =>
    rw [List.foldl_cons, ih]
    cases rightful : conflict.rightfulNameOf id with
    | removed => simp [solveChild, localChild?, remoteChild?, rightful]
    | remoteSide name suffixes =>
      simp [solveChild, localChild?, remoteChild?, rightful, get?_of_remoteSide rightful,
        Dict.insertMany]
    | localSide name =>
      simp [solveChild, localChild?, remoteChild?, rightful, get?_of_localSide rightful,
        Dict.insertMany]

theorem localChild?_eq_some_iff {id : EntryID} {entry : EntryName × EntryID × List String} :
    conflict.localChild? id = some entry ↔
      conflict.rightfulNameOf id =
        .localSide entry.1 ∧ entry.2 = (id, []) := by
  obtain ⟨name, other, suffixes⟩ := entry
  cases rightful : conflict.rightfulNameOf id <;>
    simp [localChild?, rightful, eq_comm]

theorem remoteChild?_eq_some_iff {id : EntryID} {entry : EntryName × EntryID × List String} :
    conflict.remoteChild? id = some entry ↔
      conflict.rightfulNameOf id =
        .remoteSide entry.1 entry.2.2 ∧ entry.2.1 = id := by
  obtain ⟨name, other, suffixes⟩ := entry
  cases rightful : conflict.rightfulNameOf id <;>
    simp [remoteChild?, rightful, eq_comm, and_comm, and_left_comm]

theorem mem_takenNames_iff {name : EntryName} :
    name ∈ conflict.takenNames normalize ↔
      ∃ id original suffixes,
        conflict.rightfulNameOf id =
          .remoteSide original suffixes ∧ fullName normalize original suffixes = .ok name := by
  rw [takenNames, List.mem_filterMap]
  constructor
  · rintro ⟨id, -, found⟩
    split at found
    · next original suffixes rightful =>
      exact ⟨id, original, suffixes, rightful, Except.toOption_eq_some_iff.mp found⟩
    · cases found
  · rintro ⟨id, original, suffixes, rightful, full⟩
    refine ⟨id, Dict.mem_values_iff.mpr ⟨original, get?_of_remoteSide rightful⟩, ?_⟩
    rw [rightful]
    exact Except.toOption_eq_some_iff.mpr full

/-- A walk meets every name once on each side, so solving keeps its order. -/
theorem nodup_names {ids : List EntryID} (nodup : ids.Nodup) {children : Dict EntryName EntryID}
    (solved? : EntryID → Option (EntryName × EntryID × List String))
    (named : ∀ id entry, solved? id = some entry → children.get? entry.1 = some id) :
    ((ids.filterMap solved?).map Prod.fst).Nodup := by
  rw [List.map_filterMap]
  apply nodup.filterMap
  intro first second name foundFirst foundSecond
  obtain ⟨entry, atFirst, rfl⟩ := Option.map_eq_some_iff.mp foundFirst
  obtain ⟨entry', atSecond, same⟩ := Option.map_eq_some_iff.mp foundSecond
  have left := named first entry atFirst
  rw [← same, named second entry' atSecond] at left
  exact (Option.some.inj left).symm

theorem mergeFolderChildren_eq {ids : List EntryID} (nodup : ids.Nodup) :
    mergeFolderChildren normalize conflict ids =
      ((ids.filterMap conflict.remoteChild?).foldlM
        (placeRemoteChild normalize) ∅ >>= fun children =>
      (ids.filterMap conflict.localChild?).foldlM
        (placeLocalChild normalize conflict.remoteDeviceName) children) := by
  have locals := nodup_names nodup
    conflict.localChild? fun id entry found =>
    get?_of_localSide (localChild?_eq_some_iff.mp found).1
  have remotes := nodup_names nodup
    conflict.remoteChild? fun id entry found =>
    get?_of_remoteSide (remoteChild?_eq_some_iff.mp found).1
  rw [mergeFolderChildren, foldl_solveChild]
  change ((Dict.ofList _).items.foldlM _ _ >>= fun children => (Dict.ofList _).items.foldlM _ children) = _
  rw [Dict.items_ofList_of_nodup remotes, Dict.items_ofList_of_nodup locals]

end ConflictingChildren

section Phases

variable {normalize : String → String} {remoteDeviceName : String}

/-- The entries of a list, each under a given name. -/
def placed (name : EntryID → EntryName) (entries : List (EntryName × EntryID × List String)) :
    List (EntryName × EntryID) :=
  entries.map fun entry => (name entry.2.1, entry.2.1)

theorem foldlM_placeRemote {name : EntryID → EntryName}
    {entries : List (EntryName × EntryID × List String)}
    (allowed : ∀ entry ∈ entries, fullName normalize entry.1 entry.2.2 = .ok (name entry.2.1))
    (children : Dict EntryName EntryID) :
    entries.foldlM (placeRemoteChild normalize) children =
      .ok (children.insertMany (placed name entries)) := by
  induction entries generalizing children with
  | nil => rfl
  | cons entry rest ih =>
    have head : placeRemoteChild normalize children entry =
        .ok (children.insert (name entry.2.1) entry.2.1) := by
      rw [placeRemoteChild, allowed entry (by simp)]
      rfl
    rw [List.foldlM_cons, head]
    exact ih (fun other member => allowed other (by simp [member])) _

theorem foldlM_placeRemote_returns {entries : List (EntryName × EntryID × List String)}
    (allowed : ∀ entry ∈ entries, ∃ name, fullName normalize entry.1 entry.2.2 = .ok name)
    (children : Dict EntryName EntryID) :
    ∃ result, entries.foldlM (placeRemoteChild normalize) children = .ok result := by
  induction entries generalizing children with
  | nil => exact ⟨children, rfl⟩
  | cons entry rest ih =>
    obtain ⟨name, full⟩ := allowed entry (by simp)
    rw [List.foldlM_cons, placeRemoteChild, full]
    exact ih (fun other member => allowed other (by simp [member])) _

/-- Laying remote children down adds their full names to what is there. -/
theorem contains_foldlM_placeRemote {entries : List (EntryName × EntryID × List String)}
    {children result : Dict EntryName EntryID}
    (laid : entries.foldlM (placeRemoteChild normalize) children = .ok result) {query : EntryName} :
    result.contains query = true ↔ children.contains query = true ∨
      ∃ entry ∈ entries, fullName normalize entry.1 entry.2.2 = .ok query := by
  induction entries generalizing children with
  | nil =>
    cases laid
    simp
  | cons entry rest ih =>
    rw [List.foldlM_cons, Except.bind_eq_ok_iff] at laid
    obtain ⟨next, head, tail⟩ := laid
    simp only [placeRemoteChild, Except.bind_eq_ok_iff, Except.pure_eq_ok_iff] at head
    obtain ⟨name, allowed, rfl⟩ := head
    rw [ih tail, Dict.contains_insert_iff]
    simp only [List.mem_cons, exists_eq_or_imp, allowed, Except.ok.injEq, eq_comm (a := query)]
    tauto

theorem allowed_of_foldlM_placeRemote {entries : List (EntryName × EntryID × List String)}
    {children result : Dict EntryName EntryID}
    (returned : entries.foldlM (placeRemoteChild normalize) children = .ok result) :
    ∀ entry ∈ entries, ∃ name, fullName normalize entry.1 entry.2.2 = .ok name := by
  induction entries generalizing children with
  | nil => simp
  | cons entry rest ih =>
    rw [List.foldlM_cons, Except.bind_eq_ok_iff] at returned
    obtain ⟨next, head, tail⟩ := returned
    simp only [placeRemoteChild, Except.bind_eq_ok_iff] at head
    obtain ⟨name, allowed, -⟩ := head
    intro other member
    rcases List.mem_cons.mp member with rfl | member
    · exact ⟨name, allowed⟩
    · exact ih tail other member

/-- The local children go under their given names if these are what the remote names demand, and
no local child stands in front under the free name of another. -/
theorem foldlM_placeLocal {name : EntryID → EntryName} {taken : List EntryName}
    {entries : List (EntryName × EntryID × List String)} {children : Dict EntryName EntryID}
    (allowed : ∀ entry ∈ entries, entry.2.2 = [] ∧
      (if entry.1 ∈ taken then fullName normalize entry.1 ["conflicting with " ++ remoteDeviceName]
        else .ok entry.1) = .ok (name entry.2.1))
    (apart : entries.Pairwise fun earlier later => later.1 ∉ taken → name earlier.2.1 ≠ later.1)
    (covered : ∀ free ∈ taken, children.contains free = true)
    (exact : ∀ entry ∈ entries, children.contains entry.1 = true → entry.1 ∈ taken) :
    entries.foldlM (placeLocalChild normalize remoteDeviceName) children =
      .ok (children.insertMany (placed name entries)) := by
  induction entries generalizing children with
  | nil => rfl
  | cons entry rest ih =>
    obtain ⟨noSuffix, named⟩ := allowed entry (by simp)
    obtain ⟨headApart, restApart⟩ := List.pairwise_cons.mp apart
    have head : placeLocalChild normalize remoteDeviceName children entry =
        .ok (children.insert (name entry.2.1) entry.2.1) := by
      rw [placeLocalChild, noSuffix]
      by_cases clash : entry.1 ∈ taken
      · rw [if_pos clash] at named
        simp [covered _ clash, named, bind, Except.bind, pure, Except.pure]
      · rw [if_neg clash] at named
        have free : children.contains entry.1 = false :=
          Bool.eq_false_iff.mpr fun present => clash (exact entry (by simp) present)
        simpa [free, fullName, bind, Except.bind, pure, Except.pure] using
          congrArg (children.insert · entry.2.1) (Except.ok.inj named)
    rw [List.foldlM_cons, head]
    refine ih (fun other member => allowed other (by simp [member])) restApart ?_ ?_
    · exact fun free member => Dict.contains_insert_iff.mpr (.inr (covered free member))
    · intro other member present
      rcases Dict.contains_insert_iff.mp present with same | old
      · by_contra free
        exact headApart other member free same.symm
      · exact exact other (by simp [member]) old

theorem allowed_of_foldlM_placeLocal {taken : List EntryName}
    {entries : List (EntryName × EntryID × List String)} {children result : Dict EntryName EntryID}
    (bare : ∀ entry ∈ entries, entry.2.2 = [])
    (covered : ∀ free ∈ taken, children.contains free = true)
    (returned : entries.foldlM (placeLocalChild normalize remoteDeviceName) children = .ok result) :
    ∀ entry ∈ entries, entry.1 ∈ taken →
      ∃ name, fullName normalize entry.1 ["conflicting with " ++ remoteDeviceName] = .ok name := by
  induction entries generalizing children with
  | nil => simp
  | cons entry rest ih =>
    rw [List.foldlM_cons, Except.bind_eq_ok_iff] at returned
    obtain ⟨next, head, tail⟩ := returned
    simp only [placeLocalChild, Except.bind_eq_ok_iff, Except.pure_eq_ok_iff] at head
    obtain ⟨name, allowed, rfl⟩ := head
    intro other member clash
    rcases List.mem_cons.mp member with rfl | member
    · rw [if_pos (covered _ clash), bare other (by simp)] at allowed
      exact ⟨name, allowed⟩
    · refine ih (fun other member => bare other (by simp [member])) ?_ tail other member clash
      exact fun free member => Dict.contains_insert_iff.mpr (.inr (covered free member))

end Phases

namespace ConflictingChildren

section Refusal

variable (normalize : String → String) (conflict : ConflictingChildren)

/-- The name that a local child gets if its own one is taken. -/
def conflictName (name : EntryName) : Except InvalidEntryName EntryName :=
  fullName normalize name ["conflicting with " ++ conflict.remoteDeviceName]

/-- The local children that may find their name taken, by a remote child or by a local one that was
given a suffix. -/
inductive Crowded : EntryID → Prop
  | remotely {id : EntryID} {name : EntryName} (rightful : conflict.rightfulNameOf id = .localSide name)
      (taken : name ∈ conflict.takenNames normalize) : Crowded id
  | locally {earlier id : EntryID} {before name : EntryName} (crowded : Crowded earlier)
      (stands : conflict.rightfulNameOf earlier = .localSide before)
      (suffixed : conflict.conflictName normalize before = .ok name)
      (rightful : conflict.rightfulNameOf id = .localSide name) : Crowded id

/-- No name that a merge may have to invent is refused. -/
structure NamesFit : Prop where
  remotely : ∀ id name suffixes, conflict.rightfulNameOf id = .remoteSide name suffixes →
    ∃ full, fullName normalize name suffixes = .ok full
  locally : ∀ id name, conflict.Crowded normalize id → conflict.rightfulNameOf id = .localSide name →
    ∃ full, conflict.conflictName normalize name = .ok full

/-- The children that have to come first in a walk, in their order, for one to find its name taken. -/
inductive CrowdedAfter : List EntryID → EntryID → Prop
  | remotely {id : EntryID} {name : EntryName} (rightful : conflict.rightfulNameOf id = .localSide name)
      (taken : name ∈ conflict.takenNames normalize) : CrowdedAfter [] id
  | locally {ids : List EntryID} {earlier id : EntryID} {before name : EntryName}
      (crowded : CrowdedAfter ids earlier)
      (stands : conflict.rightfulNameOf earlier = .localSide before)
      (suffixed : conflict.conflictName normalize before = .ok name)
      (rightful : conflict.rightfulNameOf id = .localSide name) (new : id ∉ ids ++ [earlier]) :
      CrowdedAfter (ids ++ [earlier]) id

variable {normalize : String → String} {conflict : ConflictingChildren}

theorem CrowdedAfter.of_mem {ids : List EntryID} {id other : EntryID}
    (crowded : conflict.CrowdedAfter normalize ids id) (member : other ∈ ids) :
    ∃ before, conflict.CrowdedAfter normalize before other := by
  induction crowded with
  | remotely => cases member
  | locally crowded _ _ _ _ ih =>
    rcases List.mem_append.mp member with earlier | last
    · exact ih earlier
    · rw [List.mem_singleton.mp last]
      exact ⟨_, crowded⟩

/-- A chain of children that crowd each other out needs no child twice. -/
theorem Crowded.after {id : EntryID} (crowded : conflict.Crowded normalize id) :
    ∃ ids, conflict.CrowdedAfter normalize ids id := by
  induction crowded with
  | remotely rightful taken => exact ⟨[], .remotely rightful taken⟩
  | @locally earlier id before name _ stands suffixed rightful ih =>
    obtain ⟨ids, after⟩ := ih
    by_cases seen : id ∈ ids ++ [earlier]
    · rcases List.mem_append.mp seen with member | last
      · exact after.of_mem member
      · rw [List.mem_singleton.mp last]
        exact ⟨ids, after⟩
    · exact ⟨_, .locally after stands suffixed rightful seen⟩

theorem localChild?_of_localSide {id : EntryID} {name : EntryName}
    (rightful : conflict.rightfulNameOf id = .localSide name) :
    conflict.localChild? id = some (name, id, []) :=
  localChild?_eq_some_iff.mpr ⟨rightful, rfl⟩

/-- Placing a local child: under its own name, or under the name with the suffix. -/
theorem placeLocalChild_eq_ok_iff {children next : Dict EntryName EntryID} {name : EntryName}
    {id : EntryID} :
    placeLocalChild normalize conflict.remoteDeviceName children (name, id, []) = .ok next ↔
      ∃ full, (if children.contains name then conflict.conflictName normalize name else .ok name) =
        .ok full ∧ next = children.insert full id := by
  simp only [placeLocalChild, conflictName, Except.bind_eq_ok_iff, Except.pure_eq_ok_iff, List.nil_append,
    eq_comm (a := next)]
  split
  · exact Iff.rfl
  · simp only [fullName, if_true]

theorem CrowdedAfter.walkable {ids : List EntryID} {id : EntryID}
    (crowded : conflict.CrowdedAfter normalize ids id) :
    (ids ++ [id]).Nodup ∧ ∀ other ∈ ids ++ [id], ∃ name, conflict.rightfulNameOf other = .localSide name := by
  induction crowded with
  | remotely rightful taken => simpa using ⟨_, rightful⟩
  | @locally ids earlier id before name _ stands _ rightful new ih =>
    refine ⟨ih.1.append (List.nodup_singleton _) (by simpa using new), ?_⟩
    intro other member
    rcases List.mem_append.mp member with member | last
    · exact ih.2 other member
    · rw [List.mem_singleton.mp last]
      exact ⟨name, rightful⟩

/-- After the children that have to come first, the name is taken. -/
theorem CrowdedAfter.contains {ids : List EntryID} {id : EntryID} {name : EntryName}
    (crowded : conflict.CrowdedAfter normalize ids id)
    (rightful : conflict.rightfulNameOf id = .localSide name) {children result : Dict EntryName EntryID}
    (covered : ∀ taken ∈ conflict.takenNames normalize, children.contains taken = true)
    (placed : (ids.filterMap conflict.localChild?).foldlM
      (placeLocalChild normalize conflict.remoteDeviceName) children = .ok result) :
    result.contains name = true := by
  induction crowded generalizing name result with
  | remotely again taken =>
    cases placed
    cases rightful.symm.trans again
    exact covered _ taken
  | @locally ids earlier id before other _ stands suffixed again _ ih =>
    cases rightful.symm.trans again
    rw [List.filterMap_append, List.foldlM_append, Except.bind_eq_ok_iff] at placed
    obtain ⟨middle, first, last⟩ := placed
    simp only [List.filterMap_cons, localChild?_of_localSide stands, List.filterMap_nil,
      List.foldlM_cons, List.foldlM_nil, bind_pure] at last
    obtain ⟨full, chosen, rfl⟩ := placeLocalChild_eq_ok_iff.mp last
    rw [if_pos (ih stands first), suffixed] at chosen
    cases chosen
    exact Dict.contains_insert_iff.mpr (.inl rfl)

/-- The remote children are laid down under the names that count as taken. -/
theorem contains_of_foldlM_placeRemote {ids : List EntryID} (walk : conflict.IsWalk ids)
    {children : Dict EntryName EntryID}
    (laid : (ids.filterMap conflict.remoteChild?).foldlM (placeRemoteChild normalize) ∅ = .ok children)
    (name : EntryName) : children.contains name = true ↔ name ∈ conflict.takenNames normalize := by
  rw [contains_foldlM_placeRemote laid, mem_takenNames_iff]
  constructor
  · rintro (⟨⟨⟩⟩ | ⟨entry, member, full⟩)
    obtain ⟨id, -, found⟩ := List.mem_filterMap.mp member
    exact ⟨id, entry.1, entry.2.2, (remoteChild?_eq_some_iff.mp found).1, full⟩
  · rintro ⟨id, original, suffixes, rightful, full⟩
    have listed : id ∈ ids := (walk.2 id).mpr
      (.inr (Dict.mem_values_iff.mpr ⟨original, get?_of_remoteSide rightful⟩))
    exact .inr ⟨(original, id, suffixes),
      List.mem_filterMap.mpr ⟨id, listed, remoteChild?_eq_some_iff.mpr ⟨rightful, rfl⟩⟩, full⟩

/-- The local children can be placed if nothing but taken names, names of children that are placed
already and suffixed names of crowded ones is there. -/
theorem foldlM_placeLocal_returns (fit : conflict.NamesFit normalize) (done : List EntryID)
    {ids : List EntryID} (nodup : (done ++ ids).Nodup) {children : Dict EntryName EntryID}
    (known : ∀ name, children.contains name = true → name ∈ conflict.takenNames normalize ∨
      ∃ id ∈ done, conflict.rightfulNameOf id = .localSide name ∨
        ∃ before, conflict.Crowded normalize id ∧ conflict.rightfulNameOf id = .localSide before ∧
          conflict.conflictName normalize before = .ok name) :
    ∃ result, (ids.filterMap conflict.localChild?).foldlM
      (placeLocalChild normalize conflict.remoteDeviceName) children = .ok result := by
  induction ids generalizing done children with
  | nil => exact ⟨children, rfl⟩
  | cons id rest ih =>
    have further : (done ++ [id] ++ rest).Nodup := by simpa using nodup
    cases child : conflict.localChild? id with
    | none =>
      rw [List.filterMap_cons_none child]
      refine ih _ further fun name present => ?_
      rcases known name present with taken | ⟨other, member, reason⟩
      · exact .inl taken
      · exact .inr ⟨other, by simp [member], reason⟩
    | some entry =>
      obtain ⟨rightful, same⟩ := localChild?_eq_some_iff.mp child
      obtain ⟨name, _, _⟩ := entry
      cases same
      rw [List.filterMap_cons_some child, List.foldlM_cons]
      have crowded (present : children.contains name = true) : conflict.Crowded normalize id := by
        rcases known name present with taken | ⟨other, member, stands | ⟨before, crowded, stands, suffixed⟩⟩
        · exact .remotely rightful taken
        · have twice := (get?_of_localSide stands).symm.trans (get?_of_localSide rightful)
          cases twice
          exact absurd rfl ((List.nodup_append.mp nodup).2.2 id member id (by simp))
        · exact .locally crowded stands suffixed rightful
      obtain ⟨full, chosen, reason⟩ : ∃ full,
          (if children.contains name then conflict.conflictName normalize name else .ok name) = .ok full ∧
            (full = name ∨
              conflict.Crowded normalize id ∧ conflict.conflictName normalize name = .ok full) := by
        by_cases present : children.contains name = true
        · obtain ⟨full, suffixed⟩ := fit.locally id name (crowded present) rightful
          exact ⟨full, by rw [if_pos present, suffixed], .inr ⟨crowded present, suffixed⟩⟩
        · exact ⟨name, if_neg present, .inl rfl⟩
      rw [placeLocalChild_eq_ok_iff.mpr ⟨full, chosen, rfl⟩]
      refine ih _ further fun other present => ?_
      rcases Dict.contains_insert_iff.mp present with rfl | old
      · refine .inr ⟨id, by simp, ?_⟩
        rcases reason with rfl | ⟨crowded, suffixed⟩
        · exact .inl rightful
        · exact .inr ⟨name, crowded, rightful, suffixed⟩
      · rcases known other old with taken | ⟨earlier, member, reason⟩
        · exact .inl taken
        · exact .inr ⟨earlier, by simp [member], reason⟩

/-- A walk that meets some local children first. -/
theorem exists_walk_from (conflict : ConflictingChildren) (ids : List EntryID) (nodup : ids.Nodup)
    (locals : ∀ id ∈ ids, ∃ name, conflict.rightfulNameOf id = .localSide name) :
    ∃ rest, conflict.IsWalk (ids ++ rest) := by
  refine ⟨((conflict.localChildren.values ++ conflict.remoteChildren.values).dedup.filter
    (· ∉ ids)), ?_, ?_⟩
  · refine nodup.append ((List.nodup_dedup _).filter _) ?_
    intro id member later
    simp [member] at later
  · intro id
    by_cases member : id ∈ ids
    · obtain ⟨name, rightful⟩ := locals id member
      simp only [List.mem_append, member, true_or, true_iff]
      exact .inl (Dict.mem_values_iff.mpr ⟨name, get?_of_localSide rightful⟩)
    · simp [member]

/-- A merge returns in whatever order it walks exactly if no name is refused that it may have to
invent. -/
theorem mergeFolderChildren_returns_iff :
    (∀ ids, conflict.IsWalk ids → ∃ children, mergeFolderChildren normalize conflict ids = .ok children) ↔
      conflict.NamesFit normalize := by
  constructor
  · intro returns
    constructor
    · intro id name suffixes rightful
      obtain ⟨ids, walk⟩ := exists_walk_from conflict [] List.nodup_nil (by simp)
      obtain ⟨children, merged⟩ := returns _ walk
      rw [mergeFolderChildren_eq walk.1, Except.bind_eq_ok_iff] at merged
      obtain ⟨laid, remotes, -⟩ := merged
      have listed := (walk.2 id).mpr
        (.inr (Dict.mem_values_iff.mpr ⟨name, get?_of_remoteSide rightful⟩))
      exact allowed_of_foldlM_placeRemote remotes (name, id, suffixes)
        (List.mem_filterMap.mpr ⟨id, listed, remoteChild?_eq_some_iff.mpr ⟨rightful, rfl⟩⟩)
    · intro id name crowded rightful
      obtain ⟨before, after⟩ := crowded.after
      obtain ⟨nodup, locals⟩ := after.walkable
      obtain ⟨rest, walk⟩ := exists_walk_from conflict _ nodup locals
      obtain ⟨children, merged⟩ := returns _ walk
      rw [mergeFolderChildren_eq walk.1, Except.bind_eq_ok_iff] at merged
      obtain ⟨laid, remotes, placed⟩ := merged
      rw [List.filterMap_append, List.filterMap_append, List.foldlM_append, Except.bind_eq_ok_iff] at placed
      obtain ⟨middle, placed, -⟩ := placed
      rw [List.foldlM_append, Except.bind_eq_ok_iff] at placed
      obtain ⟨crowd, first, last⟩ := placed
      simp only [List.filterMap_cons, localChild?_of_localSide rightful, List.filterMap_nil,
        List.foldlM_cons, List.foldlM_nil, bind_pure] at last
      obtain ⟨full, chosen, -⟩ := placeLocalChild_eq_ok_iff.mp last
      rw [if_pos (after.contains rightful
        (fun taken member => (contains_of_foldlM_placeRemote walk remotes taken).mpr member) first)] at chosen
      exact ⟨full, chosen⟩
  · intro fit ids walk
    rw [mergeFolderChildren_eq walk.1]
    have allowed : ∀ entry ∈ ids.filterMap conflict.remoteChild?,
        ∃ name, fullName normalize entry.1 entry.2.2 = .ok name := by
      intro entry member
      obtain ⟨id, -, found⟩ := List.mem_filterMap.mp member
      exact fit.remotely id _ _ (remoteChild?_eq_some_iff.mp found).1
    obtain ⟨laid, remotes⟩ := foldlM_placeRemote_returns allowed ∅
    rw [remotes, Except.ok_bind]
    exact foldlM_placeLocal_returns fit [] walk.1 fun name present =>
      .inl ((contains_of_foldlM_placeRemote walk remotes name).mp present)

end Refusal

end ConflictingChildren

end Guardata

import Mathlib.Data.List.Dedup
import Guardata.Proofs.FolderMerge

/-! # When a folder merge loses nothing

The suffixes that a merge invents are not checked against the names that other entries hold. The
merge keeps every entry it should keep, whatever the order of its walk, exactly when the names it
intends are pairwise distinct. Otherwise some order drops an entry without a trace.
-/

namespace Guardata.ConflictingChildren

/-- No id stands under two names, and exactly the ids that neither side removed are there. -/
def LosesNothing (conflict : ConflictingChildren) (result : Dict EntryName EntryID) : Prop :=
  (∀ id name name', result.get? name = some id → result.get? name' = some id → name = name') ∧
  (∀ id, id ∉ conflict.baseChildren.values →
    id ∈ conflict.localChildren.values ∨ id ∈ conflict.remoteChildren.values → id ∈ result.values) ∧
  (∀ id, id ∈ conflict.baseChildren.values → id ∈ conflict.localChildren.values →
    id ∈ conflict.remoteChildren.values → id ∈ result.values) ∧
  (∀ id, id ∈ conflict.baseChildren.values →
    id ∉ conflict.localChildren.values ∨ id ∉ conflict.remoteChildren.values → id ∉ result.values)

section Condition

variable (normalize : String → String) (conflict : ConflictingChildren)

/-- No intended name is refused. -/
def NamesAllowed : Prop :=
  ∀ id outcome,
    conflict.intendedName normalize id = some outcome →
    ∃ name, outcome = .ok name

/-- No two ids are intended to get one name. -/
def NamesDistinct : Prop :=
  ∀ first second name,
    conflict.intendedName normalize first =
      some (.ok name) →
    conflict.intendedName normalize second =
      some (.ok name) → first = second

/-- The intended name, once it is known to be allowed. -/
private def nameOf (id : EntryID) : EntryName :=
  match conflict.intendedName normalize id with
  | some (.ok name) => name
  | _ => ""

end Condition

variable {normalize : String → String} {conflict : ConflictingChildren}

private theorem intended_nameOf
    (allowed : conflict.NamesAllowed normalize)
    {id : EntryID} {outcome : Except InvalidEntryName EntryName}
    (intended : conflict.intendedName normalize id =
      some outcome) :
    outcome = .ok (conflict.nameOf normalize id) := by
  obtain ⟨name, rfl⟩ := allowed id outcome intended
  rw [nameOf, intended]

/-- The children that a walk places, the remote ones first. -/
private def walked (conflict : ConflictingChildren) (ids : List EntryID) : List
    (EntryName × EntryID × List String) :=
  ids.filterMap conflict.remoteChild? ++
    ids.filterMap conflict.localChild?

private theorem mem_placed_iff {name : EntryID → EntryName} {ids : List EntryID}
    {entry : EntryName × EntryID} :
    entry ∈ placed name (conflict.walked ids) ↔
      entry.2 ∈ ids ∧ entry.1 = name entry.2 ∧
      conflict.rightfulNameOf entry.2 ≠ .removed := by
  simp only [placed, walked, List.mem_map, List.mem_append, List.mem_filterMap, localChild?_eq_some_iff,
    remoteChild?_eq_some_iff]
  constructor
  · rintro ⟨child, ⟨id, member, rightful, same⟩ | ⟨id, member, rightful, same⟩, rfl⟩
    · subst same
      exact ⟨member, rfl, by simp [rightful]⟩
    · rw [same]
      exact ⟨member, rfl, by simp [rightful]⟩
  · rintro ⟨member, named, survives⟩
    cases rightful : conflict.rightfulNameOf entry.2 with
    | removed => exact absurd rightful survives
    | remoteSide original suffixes =>
      exact ⟨(original, entry.2, suffixes), .inl ⟨entry.2, member, rightful, rfl⟩, by simp [← named]⟩
    | localSide original =>
      exact ⟨(original, entry.2, []), .inr ⟨entry.2, member, rightful, rfl⟩, by simp [← named]⟩

section Walk

variable {ids : List EntryID}

/-- A remote child whose full name is allowed is intended to get it. -/
private theorem remote_named
    (allowed : ∀ entry ∈ ids.filterMap conflict.remoteChild?, ∃ name,
      fullName normalize entry.1 entry.2.2 = .ok name) :
    ∀ entry ∈ ids.filterMap conflict.remoteChild?,
      fullName normalize entry.1 entry.2.2 = .ok (conflict.nameOf normalize entry.2.1) := by
  intro entry member
  obtain ⟨id, -, found⟩ := List.mem_filterMap.mp member
  obtain ⟨rightful, same⟩ := remoteChild?_eq_some_iff.mp found
  obtain ⟨name, full⟩ := allowed entry member
  subst same
  simp [nameOf, intendedName, rightful, full]

private theorem local_named (allowed : conflict.NamesAllowed normalize) :
    ∀ entry ∈ ids.filterMap conflict.localChild?, entry.2.2 = [] ∧
      (if entry.1 ∈ conflict.takenNames normalize then
        fullName normalize entry.1 ["conflicting with " ++ conflict.remoteDeviceName]
      else .ok entry.1) = .ok (conflict.nameOf normalize entry.2.1) := by
  intro entry member
  obtain ⟨id, -, found⟩ := List.mem_filterMap.mp member
  obtain ⟨rightful, same⟩ := localChild?_eq_some_iff.mp found
  rw [same]
  exact ⟨rfl, intended_nameOf allowed (by rw [intendedName, rightful])⟩

/-- The remote phase leaves exactly the taken names behind. -/
private theorem contains_remotePhase (walk : conflict.IsWalk ids)
    (named : ∀ entry ∈ ids.filterMap conflict.remoteChild?,
      fullName normalize entry.1 entry.2.2 = .ok (conflict.nameOf normalize entry.2.1))
    (name : EntryName) :
    ((∅ : Dict EntryName EntryID).insertMany
      (placed (conflict.nameOf normalize) (ids.filterMap conflict.remoteChild?))).contains name = true ↔
      name ∈ conflict.takenNames normalize :=
  contains_of_foldlM_placeRemote walk (foldlM_placeRemote named ∅) name

/-- A merge that returns was refused no intended name. -/
private theorem allowed_of_merge (walk : conflict.IsWalk ids)
    {result : Dict EntryName EntryID}
    (returned : mergeFolderChildren normalize conflict ids = .ok result) :
    conflict.NamesAllowed normalize := by
  rw [mergeFolderChildren_eq walk.1, Except.bind_eq_ok_iff] at returned
  obtain ⟨children, remotePhase, localPhase⟩ := returned
  have remotes := allowed_of_foldlM_placeRemote remotePhase
  rw [foldlM_placeRemote (remote_named remotes)] at remotePhase
  cases remotePhase
  have locals := allowed_of_foldlM_placeLocal
    (fun entry member => by
      obtain ⟨id, -, found⟩ := List.mem_filterMap.mp member
      rw [(localChild?_eq_some_iff.mp found).2])
    (fun free taken => (contains_remotePhase walk (remote_named remotes) free).mpr taken) localPhase
  intro id outcome intended
  unfold intendedName at intended
  split at intended
  · cases intended
  · next original suffixes rightful =>
    cases intended
    have listed := (walk.2 id).mpr
      (.inr (Dict.mem_values_iff.mpr ⟨original, get?_of_remoteSide rightful⟩))
    exact remotes (original, id, suffixes)
      (List.mem_filterMap.mpr ⟨id, listed, remoteChild?_eq_some_iff.mpr ⟨rightful, rfl⟩⟩)
  · next original rightful =>
    cases intended
    split
    · next taken =>
      have listed := (walk.2 id).mpr
        (.inl (Dict.mem_values_iff.mpr ⟨original, get?_of_localSide rightful⟩))
      exact locals (original, id, [])
        (List.mem_filterMap.mpr ⟨id, listed, localChild?_eq_some_iff.mpr ⟨rightful, rfl⟩⟩) taken
    · exact ⟨original, rfl⟩

/-- A walk puts every surviving id under its intended name, if no local child comes before another
one whose free name it takes. -/
private theorem merge_places (allowed : conflict.NamesAllowed normalize)
    (walk : conflict.IsWalk ids)
    (apart : (ids.filterMap conflict.localChild?).Pairwise fun earlier later =>
      later.1 ∉ conflict.takenNames normalize → conflict.nameOf normalize earlier.2.1 ≠ later.1) :
    mergeFolderChildren normalize conflict ids = .ok ((∅ : Dict EntryName EntryID).insertMany
      (placed (conflict.nameOf normalize) (conflict.walked ids))) := by
  have remotes : ∀ entry ∈ ids.filterMap conflict.remoteChild?, ∃ name,
      fullName normalize entry.1 entry.2.2 = .ok name := by
    intro entry member
    obtain ⟨id, -, found⟩ := List.mem_filterMap.mp member
    obtain ⟨rightful, -⟩ := remoteChild?_eq_some_iff.mp found
    exact allowed id _ (by rw [intendedName, rightful])
  have keys := contains_remotePhase walk (remote_named remotes)
  rw [mergeFolderChildren_eq walk.1, foldlM_placeRemote (remote_named remotes)]
  change List.foldlM _ _ _ = _
  rw [foldlM_placeLocal (local_named allowed) apart (fun free taken => (keys free).mpr taken)
    (fun entry _ present => (keys entry.1).mp present)]
  simp [walked, placed, Dict.insertMany]

end Walk

private theorem nameOf_of_free {id : EntryID} {name : EntryName}
    (rightful : conflict.rightfulNameOf id = .localSide name)
    (free : name ∉ conflict.takenNames normalize) : conflict.nameOf normalize id = name := by
  simp [nameOf, intendedName, rightful, free]

private theorem intendedName_of_survives (allowed : conflict.NamesAllowed normalize) {id : EntryID}
    (survives : conflict.rightfulNameOf id ≠ .removed) :
    conflict.intendedName normalize id = some (.ok (conflict.nameOf normalize id)) := by
  cases intended : conflict.intendedName normalize id with
  | some outcome => rw [intended_nameOf allowed intended]
  | none =>
    unfold intendedName at intended
    split at intended
    · next removed => exact absurd removed survives
    · cases intended
    · cases intended

/-- The local children of a walk have different names. -/
private theorem local_names_differ (conflict : ConflictingChildren) {ids : List EntryID}
    (nodup : ids.Nodup) :
    (ids.filterMap conflict.localChild?).Pairwise fun earlier later => earlier.1 ≠ later.1 :=
  List.pairwise_map.mp <| nodup_names nodup conflict.localChild? fun _ _ found =>
    get?_of_localSide (localChild?_eq_some_iff.mp found).1

private theorem localSide_of_mem {ids : List EntryID} {entry : EntryName × EntryID × List String}
    (member : entry ∈ ids.filterMap conflict.localChild?) :
    conflict.rightfulNameOf entry.2.1 = .localSide entry.1 := by
  obtain ⟨id, -, found⟩ := List.mem_filterMap.mp member
  obtain ⟨rightful, same⟩ := localChild?_eq_some_iff.mp found
  rw [same]
  exact rightful

/-- What stands in the result of a walk stands there under its intended name. -/
private theorem of_get?_placed {ids : List EntryID} {name : EntryName} {id : EntryID}
    (present : ((∅ : Dict EntryName EntryID).insertMany
      (placed (conflict.nameOf normalize) (conflict.walked ids))).get? name = some id) :
    id ∈ ids ∧ name = conflict.nameOf normalize id ∧ conflict.rightfulNameOf id ≠ .removed := by
  rcases Dict.mem_of_get?_insertMany present with member | absent
  · exact mem_placed_iff.mp member
  · cases absent

theorem mem_walk_of_survives (unique : conflict.Unique) {ids : List EntryID}
    (walk : conflict.IsWalk ids) {id : EntryID} (survives : conflict.rightfulNameOf id ≠ .removed) :
    id ∈ ids := by
  rcases (rightfulNameOf_ne_removed_iff unique).mp survives with ⟨-, added⟩ | ⟨-, kept, -⟩
  · exact (walk.2 id).mpr added
  · exact (walk.2 id).mpr (.inl kept)

/-- Losing nothing is keeping every id that has a rightful name. -/
theorem losesNothing_iff (unique : conflict.Unique) {result : Dict EntryName EntryID}
    (once : ∀ id name name', result.get? name = some id → result.get? name' = some id → name = name')
    (rightful : ∀ id ∈ result.values, conflict.rightfulNameOf id ≠ .removed) :
    conflict.LosesNothing result ↔ ∀ id, conflict.rightfulNameOf id ≠ .removed → id ∈ result.values := by
  constructor
  · rintro ⟨-, added, kept, -⟩ id survives
    rcases (rightfulNameOf_ne_removed_iff unique).mp survives with ⟨new, side⟩ | ⟨old, both⟩
    · exact added id new side
    · exact kept id old both.1 both.2
  · intro present
    refine ⟨once, ?_, ?_, ?_⟩
    · exact fun id new side => present id ((rightfulNameOf_ne_removed_iff unique).mpr (.inl ⟨new, side⟩))
    · exact fun id old left right =>
        present id ((rightfulNameOf_ne_removed_iff unique).mpr (.inr ⟨old, left, right⟩))
    · intro id old removed member
      rcases (rightfulNameOf_ne_removed_iff unique).mp (rightful id member) with ⟨new, -⟩ | ⟨-, left, right⟩
      · exact new old
      · exact removed.elim (fun absent => absent left) fun absent => absent right

/-- The result of a walk that places every child loses nothing exactly if it keeps every survivor. -/
private theorem losesNothing_placed_iff (unique : conflict.Unique) {ids : List EntryID} :
    conflict.LosesNothing ((∅ : Dict EntryName EntryID).insertMany
        (placed (conflict.nameOf normalize) (conflict.walked ids))) ↔
      ∀ id, conflict.rightfulNameOf id ≠ .removed → ((∅ : Dict EntryName EntryID).insertMany
        (placed (conflict.nameOf normalize) (conflict.walked ids))).get? (conflict.nameOf normalize id) =
          some id := by
  rw [losesNothing_iff unique]
  · refine forall_congr' fun id => imp_congr_right fun _ => ?_
    rw [Dict.mem_values_iff]
    constructor
    · rintro ⟨name, present⟩
      rw [← (of_get?_placed present).2.1]
      exact present
    · exact fun present => ⟨_, present⟩
  · intro id name name' present present'
    rw [(of_get?_placed present).2.1, (of_get?_placed present').2.1]
  · intro id member
    obtain ⟨name, present⟩ := Dict.mem_values_iff.mp member
    exact (of_get?_placed present).2.2

/-- With distinct intended names every walk leads to a result that loses nothing. -/
private theorem losesNothing_of_distinct (unique : conflict.Unique)
    (allowed : conflict.NamesAllowed normalize) (distinct : conflict.NamesDistinct normalize)
    {ids : List EntryID} (walk : conflict.IsWalk ids) {result : Dict EntryName EntryID}
    (returned : mergeFolderChildren normalize conflict ids = .ok result) :
    conflict.LosesNothing result := by
  have injective {first second : EntryID} (left : conflict.rightfulNameOf first ≠ .removed)
      (right : conflict.rightfulNameOf second ≠ .removed)
      (same : conflict.nameOf normalize first = conflict.nameOf normalize second) : first = second := by
    refine distinct first second _ (intendedName_of_survives allowed left) ?_
    rw [intendedName_of_survives allowed right, same]
  have apart : (ids.filterMap conflict.localChild?).Pairwise fun earlier later =>
      later.1 ∉ conflict.takenNames normalize → conflict.nameOf normalize earlier.2.1 ≠ later.1 := by
    refine (local_names_differ conflict walk.1).imp_of_mem ?_
    intro earlier later before after different free same
    have left := localSide_of_mem before
    have right := localSide_of_mem after
    rw [← nameOf_of_free right free] at same
    rw [injective (by simp [left]) (by simp [right]) same, right] at left
    exact different (RightfulName.localSide.inj left).symm
  rw [merge_places allowed walk apart] at returned
  cases returned
  rw [losesNothing_placed_iff unique]
  intro id survives
  have member : (conflict.nameOf normalize id, id) ∈
      placed (conflict.nameOf normalize) (conflict.walked ids) :=
    mem_placed_iff.mpr ⟨mem_walk_of_survives unique walk survives, rfl, survives⟩
  obtain ⟨other, present⟩ := Dict.contains_eq_true_iff.mp
    (Dict.contains_insertMany_iff.mpr (.inl (List.mem_map_of_mem (f := Prod.fst) member)))
  obtain ⟨-, same, otherSurvives⟩ := of_get?_placed present
  rw [present, injective survives otherSurvives same]

/-- Whether an id goes under its own local name, which the remote side leaves free. -/
private def isFree (normalize : String → String) (conflict : ConflictingChildren) (id : EntryID) : Bool :=
  match conflict.rightfulNameOf id with
  | .localSide name => decide (name ∉ conflict.takenNames normalize)
  | _ => false

private theorem isFree_iff {entry : EntryName × EntryID × List String}
    (rightful : conflict.rightfulNameOf entry.2.1 = .localSide entry.1) :
    conflict.isFree normalize entry.2.1 = true ↔ entry.1 ∉ conflict.takenNames normalize := by
  simp [isFree, rightful]

/-- A walk in which the local children with free names come first. -/
private def freeFirst (normalize : String → String) (conflict : ConflictingChildren) : List EntryID :=
  let ids := (conflict.localChildren.values ++ conflict.remoteChildren.values).dedup
  ids.filter (conflict.isFree normalize) ++ ids.filter fun id => !conflict.isFree normalize id

private theorem isWalk_freeFirst (normalize : String → String) (conflict : ConflictingChildren) :
    conflict.IsWalk (conflict.freeFirst normalize) := by
  have split := List.filter_append_perm (conflict.isFree normalize)
    (conflict.localChildren.values ++ conflict.remoteChildren.values).dedup
  refine ⟨split.nodup_iff.mpr (List.nodup_dedup _), fun id => ?_⟩
  rw [freeFirst, split.mem_iff, List.mem_dedup, List.mem_append]

/-- In that order no local child is in another one's way, so the merge returns. -/
private theorem apart_freeFirst :
    ((conflict.freeFirst normalize).filterMap conflict.localChild?).Pairwise fun earlier later =>
      later.1 ∉ conflict.takenNames normalize → conflict.nameOf normalize earlier.2.1 ≠ later.1 := by
  have differ := local_names_differ conflict (isWalk_freeFirst normalize conflict).1
  have free {ids : List EntryID} {entry : EntryName × EntryID × List String}
      (member : entry ∈ ids.filterMap conflict.localChild?) : entry.2.1 ∈ ids := by
    obtain ⟨id, listed, found⟩ := List.mem_filterMap.mp member
    rw [(localChild?_eq_some_iff.mp found).2]
    exact listed
  rw [freeFirst, List.filterMap_append, List.pairwise_append] at differ ⊢
  have clashing {ids : List EntryID} {entry : EntryName × EntryID × List String}
      (member : entry ∈ (ids.filter fun id => !conflict.isFree normalize id).filterMap
        conflict.localChild?) : ¬ entry.1 ∉ conflict.takenNames normalize := by
    rw [← isFree_iff (localSide_of_mem member)]
    simpa using (List.mem_filter.mp (free member)).2
  refine ⟨differ.1.imp_of_mem ?_, differ.2.1.imp_of_mem ?_, ?_⟩
  · intro earlier later before after different _
    have rightful := localSide_of_mem before
    rw [nameOf_of_free rightful ((isFree_iff rightful).mp (List.mem_filter.mp (free before)).2)]
    exact different
  · intro earlier later before after different later_free
    exact absurd later_free (clashing after)
  · intro earlier before later after later_free
    exact absurd later_free (clashing after)

/-- A merge loses nothing in any order of its walk exactly if the intended names are pairwise
distinct, or one of them is refused and the merge never returns. -/
theorem merge_loses_nothing_iff (normalize : String → String) (conflict : ConflictingChildren)
    (unique : conflict.Unique) :
    (∀ ids, conflict.IsWalk ids → ∀ result, mergeFolderChildren normalize conflict ids = .ok result →
      conflict.LosesNothing result) ↔
    (conflict.NamesAllowed normalize → conflict.NamesDistinct normalize) := by
  constructor
  · intro lossless allowed first second name intendedFirst intendedSecond
    have kept := (losesNothing_placed_iff unique).mp (lossless _ (isWalk_freeFirst normalize conflict) _
      (merge_places allowed (isWalk_freeFirst normalize conflict) apart_freeFirst))
    have survives {id : EntryID} (intended : conflict.intendedName normalize id = some (.ok name)) :
        conflict.rightfulNameOf id ≠ .removed := by
      intro removed
      simp [intendedName, removed] at intended
    have named {id : EntryID} (intended : conflict.intendedName normalize id = some (.ok name)) :
        conflict.nameOf normalize id = name := by
      rw [nameOf, intended]
    have atFirst := kept first (survives intendedFirst)
    rw [named intendedFirst, ← named intendedSecond, kept second (survives intendedSecond)] at atFirst
    exact (Option.some.inj atFirst).symm
  · intro distinct ids walk result returned
    have allowed := allowed_of_merge walk returned
    exact losesNothing_of_distinct unique allowed (distinct allowed) walk returned

section Example

private def childrenOf (entries : List (EntryName × EntryID)) : Dict EntryName EntryID := Dict.ofList entries

/-- Both sides added an `a`; the local side has a child that already bears the suffix. -/
private def suffixTaken : ConflictingChildren :=
  ⟨∅, childrenOf [("a (conflicting with bob@dev)", 3), ("a", 1)], childrenOf [("a", 2)], "bob@dev"⟩

/-- Both sides added an `a`, and nothing else is there. -/
private def suffixFree : ConflictingChildren :=
  ⟨∅, childrenOf [("a", 1)], childrenOf [("a", 2)], "bob@dev"⟩

theorem merge_loses_nothing_iff_suffixFree :
    suffixFree.Unique ∧ ∀ ids, suffixFree.IsWalk ids → ∀ result,
      mergeFolderChildren id suffixFree ids = .ok result → suffixFree.LosesNothing result := by
  have unique : suffixFree.Unique := ⟨by decide, by decide, by decide⟩
  refine ⟨unique, (merge_loses_nothing_iff id suffixFree unique).mpr fun _ => ?_⟩
  have walk : suffixFree.IsWalk [1, 2] := by
    refine ⟨by decide, fun entry => ?_⟩
    have values : suffixFree.localChildren.values = [1] ∧ suffixFree.remoteChildren.values = [2] := by
      decide
    simp [values]
  have listed {entry : EntryID} {name : EntryName}
      (intended : suffixFree.intendedName id entry = some (.ok name)) : entry ∈ [1, 2] := by
    refine mem_walk_of_survives unique walk fun removed => ?_
    simp [intendedName, removed] at intended
  have atOne : suffixFree.intendedName id 1 = some (.ok "a (conflicting with bob@dev)") := by decide
  have atTwo : suffixFree.intendedName id 2 = some (.ok "a") := by decide
  intro first second name intendedFirst intendedSecond
  have firstListed := listed intendedFirst
  have secondListed := listed intendedSecond
  simp only [List.mem_cons, List.not_mem_nil, or_false] at firstListed secondListed
  rcases firstListed with rfl | rfl <;> rcases secondListed with rfl | rfl <;> simp_all

/-- The local `a` is renamed onto the child that bears the suffix, and that child is gone. -/
theorem merge_drops_suffixed_child :
    suffixTaken.Unique ∧ suffixTaken.IsWalk [3, 1, 2] ∧
    ∃ result, mergeFolderChildren id suffixTaken [3, 1, 2] = .ok result ∧
      3 ∉ suffixTaken.baseChildren.values ∧ 3 ∈ suffixTaken.localChildren.values ∧
      3 ∉ result.values ∧ ¬ suffixTaken.LosesNothing result := by
  refine ⟨⟨by decide, by decide, by decide⟩, ?_, _, rfl, by decide, by decide, by decide, ?_⟩
  · refine ⟨by decide, fun id => ?_⟩
    have values : suffixTaken.localChildren.values = [3, 1] ∧ suffixTaken.remoteChildren.values = [2] := by
      decide
    simp [values, or_assoc]
  · intro lossless
    exact absurd (lossless.2.1 3 (by decide) (by decide)) (by decide)

end Example

end Guardata.ConflictingChildren

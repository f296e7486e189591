import Guardata.Model.Packing

/-! # What ends unpacking

Unpacking meets extensions and the keys of maps, one after the other. The first of them that cannot be read
decides how it ends. The entries of a map are stored one after the other: what is found under a text is
what was stored last, and every text in the result was stored.
-/

namespace Guardata

/-- What the unpacker can stumble over. -/
inductive UnpackEvent where
  | ext (code : ℤ) (data : Bytes)
  /-- A key is hashed once the value behind it has been read. -/
  | key (packed : Packed)

mutual

/-- The events in the order in which they are met. -/
def Packed.events : Packed → List UnpackEvent
  | .array items => itemEvents items
  | .map entries => entryEvents entries
  | .ext code data => [.ext code data]
  | _ => []

def itemEvents : List Packed → List UnpackEvent
  | [] => []
  | item :: rest => item.events ++ itemEvents rest

def entryEvents : List (Packed × Packed) → List UnpackEvent
  | [] => []
  | (key, value) :: rest => key.events ++ (value.events ++ (.key key :: entryEvents rest))

end

/-- Lists and maps are no keys. -/
def Packed.isContainer : Packed → Bool
  | .array _ | .map _ => true
  | _ => false

/-- The exception that ends unpacking at an event. -/
def UnpackEvent.raises (fromTimestamp : Bytes → Except PyException DateTime) : UnpackEvent → Option PyException
  | .ext code data => (unpackbExtHook fromTimestamp code data).raised?
  | .key packed => if packed.isContainer then some .typeError else none

variable {fromTimestamp : Bytes → Except PyException DateTime}

/-- A key that was read is hashable unless it was packed as a container. -/
theorem hashable_of_unpack {packed : Packed} {value : Value}
    (unpacked : packed.unpack fromTimestamp = .ok value) : value.hashable = !packed.isContainer := by
  cases packed with
  | array items =>
    obtain ⟨values, -, rfl⟩ := Except.map_eq_ok_iff.mp unpacked
    rfl
  | map entries =>
    obtain ⟨values, -, rfl⟩ := Except.map_eq_ok_iff.mp unpacked
    rfl
  | ext code data =>
    rw [Packed.unpack, unpackbExtHook] at unpacked
    split at unpacked
    · split at unpacked
      · obtain ⟨date, -, rfl⟩ := Except.map_eq_ok_iff.mp unpacked
        rfl
      · cases unpacked
    · split at unpacked
      · split at unpacked <;> cases unpacked
        rfl
      · split at unpacked <;> cases unpacked
        rfl
  | nil => cases unpacked; rfl
  | bool flag => cases unpacked; rfl
  | int number => cases unpacked; rfl
  | float bits => cases unpacked; rfl
  | str text => cases unpacked; rfl
  | bin data => cases unpacked; rfl

mutual

/-- Unpacking ends with what its first event raises that raises anything. -/
theorem raised?_unpack (packed : Packed) : (packed.unpack fromTimestamp).raised? =
    packed.events.findSome? (UnpackEvent.raises fromTimestamp) := by
  cases packed with
  | array items =>
    rw [Packed.unpack, Except.raised?_map, raised?_unpackItems, Packed.events]
  | map entries =>
    rw [Packed.unpack, Except.raised?_map, raised?_unpackEntries, Packed.events]
  | ext code data =>
    rw [Packed.unpack, Packed.events, List.findSome?_singleton]
    rfl
  | nil => rfl
  | bool flag => rfl
  | int number => rfl
  | float bits => rfl
  | str text => rfl
  | bin data => rfl

theorem raised?_unpackItems (items : List Packed) : (unpackItems fromTimestamp items).raised? =
    (itemEvents items).findSome? (UnpackEvent.raises fromTimestamp) := by
  cases items with
  | nil => rfl
  | cons item rest =>
    rw [unpackItems, itemEvents, List.findSome?_append, ← raised?_unpack, ← raised?_unpackItems rest]
    exact Except.raised?_bind fun value _ => Except.raised?_bind_pure _ _

theorem raised?_unpackEntries (entries : List (Packed × Packed)) (stored : List (Value × Value)) :
    (unpackEntries fromTimestamp stored entries).raised? =
      (entryEvents entries).findSome? (UnpackEvent.raises fromTimestamp) := by
  cases entries with
  | nil => rfl
  | cons entry rest =>
    obtain ⟨packedKey, packedValue⟩ := entry
    rw [unpackEntries, entryEvents, List.findSome?_append, List.findSome?_append, ← raised?_unpack,
      ← raised?_unpack]
    refine Except.raised?_bind fun key read => ?_
    refine Except.raised?_bind fun value _ => ?_
    rw [List.findSome?_cons, UnpackEvent.raises, hashable_of_unpack read]
    cases packedKey.isContainer with
    | true => rfl
    | false => exact raised?_unpackEntries rest (Value.setItem stored key value)

end

section Store

variable {name : String} {entries stored : List (Value × Value)} {key value : Value}

theorem mem_of_lookup (found : Value.lookup name entries = some value) : (.str name, value) ∈ entries := by
  induction entries with
  | nil => cases found
  | cons entry rest ih =>
    obtain ⟨key, old⟩ := entry
    cases key with
    | str text =>
      rw [Value.lookup] at found
      split at found
      · next same =>
        subst same
        cases found
        exact List.mem_cons_self
      · exact List.mem_cons_of_mem _ (ih found)
    | _ => exact List.mem_cons_of_mem _ (ih found)

theorem lookup_store_self (entries : List (Value × Value)) :
    Value.lookup name (Value.store name value entries) = some value := by
  induction entries with
  | nil => simp [Value.store, Value.lookup]
  | cons entry rest ih =>
    obtain ⟨key, old⟩ := entry
    cases key with
    | str text => by_cases same : text = name <;> simp [Value.store, Value.lookup, same, ih]
    | _ => simpa only [Value.store, Value.lookup] using ih

theorem mem_store {text : String} {other : Value}
    (member : (.str text, other) ∈ Value.store name value entries) :
    (.str text, other) ∈ entries ∨ (text = name ∧ other = value) := by
  induction entries with
  | nil =>
    cases List.mem_singleton.mp member
    exact .inr ⟨rfl, rfl⟩
  | cons entry rest ih =>
    obtain ⟨key, old⟩ := entry
    cases key with
    | str stored =>
      rw [Value.store] at member
      split at member
      · rcases List.mem_cons.mp member with same | member
        · cases same
          exact .inr ⟨rfl, rfl⟩
        · exact .inl (List.mem_cons_of_mem _ member)
      · rcases List.mem_cons.mp member with same | member
        · exact .inl (same ▸ List.mem_cons_self)
        · exact (ih member).imp_left (List.mem_cons_of_mem _)
    | _ =>
      simp only [Value.store] at member
      rcases List.mem_cons.mp member with same | member
      · cases same
      · exact (ih member).imp_left (List.mem_cons_of_mem _)

theorem lookup_store_of_ne {stored : String} {value : Value} (other : stored ≠ name)
    (entries : List (Value × Value)) :
    Value.lookup name (Value.store stored value entries) = Value.lookup name entries := by
  induction entries with
  | nil => simp [Value.store, Value.lookup, other]
  | cons entry rest ih =>
    obtain ⟨key, old⟩ := entry
    cases key with
    | str text =>
      by_cases same : text = stored
      · simp [Value.store, Value.lookup, same, other]
      · simp [Value.store, Value.lookup, same, ih]
    | _ => simpa only [Value.store, Value.lookup] using ih

theorem lookup_append_of_not_text (other : ∀ text, key ≠ .str text) :
    Value.lookup name (stored ++ [(key, value)]) = Value.lookup name stored := by
  induction stored with
  | nil => cases key <;> first | rfl | exact absurd rfl (other _)
  | cons entry rest ih =>
    obtain ⟨text, old⟩ := entry
    cases text with
    | str text => by_cases same : text = name <;> simp [Value.lookup, same, ih]
    | _ => simpa only [List.cons_append, Value.lookup] using ih

/-- What is stored under a text is found there, and nothing else changes. -/
theorem lookup_setItem_of_ne (other : key ≠ .str name) :
    Value.lookup name (Value.setItem stored key value) = Value.lookup name stored := by
  cases key with
  | str text => exact lookup_store_of_ne (fun same => other (congrArg Value.str same)) stored
  | _ => exact lookup_append_of_not_text nofun

theorem mem_setItem {text : String} {other : Value}
    (member : (.str text, other) ∈ Value.setItem stored key value) :
    (.str text, other) ∈ stored ∨ (key = .str text ∧ other = value) := by
  cases key with
  | str name =>
    rcases mem_store member with old | ⟨rfl, rfl⟩
    · exact .inl old
    · exact .inr ⟨rfl, rfl⟩
  | _ =>
    rcases List.mem_append.mp member with old | new
    · exact .inl old
    · cases List.mem_singleton.mp new

end Store

end Guardata

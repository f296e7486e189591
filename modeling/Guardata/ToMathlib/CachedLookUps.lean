import Mathlib.Data.Set.Basic

/-! # Looking things up through a cache

Items are looked up one after another, and what is known of them only grows. Looking up an item that is known
asks nobody; looking up another one brings a set of items. Once all items of a list are known, looking them up
again changes nothing.
-/

section CachedLookUps

variable {ι : Type*} (brings : ι → Set ι)

/-- What is known after an item was looked up. -/
def lookUp (known : Set ι) (item : ι) : Set ι :=
  {other | other ∈ known ∨ item ∉ known ∧ other ∈ brings item}

/-- What is known after the items of a list were looked up. -/
def lookUps (known : Set ι) (items : List ι) : Set ι := items.foldl (lookUp brings) known

variable {brings} {known : Set ι}

theorem lookUp_of_mem {item : ι} (there : item ∈ known) : lookUp brings known item = known := by
  ext other
  simp [lookUp, there]

theorem lookUp_of_not_mem {item : ι} (missing : item ∉ known) :
    lookUp brings known item = {other | other ∈ known ∨ other ∈ brings item} := by
  ext other
  simp [lookUp, missing]

@[simp] theorem lookUps_nil : lookUps brings known [] = known := rfl

@[simp] theorem lookUps_cons (item : ι) (rest : List ι) :
    lookUps brings known (item :: rest) = lookUps brings (lookUp brings known item) rest := rfl

theorem lookUps_append (first second : List ι) :
    lookUps brings known (first ++ second) = lookUps brings (lookUps brings known first) second :=
  List.foldl_append

theorem subset_lookUp (item : ι) : known ⊆ lookUp brings known item := fun _ member => .inl member

theorem subset_lookUps (items : List ι) : known ⊆ lookUps brings known items := by
  induction items generalizing known with
  | nil => exact Set.Subset.rfl
  | cons item rest ih => exact (subset_lookUp item).trans ih

/-- Nothing is asked for what is known. -/
theorem lookUps_of_forall_mem {items : List ι} (there : ∀ item ∈ items, item ∈ known) :
    lookUps brings known items = known := by
  induction items with
  | nil => rfl
  | cons item rest ih =>
    rw [lookUps_cons, lookUp_of_mem (there item (List.mem_cons_self ..))]
    exact ih fun other member => there other (List.mem_cons_of_mem _ member)

end CachedLookUps

import Mathlib.Data.List.Basic
import Mathlib.Data.List.Induction
import Mathlib.Data.List.Infix
import Mathlib.Data.Option.Basic
import Mathlib.Data.Nat.Notation

/-! # Walks along named edges

A place has at most one edge of each name, so that a list of names is a walk from a root. The places that
can be reached form a tree if no two walks end in one place. Then whoever changes the edges of one place
changes the walks that go on from it, and no others.
-/

namespace EdgeWalks

variable {ν ℓ : Type*}

/-- Where a list of names leads to. -/
def walk (edge : ν → ℓ → Option ν) (start : ν) (names : List ℓ) : Option ν := names.foldlM edge start

/-- No two walks end in one place. -/
def Treelike (edge : ν → ℓ → Option ν) (root : ν) : Prop :=
  ∀ first second place, walk edge root first = some place → walk edge root second = some place →
    first = second

section Walk

variable {edge : ν → ℓ → Option ν} {start place : ν}

@[simp] theorem walk_nil : walk edge start [] = some start := rfl

theorem walk_cons (name : ℓ) (rest : List ℓ) :
    walk edge start (name :: rest) = (edge start name).bind fun next => walk edge next rest :=
  List.foldlM_cons

theorem walk_append (first second : List ℓ) :
    walk edge start (first ++ second) = (walk edge start first).bind fun middle => walk edge middle second :=
  List.foldlM_append

theorem walk_concat (names : List ℓ) (name : ℓ) :
    walk edge start (names ++ [name]) = (walk edge start names).bind fun last => edge last name := by
  rw [walk_append]
  congr 1
  funext last
  rw [walk_cons]
  exact Option.bind_fun_some _

theorem walk_concat_eq_some_iff {names : List ℓ} {name : ℓ} :
    walk edge start (names ++ [name]) = some place ↔
      ∃ last, walk edge start names = some last ∧ edge last name = some place := by
  rw [walk_concat, Option.bind_eq_some_iff]

/-- Where at most one edge leads to a place, and none to the root, no two walks end in one place. -/
theorem treelike_of_unique {root : ν}
    (once : ∀ first second name other place, (∃ names, walk edge root names = some first) →
      (∃ names, walk edge root names = some second) → edge first name = some place →
      edge second other = some place → first = second ∧ name = other)
    (above : ∀ place name, (∃ names, walk edge root names = some place) → edge place name ≠ some root) :
    Treelike edge root := by
  intro first
  induction first using List.reverseRecOn with
  | nil =>
    intro second place atFirst atSecond
    cases atFirst
    rcases List.eq_nil_or_concat second with rfl | ⟨front, name, rfl⟩
    · rfl
    · rw [List.concat_eq_append] at atSecond
      obtain ⟨last, reached, leads⟩ := walk_concat_eq_some_iff.mp atSecond
      exact absurd leads (above last name ⟨front, reached⟩)
  | append_singleton front name ih =>
    intro second place atFirst atSecond
    obtain ⟨last, reached, leads⟩ := walk_concat_eq_some_iff.mp atFirst
    rcases List.eq_nil_or_concat second with rfl | ⟨front', name', rfl⟩
    · cases atSecond
      exact absurd leads (above last name ⟨front, reached⟩)
    · rw [List.concat_eq_append] at atSecond ⊢
      obtain ⟨last', reached', leads'⟩ := walk_concat_eq_some_iff.mp atSecond
      obtain ⟨rfl, rfl⟩ := once _ _ _ _ _ ⟨front, reached⟩ ⟨front', reached'⟩ leads leads'
      rw [ih front' last reached reached']

end Walk

/-- The edges of one place, of those that can be reached, are changed. -/
def ChangesAt (edge edge' : ν → ℓ → Option ν) (root changed : ν) : Prop :=
  ∀ names place, walk edge root names = some place → place ≠ changed → edge' place = edge place

/-- The names go on behind a place. -/
def Behind (front names : List ℓ) : Prop := ∃ name rest, names = front ++ name :: rest

theorem behind_append {front : List ℓ} {name : ℓ} {rest : List ℓ} : Behind front (front ++ name :: rest) :=
  ⟨name, rest, rfl⟩

theorem not_behind_self {front : List ℓ} : ¬ Behind front front := by
  rintro ⟨name, rest, same⟩
  have longer := congrArg List.length same
  simp at longer

/-- To go on behind a place by a name, or elsewhere. -/
theorem prefix_behind_iff {front : List ℓ} {last name : ℓ} {rest : List ℓ} :
    front ++ [last] <+: front ++ name :: rest ↔ last = name := by
  rw [List.prefix_append_right_inj, List.cons_prefix_cons, and_iff_left List.nil_prefix]

theorem behind_of_starts {front names : List ℓ} {last : ℓ} (under : front ++ [last] <+: names) :
    Behind front names := by
  obtain ⟨rest, rfl⟩ := under
  exact ⟨last, rest, by simp⟩

theorem Behind.concat {front names : List ℓ} {name : ℓ} (behind : Behind front names) :
    Behind front (names ++ [name]) := by
  obtain ⟨first, rest, rfl⟩ := behind
  exact ⟨first, rest ++ [name], by simp⟩

section Change

variable {edge edge' : ν → ℓ → Option ν} {root changed : ν} {front names : List ℓ}

/-- Walks that do not go on from the changed place are what they were. -/
theorem walk_outside (tree : Treelike edge root) (changes : ChangesAt edge edge' root changed)
    (here : walk edge root front = some changed) (outside : ¬ Behind front names) :
    walk edge' root names = walk edge root names := by
  induction names using List.reverseRecOn with
  | nil => rfl
  | append_singleton names name ih =>
    rw [walk_concat, walk_concat, ih fun behind => outside behind.concat]
    cases reached : walk edge root names with
    | none => rfl
    | some place =>
      have other : place ≠ changed := by
        rintro rfl
        obtain rfl := tree names front place reached here
        exact outside behind_append
      rw [Option.bind_some, Option.bind_some, changes names place reached other]

/-- Where the changed place now has the edge that had another name, the walks behind it move along. -/
theorem walk_renamed (tree : Treelike edge root) (changes : ChangesAt edge edge' root changed)
    (here : walk edge root front = some changed) {name former : ℓ}
    (renamed : edge' changed name = edge changed former) (rest : List ℓ) :
    walk edge' root (front ++ name :: rest) = walk edge root (front ++ former :: rest) := by
  induction rest using List.reverseRecOn with
  | nil =>
    rw [walk_concat, walk_concat, walk_outside tree changes here not_behind_self, here, Option.bind_some,
      Option.bind_some, renamed]
  | append_singleton rest last ih =>
    rw [← List.cons_append, ← List.append_assoc, walk_concat, ih, ← List.cons_append, ← List.append_assoc,
      walk_concat]
    cases reached : walk edge root (front ++ former :: rest) with
    | none => rfl
    | some place =>
      have other : place ≠ changed := by
        rintro rfl
        have again := tree _ front place reached here
        exact not_behind_self (again ▸ behind_append)
      rw [Option.bind_some, Option.bind_some, changes _ place reached other]

theorem walk_cut (tree : Treelike edge root) (changes : ChangesAt edge edge' root changed)
    (here : walk edge root front = some changed) {name : ℓ} (cut : edge' changed name = none)
    (rest : List ℓ) : walk edge' root (front ++ name :: rest) = none := by
  rw [walk_append, walk_outside tree changes here not_behind_self, here, Option.bind_some, walk_cons, cut]
  rfl

/-- Behind a new leaf there is nothing. -/
theorem walk_leaf (tree : Treelike edge root) (changes : ChangesAt edge edge' root changed)
    (here : walk edge root front = some changed) {name : ℓ} {leaf : ν}
    (grown : edge' changed name = some leaf) (bare : ∀ name, edge' leaf name = none) (rest : List ℓ) :
    walk edge' root (front ++ name :: rest) = if rest = [] then some leaf else none := by
  rw [walk_append, walk_outside tree changes here not_behind_self, here, Option.bind_some, walk_cons, grown,
    Option.bind_some]
  cases rest with
  | nil => rfl
  | cons next rest =>
    rw [walk_cons, bare, if_neg (List.cons_ne_nil next rest)]
    rfl

/-- The edges of a place are given new names, or none, and no two of them the same. -/
def Renames (edge edge' : ν → ℓ → Option ν) (changed : ν) (former : ℓ → Option ℓ) : Prop :=
  (∀ name, edge' changed name = (former name).bind (edge changed)) ∧
    ∀ first second old, former first = some old → former second = some old → first = second

/-- What is reached behind the changed place was reached behind it before. -/
theorem Renames.behind {former : ℓ → Option ℓ} (renames : Renames edge edge' changed former)
    (tree : Treelike edge root) (changes : ChangesAt edge edge' root changed)
    (here : walk edge root front = some changed) {name : ℓ} {rest : List ℓ} {place : ν}
    (reached : walk edge' root (front ++ name :: rest) = some place) :
    ∃ old, former name = some old ∧ walk edge root (front ++ old :: rest) = some place := by
  cases known : former name with
  | none =>
    have cut : edge' changed name = none := by rw [renames.1, known]; rfl
    rw [walk_cut tree changes here cut] at reached
    cases reached
  | some old =>
    have moved : edge' changed name = edge changed old := by rw [renames.1, known, Option.bind_some]
    exact ⟨old, rfl, (walk_renamed tree changes here moved rest).symm.trans reached⟩

theorem Renames.reached {former : ℓ → Option ℓ} (renames : Renames edge edge' changed former)
    (tree : Treelike edge root) (changes : ChangesAt edge edge' root changed)
    (here : walk edge root front = some changed) {place : ν} (reached : walk edge' root names = some place) :
    ∃ before, walk edge root before = some place := by
  by_cases behind : Behind front names
  · obtain ⟨name, rest, rfl⟩ := behind
    obtain ⟨old, -, before⟩ := renames.behind tree changes here reached
    exact ⟨_, before⟩
  · rw [walk_outside tree changes here behind] at reached
    exact ⟨names, reached⟩

theorem Treelike.rename (tree : Treelike edge root) (changes : ChangesAt edge edge' root changed)
    (here : walk edge root front = some changed) {former : ℓ → Option ℓ}
    (renames : Renames edge edge' changed former) : Treelike edge' root := by
  intro first second place atFirst atSecond
  by_cases inFirst : Behind front first <;> by_cases inSecond : Behind front second
  · obtain ⟨name, rest, rfl⟩ := inFirst
    obtain ⟨name', rest', rfl⟩ := inSecond
    obtain ⟨old, known, reached⟩ := renames.behind tree changes here atFirst
    obtain ⟨old', known', reached'⟩ := renames.behind tree changes here atSecond
    have same := List.append_cancel_left (tree _ _ place reached reached')
    obtain ⟨rfl, rfl⟩ := List.cons.inj same
    rw [renames.2 name name' old known known']
  · obtain ⟨name, rest, rfl⟩ := inFirst
    obtain ⟨old, -, reached⟩ := renames.behind tree changes here atFirst
    rw [walk_outside tree changes here inSecond] at atSecond
    exact absurd (tree _ second place reached atSecond ▸ behind_append) inSecond
  · obtain ⟨name, rest, rfl⟩ := inSecond
    obtain ⟨old, -, reached⟩ := renames.behind tree changes here atSecond
    rw [walk_outside tree changes here inFirst] at atFirst
    exact absurd (tree _ first place reached atFirst ▸ behind_append) inFirst
  · rw [walk_outside tree changes here inFirst] at atFirst
    rw [walk_outside tree changes here inSecond] at atSecond
    exact tree first second place atFirst atSecond

/-- A place gets an edge to a new leaf. -/
structure Grows (edge edge' : ν → ℓ → Option ν) (root changed : ν) (name : ℓ) (leaf : ν) : Prop where
  grown : edge' changed name = some leaf
  others : ∀ other, other ≠ name → edge' changed other = edge changed other
  fresh : ∀ names, walk edge root names ≠ some leaf
  bare : ∀ name, edge' leaf name = none

/-- A walk ends in the leaf, or it ends where it ended before. -/
theorem Grows.reached {name : ℓ} {leaf place : ν} (grows : Grows edge edge' root changed name leaf)
    (tree : Treelike edge root) (changes : ChangesAt edge edge' root changed)
    (here : walk edge root front = some changed) (reached : walk edge' root names = some place) :
    names = front ++ [name] ∧ place = leaf ∨ walk edge root names = some place := by
  by_cases behind : Behind front names
  · obtain ⟨first, rest, rfl⟩ := behind
    by_cases same : first = name
    · subst same
      rw [walk_leaf tree changes here grows.grown grows.bare] at reached
      split at reached
      · next bare =>
        subst bare
        cases reached
        exact .inl ⟨rfl, rfl⟩
      · cases reached
    · rw [walk_renamed tree changes here (grows.others first same)] at reached
      exact .inr reached
  · rw [walk_outside tree changes here behind] at reached
    exact .inr reached

theorem Treelike.grow (tree : Treelike edge root) (changes : ChangesAt edge edge' root changed)
    (here : walk edge root front = some changed) {name : ℓ} {leaf : ν}
    (grows : Grows edge edge' root changed name leaf) : Treelike edge' root := by
  intro first second place atFirst atSecond
  rcases grows.reached tree changes here atFirst with ⟨rfl, rfl⟩ | oldFirst <;>
    rcases grows.reached tree changes here atSecond with ⟨rfl, leaf⟩ | oldSecond
  · rfl
  · exact absurd oldSecond (grows.fresh second)
  · exact absurd (leaf ▸ oldFirst) (grows.fresh first)
  · exact tree first second place oldFirst oldSecond

end Change

end EdgeWalks

import Mathlib.Data.List.Forall2

/-! # Taking fallible computations apart

`Except.require` is the guard of a function that raises: it returns unit when its condition
holds and the given error otherwise. The equivalences below turn "this computation returned" into
its guards and its intermediate values, so that no proof has to unfold the monad.
-/

universe u

namespace Except

variable {ε : Type*} {α β : Type u}

/-- Raise an error unless a condition holds. -/
def require (cond : Prop) [Decidable cond] (err : ε) : Except ε Unit :=
  if cond then .ok () else .error err

@[simp] theorem require_eq_ok_iff {cond : Prop} [Decidable cond] {err : ε} {done : Unit} :
    require cond err = .ok done ↔ cond := by
  by_cases holds : cond <;> simp [require, holds]

@[simp] theorem bind_eq_ok_iff {first : Except ε α} {next : α → Except ε β} {result : β} :
    (first >>= next) = .ok result ↔ ∃ value, first = .ok value ∧ next value = .ok result := by
  cases first <;> simp [bind, Except.bind]

theorem ok_bind (value : α) (next : α → Except ε β) : (Except.ok value >>= next) = next value := rfl

/-- A guard has nothing to return. -/
theorem exists_done {holds : Unit → Prop} : (∃ done, holds done) ↔ holds () :=
  ⟨fun ⟨(), found⟩ => found, fun found => ⟨(), found⟩⟩

@[simp] theorem pure_eq_ok_iff {value result : α} :
    (pure value : Except ε α) = .ok result ↔ value = result := by
  simp [pure, Except.pure]

theorem map_eq_ok_iff {f : α → β} {result : Except ε α} {value : β} :
    result.map f = .ok value ↔ ∃ before, result = .ok before ∧ f before = value := by
  cases result <;> simp [Except.map]

@[simp] theorem mapError_eq_ok_iff {ε' : Type*} {result : Except ε α} {translate : ε → ε'} {value : α} :
    result.mapError translate = .ok value ↔ result = .ok value := by
  cases result with
  | error raised =>
    change Except.error (translate raised) = .ok value ↔ _
    simp
  | ok got =>
    change Except.ok got = .ok value ↔ _
    simp

@[simp] theorem mapError_ok {ε' : Type*} (value : α) (translate : ε → ε') :
    (Except.ok value : Except ε α).mapError translate = .ok value := rfl

@[simp] theorem mapError_error {ε' : Type*} (err : ε) (translate : ε → ε') :
    (Except.error err : Except ε α).mapError translate = .error (translate err) := rfl

theorem mapError_bind {ε' : Type*} (first : Except ε α) (next : α → Except ε β) (translate : ε → ε') :
    (first >>= next).mapError translate =
      (first.mapError translate >>= fun value => (next value).mapError translate) := by
  cases first <;> rfl

theorem mapError_require {ε' : Type*} (cond : Prop) [Decidable cond] (err : ε) (translate : ε → ε') :
    (require cond err).mapError translate = require cond (translate err) := by
  by_cases holds : cond <;> simp only [require, holds, if_true, if_false] <;> rfl

theorem require_bind {β : Type} {cond : Prop} [Decidable cond] {err : ε} {next : Unit → Except ε β} (holds : cond) :
    (require cond err >>= next) = next () := by
  rw [require_eq_ok_iff.mpr holds, ok_bind]

theorem bind_eq_error_iff {first : Except ε α} {next : α → Except ε β} {err : ε} :
    (first >>= next) = .error err ↔ first = .error err ∨ ∃ value, first = .ok value ∧ next value = .error err := by
  cases first <;> simp [bind, Except.bind]

theorem require_eq_error_iff {cond : Prop} [Decidable cond] {raised err : ε} :
    require cond raised = .error err ↔ ¬ cond ∧ raised = err := by
  by_cases holds : cond <;> simp [require, holds]

/-- An error that neither part of a computation raises is not raised by the whole. -/
theorem bind_ne_error {first : Except ε α} {next : α → Except ε β} {err : ε}
    (head : first ≠ .error err) (tail : ∀ value, next value ≠ .error err) :
    (first >>= next) ≠ .error err := by
  cases first with
  | error other => exact fun same => head (by cases same; rfl)
  | ok value => exact tail value

theorem pure_ne_error {value : α} {err : ε} : (pure value : Except ε α) ≠ .error err := nofun

theorem require_ne_error {cond : Prop} [Decidable cond] {raised err : ε} (other : raised ≠ err) :
    require cond raised ≠ .error err := by
  by_cases holds : cond <;> simp [require, holds, other]

theorem foldlM_ne_error {step : β → α → Except ε β} {err : ε}
    (never : ∀ state value, step state value ≠ .error err) (values : List α) (start : β) :
    values.foldlM step start ≠ .error err := by
  induction values generalizing start with
  | nil => exact nofun
  | cons value rest ih =>
    rw [List.foldlM_cons]
    exact bind_ne_error (never start value) ih

theorem mapM_ne_error {step : α → Except ε β} {err : ε} (never : ∀ value, step value ≠ .error err)
    (values : List α) : values.mapM step ≠ .error err := by
  induction values with
  | nil => exact nofun
  | cons value rest ih =>
    rw [List.mapM_cons]
    exact bind_ne_error (never value) fun _ => bind_ne_error ih fun _ => pure_ne_error

/-- Every value has its result. -/
theorem mapM_eq_ok_iff {step : α → Except ε β} {values : List α} {results : List β} :
    values.mapM step = .ok results ↔ List.Forall₂ (fun value result => step value = .ok result) values results := by
  induction values generalizing results with
  | nil =>
    rw [List.mapM_nil, pure_eq_ok_iff, List.forall₂_nil_left_iff]
    exact eq_comm
  | cons value rest ih =>
    simp only [List.mapM_cons, bind_eq_ok_iff, pure_eq_ok_iff, List.forall₂_cons_left_iff, ih]
    constructor
    · rintro ⟨result, here, others, later, rfl⟩
      exact ⟨result, others, here, later, rfl⟩
    · rintro ⟨result, others, here, later, rfl⟩
      exact ⟨result, here, others, later, rfl⟩

theorem toOption_eq_some_iff {result : Except ε α} {value : α} :
    result.toOption = some value ↔ result = .ok value := by
  cases result <;> simp [Except.toOption]

/-- The error of a computation that raises. -/
def raised? : Except ε α → Option ε
  | .ok _ => none
  | .error err => some err

@[simp] theorem raised?_ok (value : α) : (Except.ok value : Except ε α).raised? = none := rfl

@[simp] theorem raised?_error (err : ε) : (Except.error err : Except ε α).raised? = some err := rfl

@[simp] theorem raised?_map (f : α → β) (result : Except ε α) : (result.map f).raised? = result.raised? := by
  cases result <;> rfl

/-- The first part that raises decides, if the second raises the same on whatever the first returns. -/
theorem raised?_bind {first : Except ε α} {next : α → Except ε β} {later : Option ε}
    (tail : ∀ value, first = .ok value → (next value).raised? = later) :
    (first >>= next).raised? = first.raised?.or later := by
  cases first with
  | error err => rfl
  | ok value => exact tail value rfl

@[simp] theorem raised?_bind_pure (f : α → β) (result : Except ε α) :
    (result >>= fun value => pure (f value)).raised? = result.raised? := by
  cases result <;> rfl

/-- What holds whether a computation raises or returns. -/
theorem elim_toOption {γ : Type*} (holds : γ → Prop) {result : Except ε α} {start : γ} {next : α → γ}
    (refused : holds start) (accepted : ∀ value, result = .ok value → holds (next value)) :
    holds (result.toOption.elim start next) := by
  cases result with
  | error error => exact refused
  | ok value => exact accepted value rfl

end Except

/-- Guards ask for membership among options; the proof in their decision procedure is named once. -/
instance Option.lawfulBEqOfDecidableEq {α : Type*} [DecidableEq α] : LawfulBEq (Option α) := inferInstance

/-- An option that has to be there. -/
theorem Option.elim_eq_ok_iff {ε α : Type*} {option : Option α} {err : ε} {value : α} :
    option.elim (.error err) .ok = Except.ok value ↔ option = some value := by
  cases option <;> simp

import Mathlib.Logic.Basic

/-! # Coroutines over a shared state

A coroutine is a finite tree of atomic actions. An action looks at the shared state, updates it or
is blocked in it, and picks the rest of the coroutine by what it saw; between two actions other
coroutines may run. `run` plays a coroutine alone, from one state to the next without interference,
and has the equations of a state monad with exceptions; `advance` plays one action, for a scheduler that
takes turns. `within` plays a coroutine on a part of a larger state.
-/

namespace Machine

/-- A computation that suspends at every atomic action. -/
inductive Coroutine (ε σ : Type) (α : Type) : Type
  | ret (value : α)
  | raise (error : ε)
  /-- The update is `none` where the action is blocked; the rest depends on the state before. -/
  | atomic (update : σ → Option σ) (next : σ → Coroutine ε σ α)

namespace Coroutine

variable {ε σ α β : Type}

protected def bind : Coroutine ε σ α → (α → Coroutine ε σ β) → Coroutine ε σ β
  | ret value, rest => rest value
  | raise error, _ => raise error
  | atomic update next, rest => atomic update fun state => (next state).bind rest

instance : Monad (Coroutine ε σ) where
  pure := ret
  bind := Coroutine.bind

/-- Whatever the computation comes to, go on with it. -/
def attempt : Coroutine ε σ α → Coroutine ε σ (Except ε α)
  | ret value => ret (.ok value)
  | raise error => ret (.error error)
  | atomic update next => atomic update fun state => (next state).attempt

def ofExcept : Except ε α → Coroutine ε σ α
  | .ok value => ret value
  | .error error => raise error

/-- `try: body finally: cleanup`. -/
def ensuring (body : Coroutine ε σ α) (cleanup : Coroutine ε σ Unit) : Coroutine ε σ α := do
  let result ← body.attempt
  cleanup
  ofExcept result

/-- Look at the state. -/
def observe (view : σ → α) : Coroutine ε σ α := atomic some fun state => ret (view state)

/-- Look at the state, and fail if there is nothing to see. -/
def observeOr (view : σ → Except ε α) : Coroutine ε σ α :=
  atomic some fun state => ofExcept (view state)

/-- Change the state. -/
def update (change : σ → σ) : Coroutine ε σ Unit :=
  atomic (fun state => some (change state)) fun _ => ret ()

/-- Statements that answer or fail together; if they fail, the state is left as it was. -/
def transact (statements : σ → Except ε (α × σ)) : Coroutine ε σ α :=
  atomic
    (fun state => match statements state with
      | .ok (_, after) => some after
      | .error _ => some state)
    fun state => ofExcept ((statements state).map Prod.fst)

/-- The next action, unless it is blocked or there is none. -/
def advance : Coroutine ε σ α → σ → Option (Coroutine ε σ α × σ)
  | atomic update next, state => (update state).map fun after => (next state, after)
  | _, _ => none

/-- Play a coroutine alone; `none` if it is blocked for good. -/
def run : Coroutine ε σ α → σ → Option (Except ε α × σ)
  | ret value, state => some (.ok value, state)
  | raise error, state => some (.error error, state)
  | atomic update next, state => (update state).bind fun after => (next state).run after

section Run

variable (state : σ)

@[simp] theorem run_pure (value : α) :
    (pure value : Coroutine ε σ α).run state = some (.ok value, state) := rfl

@[simp] theorem run_raise (error : ε) :
    (raise error : Coroutine ε σ α).run state = some (.error error, state) := rfl

@[simp] theorem run_ofExcept (result : Except ε α) :
    (ofExcept result : Coroutine ε σ α).run state = some (result, state) := by
  cases result <;> rfl

@[simp] theorem run_observe (view : σ → α) :
    (observe view : Coroutine ε σ α).run state = some (.ok (view state), state) := rfl

@[simp] theorem run_observeOr (view : σ → Except ε α) :
    (observeOr view).run state = some (view state, state) := by
  change (ofExcept (view state) : Coroutine ε σ α).run state = _
  rw [run_ofExcept]

@[simp] theorem run_update (change : σ → σ) :
    (update change : Coroutine ε σ Unit).run state = some (.ok (), change state) := rfl

theorem run_transact_of_ok {statements : σ → Except ε (α × σ)} {value : α} {after : σ}
    (answered : statements state = .ok (value, after)) :
    (transact statements).run state = some (.ok value, after) := by
  change ((match statements state with
    | .ok (_, after) => some after
    | .error _ => some state).bind fun after =>
      (ofExcept ((statements state).map Prod.fst) : Coroutine ε σ α).run after) = _
  rw [answered]
  rfl

/-- A sequence is played from left to right; an exception ends it. -/
theorem run_bind (first : Coroutine ε σ α) (rest : α → Coroutine ε σ β) :
    (first >>= rest).run state = (first.run state).bind fun outcome =>
      match outcome with
      | (.ok value, after) => (rest value).run after
      | (.error error, after) => some (.error error, after) := by
  induction first generalizing state with
  | ret value => rfl
  | raise error => rfl
  | atomic update next ih =>
    change ((update state).bind fun after => ((next state).bind rest).run after) = _
    rw [run, Option.bind_assoc]
    congr 1
    funext after
    exact ih state after

/-- A first part that returns hands over to the rest. -/
theorem run_bind_of_ok {first : Coroutine ε σ α} {rest : α → Coroutine ε σ β} {value : α}
    {after : σ} (returned : first.run state = some (.ok value, after)) :
    (first >>= rest).run state = (rest value).run after := by
  rw [run_bind, returned]
  rfl

theorem run_bind_of_error {first : Coroutine ε σ α} {rest : α → Coroutine ε σ β} {error : ε}
    {after : σ} (raised : first.run state = some (.error error, after)) :
    (first >>= rest).run state = some (.error error, after) := by
  rw [run_bind, raised]
  rfl

theorem run_attempt (body : Coroutine ε σ α) :
    body.attempt.run state = (body.run state).map fun outcome => (.ok outcome.1, outcome.2) := by
  induction body generalizing state with
  | ret value => rfl
  | raise error => rfl
  | atomic update next ih =>
    simp only [attempt, run, Option.map_bind]
    congr 1
    funext after
    exact ih state after

/-- The cleanup runs after the body in either case. -/
theorem run_ensuring {body : Coroutine ε σ α} {cleanup : Coroutine ε σ Unit}
    {result : Except ε α} {middle after : σ} (played : body.run state = some (result, middle))
    (cleaned : cleanup.run middle = some (.ok (), after)) :
    (body.ensuring cleanup).run state = some (result, after) := by
  have attempted : body.attempt.run state = some (.ok result, middle) := by
    rw [run_attempt, played]
    rfl
  rw [ensuring, run_bind_of_ok _ attempted, run_bind_of_ok _ cleaned, run_ofExcept]

/-- A loop over a list applies the effect of each of its rounds. -/
theorem run_forM {body : α → Coroutine ε σ Unit} {effect : σ → α → σ} {entries : List α}
    (played : ∀ entry ∈ entries, ∀ state, (body entry).run state = some (.ok (), effect state entry)) :
    (entries.forM body).run state = some (.ok (), entries.foldl effect state) := by
  induction entries generalizing state with
  | nil => rfl
  | cons entry rest ih =>
    obtain ⟨here, later⟩ := List.forall_mem_cons.mp played
    change (body entry >>= fun _ => rest.forM body).run state = _
    rw [run_bind_of_ok _ (here state)]
    exact ih _ later

end Run

/-- No action is ever blocked, whatever state it meets. -/
def Unblocked : Coroutine ε σ α → Prop
  | ret _ => True
  | raise _ => True
  | atomic update next => ∀ state, (update state).isSome = true ∧ (next state).Unblocked

section Unblocked

/-- Such a coroutine comes to its end when it is played alone. -/
theorem Unblocked.exists_run {body : Coroutine ε σ α} (unblocked : body.Unblocked) (state : σ) :
    ∃ result after, body.run state = some (result, after) := by
  induction body generalizing state with
  | ret value => exact ⟨.ok value, state, rfl⟩
  | raise error => exact ⟨.error error, state, rfl⟩
  | atomic update next ih =>
    obtain ⟨moves, later⟩ := unblocked state
    obtain ⟨after, moved⟩ := Option.isSome_iff_exists.mp moves
    obtain ⟨result, final, played⟩ := ih state later after
    exact ⟨result, final, by rw [run, moved, Option.bind_some, played]⟩

theorem Unblocked.bind {first : Coroutine ε σ α} {rest : α → Coroutine ε σ β} (unblocked : first.Unblocked)
    (later : ∀ value, (rest value).Unblocked) : (first >>= rest).Unblocked := by
  induction first with
  | ret value => exact later value
  | raise error => trivial
  | atomic update next ih => exact fun state => ⟨(unblocked state).1, ih state (unblocked state).2⟩

theorem Unblocked.attempt {body : Coroutine ε σ α} (unblocked : body.Unblocked) : body.attempt.Unblocked := by
  induction body with
  | ret value => trivial
  | raise error => trivial
  | atomic update next ih => exact fun state => ⟨(unblocked state).1, ih state (unblocked state).2⟩

theorem unblocked_ofExcept (result : Except ε α) : (ofExcept result : Coroutine ε σ α).Unblocked := by
  cases result <;> trivial

theorem unblocked_observeOr (view : σ → Except ε α) : (observeOr view).Unblocked :=
  fun state => ⟨rfl, unblocked_ofExcept (view state)⟩

theorem unblocked_update (change : σ → σ) : (update change : Coroutine ε σ Unit).Unblocked :=
  fun _ => ⟨rfl, trivial⟩

theorem unblocked_foldlM {body : β → α → Coroutine ε σ β} (unblocked : ∀ value entry, (body value entry).Unblocked)
    (entries : List α) (start : β) : (entries.foldlM body start).Unblocked := by
  induction entries generalizing start with
  | nil => trivial
  | cons entry rest ih =>
    rw [List.foldlM_cons]
    exact (unblocked start entry).bind ih

end Unblocked

/-- The triple of a coroutine that is played alone. -/
def Alone (pre : σ → Prop) (body : Coroutine ε σ α) (returns : α → σ → Prop) (raises : σ → Prop) : Prop :=
  ∀ state after, pre state → (∀ value, body.run state = some (.ok value, after) → returns value after) ∧
    ∀ error, body.run state = some (.error error, after) → raises after

section Alone

variable {pre raises : σ → Prop} {returns : α → σ → Prop}

theorem Alone.mono {body : Coroutine ε σ α} {stronger weaker : σ → Prop} {weakened : α → σ → Prop}
    (alone : Alone pre body returns raises) (strengthen : ∀ state, stronger state → pre state)
    (weaken : ∀ value state, returns value state → weakened value state)
    (weakenError : ∀ state, raises state → weaker state) : Alone stronger body weakened weaker := by
  intro state after given
  obtain ⟨returned, raised⟩ := alone state after (strengthen state given)
  exact ⟨fun value played => weaken value after (returned value played),
    fun error played => weakenError after (raised error played)⟩

/-- The state in which the coroutine begins may be named. -/
theorem alone_of_eq {body : Coroutine ε σ α}
    (alone : ∀ state, pre state → Alone (· = state) body returns raises) : Alone pre body returns raises :=
  fun state after given => alone state given state after rfl

theorem alone_pure {value : α} (ends : ∀ state, pre state → returns value state) :
    Alone pre (pure value : Coroutine ε σ α) returns raises := by
  intro state after given
  refine ⟨fun other played => ?_, fun error played => ?_⟩
  · cases played
    exact ends state given
  · cases played

theorem alone_raise {error : ε} (ends : ∀ state, pre state → raises state) :
    Alone pre (raise error : Coroutine ε σ α) returns raises := by
  intro state after given
  refine ⟨fun other played => ?_, fun other played => ?_⟩
  · cases played
  · cases played
    exact ends state given

theorem alone_ofExcept {result : Except ε α} (ends : ∀ state value, pre state → result = .ok value →
    returns value state) (fails : ∀ state, pre state → raises state) :
    Alone pre (ofExcept result : Coroutine ε σ α) returns raises := by
  cases result with
  | ok value => exact alone_pure fun state given => ends state value given rfl
  | error error => exact alone_raise fails

theorem alone_observeOr {view : σ → Except ε α} (ends : ∀ state value, pre state → view state = .ok value →
    returns value state) (fails : ∀ state error, pre state → view state = .error error → raises state) :
    Alone pre (observeOr view) returns raises := by
  intro state after given
  refine ⟨fun value played => ?_, fun error played => ?_⟩
  · rw [run_observeOr, Option.some.injEq, Prod.mk.injEq] at played
    obtain ⟨seen, rfl⟩ := played
    exact ends state value given seen
  · rw [run_observeOr, Option.some.injEq, Prod.mk.injEq] at played
    obtain ⟨seen, rfl⟩ := played
    exact fails state error given seen

theorem alone_atomic {update : σ → Option σ} {next : σ → Coroutine ε σ α}
    (step : ∀ state later, pre state → update state = some later →
      Alone (· = later) (next state) returns raises) : Alone pre (atomic update next) returns raises := by
  intro state after given
  cases updated : update state with
  | none =>
    have blocked : (atomic update next).run state = none := by rw [run, updated]; rfl
    rw [blocked]
    refine ⟨fun value ends => ?_, fun error ends => ?_⟩
    · cases ends
    · cases ends
  | some later =>
    have goes : (atomic update next).run state = (next state).run later := by rw [run, updated]; rfl
    rw [goes]
    exact step state later given updated later after rfl

theorem alone_update {change : σ → σ} {after : Unit → σ → Prop}
    (ends : ∀ state, pre state → after () (change state)) :
    Alone pre (update change : Coroutine ε σ Unit) after raises := by
  intro state last given
  refine ⟨fun other played => ?_, fun error played => ?_⟩
  · cases played
    exact ends state given
  · cases played

theorem Alone.bind {first : Coroutine ε σ β} {rest : β → Coroutine ε σ α} {middle : β → σ → Prop}
    (begins : Alone pre first middle raises)
    (continues : ∀ value, Alone (middle value) (rest value) returns raises) :
    Alone pre (first >>= rest) returns raises := by
  intro state after given
  cases played : first.run state with
  | none =>
    have blocked : (first >>= rest).run state = none := by rw [run_bind, played]; rfl
    rw [blocked]
    refine ⟨fun value ends => ?_, fun error ends => ?_⟩
    · cases ends
    · cases ends
  | some outcome =>
    obtain ⟨result, between⟩ := outcome
    cases result with
    | ok value =>
      rw [run_bind_of_ok _ played]
      exact continues value between after ((begins state between given).1 value played)
    | error error =>
      have raised := (begins state between given).2 error played
      rw [run_bind_of_error _ played]
      refine ⟨fun other ends => ?_, fun other ends => ?_⟩
      · cases ends
      · cases ends
        exact raised

/-- An attempt that fails goes on from where it failed. -/
theorem Alone.attempt {body : Coroutine ε σ β} {returns : β → σ → Prop} {failed : σ → Prop}
    (alone : Alone pre body returns failed) :
    Alone pre body.attempt (fun result state => match result with
      | .ok value => returns value state
      | .error _ => failed state) raises := by
  intro state after given
  refine ⟨fun result played => ?_, fun error played => ?_⟩
  · rw [run_attempt, Option.map_eq_some_iff] at played
    obtain ⟨⟨outcome, last⟩, ends, same⟩ := played
    cases same
    cases outcome with
    | ok value => exact (alone state _ given).1 value ends
    | error error => exact (alone state _ given).2 error ends
  · rw [run_attempt, Option.map_eq_some_iff] at played
    obtain ⟨_, -, same⟩ := played
    cases same

end Alone

/-- A part of a state, which can be replaced without touching the rest. -/
structure Component (σ τ : Type) where
  get : τ → σ
  set : σ → τ → τ
  get_set : ∀ part state, get (set part state) = part
  set_set : ∀ first second state, set second (set first state) = set second state
  set_get : ∀ state, set (get state) state = state

section Component

variable {τ ε' : Type}

/-- Play a coroutine on a part of the state. -/
def within (component : Component σ τ) (wrap : ε → ε') : Coroutine ε σ α → Coroutine ε' τ α
  | ret value => ret value
  | raise error => raise (wrap error)
  | atomic update next => atomic
      (fun state => (update (component.get state)).map fun after => component.set after state)
      fun state => (next (component.get state)).within component wrap

/-- What is played on a part does to it what it does alone. -/
theorem run_within (component : Component σ τ) (wrap : ε → ε') (body : Coroutine ε σ α) (state : τ) :
    (body.within component wrap).run state = (body.run (component.get state)).map fun outcome =>
      (outcome.1.mapError wrap, component.set outcome.2 state) := by
  induction body generalizing state with
  | ret value =>
    rw [within, run, run, Option.map_some, component.set_get]
    rfl
  | raise error =>
    rw [within, run, run, Option.map_some, component.set_get]
    rfl
  | atomic update next ih =>
    rw [within, run, run, Option.bind_map, Option.map_bind]
    congr 1
    funext after
    rw [Function.comp_apply, ih, component.get_set]
    simp only [component.set_set, Function.comp_def]

end Component

end Coroutine

end Machine

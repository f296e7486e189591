import Guardata.Machine.Coroutine

/-! # Coroutines that take turns and share a lock

A `Discipline` says what the actions of all coroutines on a shared state keep to: an invariant, what every
action may do (`grows`), and what an action may do without the lock while somebody else may hold it
(`spares`). `Follows` says of one coroutine that it keeps to it at every action, however the others, which
keep to it too, have moved the state since its last one: while it holds the lock they only spare it,
otherwise they do anything that `grows`. `Runs` is the triple of a pre- and a postcondition for a part of a
coroutine that begins and ends on the same side of the lock.
-/

namespace Machine

structure Discipline (σ : Type) where
  locked : σ → Bool
  inv : σ → Prop
  grows : σ → σ → Prop
  spares : σ → σ → Prop
  grows_refl : ∀ state, grows state state
  grows_trans : ∀ {first second third}, grows first second → grows second third → grows first third
  spares_refl : ∀ state, spares state state
  spares_trans : ∀ {first second third}, spares first second → spares second third → spares first third
  grows_of_spares : ∀ {state after}, spares state after → grows state after
  locked_of_spares : ∀ {state after}, spares state after → locked after = locked state

namespace Discipline

variable {σ : Type} (discipline : Discipline σ)

/-- What the others may have done since the last action. -/
def rely : Bool → σ → σ → Prop
  | true => discipline.spares
  | false => discipline.grows

theorem rely_refl (holds : Bool) (state : σ) : discipline.rely holds state state := by
  cases holds
  · exact discipline.grows_refl state
  · exact discipline.spares_refl state

theorem rely_trans {holds : Bool} {first second third : σ} (left : discipline.rely holds first second)
    (right : discipline.rely holds second third) : discipline.rely holds first third := by
  cases holds
  · exact discipline.grows_trans left right
  · exact discipline.spares_trans left right

/-- Without the lock, an action takes it while nobody has it, or spares those who may have it. -/
def Moves (holds : Bool) (state after : σ) : Prop :=
  holds = false → (discipline.locked state = false ∧ discipline.locked after = true) ∨
    discipline.spares state after

/-- Whether the lock is held after an action. -/
def holdsAfter (holds : Bool) (state after : σ) : Bool :=
  discipline.locked after && (holds || !discipline.locked state)

/-- An action that leaves the lock as it is. -/
def Stays (holds : Bool) (state after : σ) : Prop :=
  if holds then discipline.locked after = true else discipline.spares state after

/-- An assertion that the others do not make false. -/
def Stable (holds : Bool) (assertion : σ → Prop) : Prop :=
  ∀ state after, discipline.rely holds state after → assertion state → assertion after

theorem grows_of_rely {holds : Bool} {state after : σ} (moved : discipline.rely holds state after) :
    discipline.grows state after := by
  cases holds
  · exact moved
  · exact discipline.grows_of_spares moved

variable {discipline} {holds : Bool} {state after : σ}

theorem Stays.moves (stays : discipline.Stays holds state after) : discipline.Moves holds state after := by
  rintro rfl
  exact .inr stays

theorem Stays.holdsAfter (stays : discipline.Stays holds state after) :
    discipline.holdsAfter holds state after = holds := by
  cases holds with
  | true =>
    change discipline.locked after = true at stays
    simp [Discipline.holdsAfter, stays]
  | false =>
    rw [Discipline.holdsAfter, discipline.locked_of_spares stays]
    simp

theorem stays_self (locked : holds = true → discipline.locked state = true) :
    discipline.Stays holds state state := by
  cases holds with
  | true => exact locked rfl
  | false => exact discipline.spares_refl state

section Turn

variable {ι : Type} [DecidableEq ι]

/-- Who holds the lock after an action of `actor`. -/
def holderAfter (discipline : Discipline σ) (holder : Option ι) (actor : ι) (state after : σ) : Option ι :=
  if discipline.holdsAfter (decide (holder = some actor)) state after then some actor
  else if holder = some actor then none else holder

variable {holder : Option ι} {actor : ι}

theorem holderAfter_eq_actor_iff : discipline.holderAfter holder actor state after = some actor ↔
    discipline.holdsAfter (decide (holder = some actor)) state after = true := by
  unfold holderAfter
  split
  · next holds => exact ⟨fun _ => holds, fun _ => rfl⟩
  · next free =>
    refine ⟨fun is => ?_, fun holds => absurd holds free⟩
    split at is
    · cases is
    · next other => exact absurd is other

/-- Only one of them holds the lock, and the others see an action that respects who does. -/
theorem turn (locked : holder.isSome → discipline.locked state = true) (grows : discipline.grows state after)
    (moves : discipline.Moves (decide (holder = some actor)) state after) :
    ((discipline.holderAfter holder actor state after).isSome → discipline.locked after = true) ∧
      ∀ other ≠ actor, discipline.rely (decide (holder = some other)) state after ∧
        (discipline.holderAfter holder actor state after = some other ↔ holder = some other) := by
  by_cases own : holder = some actor
  · have elsewhere (other : ι) (different : other ≠ actor) : ¬ holder = some other := by
      rw [own]
      exact fun same => different (Option.some.inj same).symm
    refine ⟨fun held => ?_, fun other different => ⟨?_, ?_⟩⟩
    · unfold holderAfter at held
      rw [if_pos own] at held
      split at held
      · next holds => exact (Bool.and_eq_true_iff.mp holds).1
      · cases held
    · rw [decide_eq_false (elsewhere other different)]
      exact grows
    · refine ⟨fun is => ?_, fun is => absurd is (elsewhere other different)⟩
      unfold holderAfter at is
      rw [if_pos own] at is
      split at is
      · exact absurd (Option.some.inj is).symm different
      · cases is
  · rw [decide_eq_false own] at moves
    rcases moves rfl with ⟨free, taken⟩ | spares
    · have nobody : holder = none := by
        cases holder with
        | none => rfl
        | some other => exact absurd (locked rfl) (by rw [free]; exact Bool.false_ne_true)
      subst nobody
      refine ⟨fun _ => taken, fun other different => ⟨grows, fun is => ?_, fun is => by cases is⟩⟩
      unfold holderAfter at is
      split at is
      · exact absurd (Option.some.inj is).symm different
      · cases is
    · have same : discipline.holderAfter holder actor state after = holder := by
        unfold holderAfter
        rw [if_neg own, decide_eq_false own, holdsAfter, discipline.locked_of_spares spares]
        simp
      rw [same, discipline.locked_of_spares spares]
      refine ⟨locked, fun other different => ⟨?_, Iff.rfl⟩⟩
      by_cases theirs : holder = some other
      · rw [decide_eq_true theirs]
        exact spares
      · rw [decide_eq_false theirs]
        exact grows

end Turn

end Discipline

namespace Coroutine

variable {ε σ α β : Type} {discipline : Discipline σ} {assume : σ → Prop}
  {post : Bool → Except ε α → σ → Prop} {holds : Bool} {state : σ}

/-- The coroutine keeps to the discipline as long as `assume` holds, and ends with `post`, which is told
whether the lock is held then. -/
def Follows (discipline : Discipline σ) (assume : σ → Prop) (post : Bool → Except ε α → σ → Prop) :
    Bool → Coroutine ε σ α → σ → Prop
  | holds, ret value, state => post holds (.ok value) state
  | holds, raise error, state => post holds (.error error) state
  | holds, atomic update next, state =>
      ∀ now, discipline.rely holds state now → discipline.inv now → assume now →
        (holds = true → discipline.locked now = true) → ∀ after, update now = some after →
        discipline.inv after ∧ discipline.grows now after ∧ discipline.Moves holds now after ∧
          Follows discipline assume post (discipline.holdsAfter holds now after) (next now) after

/-- What an action leads to. -/
theorem Follows.advance {body rest : Coroutine ε σ α} {now after : σ}
    (follows : body.Follows discipline assume post holds state) (moved : discipline.rely holds state now)
    (inv : discipline.inv now) (assumed : assume now) (locked : holds = true → discipline.locked now = true)
    (step : body.advance now = some (rest, after)) :
    discipline.inv after ∧ discipline.grows now after ∧ discipline.Moves holds now after ∧
      rest.Follows discipline assume post (discipline.holdsAfter holds now after) after := by
  cases body with
  | ret value => cases step
  | raise error => cases step
  | atomic update next =>
    obtain ⟨_, updated, same⟩ := Option.map_eq_some_iff.mp step
    cases same
    exact follows now moved inv assumed locked after updated

/-- A coroutine that is not at its end does not notice what the others do meanwhile. -/
theorem Follows.rely {update : σ → Option σ} {next : σ → Coroutine ε σ α} {after : σ}
    (follows : (atomic update next).Follows discipline assume post holds state)
    (moved : discipline.rely holds state after) :
    (atomic update next).Follows discipline assume post holds after := by
  intro now later inv assumed locked last updated
  exact follows now (discipline.rely_trans moved later) inv assumed locked last updated

theorem Follows.mono {body : Coroutine ε σ α} {weaker : Bool → Except ε α → σ → Prop}
    (follows : body.Follows discipline assume post holds state)
    (weaken : ∀ holds result state, post holds result state → weaker holds result state) :
    body.Follows discipline assume weaker holds state := by
  induction body generalizing holds state with
  | ret value => exact weaken _ _ _ follows
  | raise error => exact weaken _ _ _ follows
  | atomic update next ih =>
    intro now moved inv assumed locked after updated
    obtain ⟨invAfter, grows, moves, rest⟩ := follows now moved inv assumed locked after updated
    exact ⟨invAfter, grows, moves, ih now rest⟩

/-- What no action makes false still holds at the end. -/
theorem Follows.frame {body : Coroutine ε σ α} {kept : σ → Prop} (lasting : discipline.Stable false kept)
    (follows : body.Follows discipline assume post holds state) (given : kept state) :
    body.Follows discipline assume (fun holds result state => post holds result state ∧ kept state)
      holds state := by
  induction body generalizing holds state with
  | ret value => exact ⟨follows, given⟩
  | raise error => exact ⟨follows, given⟩
  | atomic update next ih =>
    intro now moved inv assumed locked after updated
    obtain ⟨invAfter, grows, moves, rest⟩ := follows now moved inv assumed locked after updated
    have still : kept now := lasting state now (discipline.grows_of_rely moved) given
    exact ⟨invAfter, grows, moves, ih now rest (lasting now after grows still)⟩

theorem Follows.bind {first : Coroutine ε σ β} {rest : β → Coroutine ε σ α}
    (follows : first.Follows discipline assume (fun holds result state => match result with
      | .ok value => (rest value).Follows discipline assume post holds state
      | .error error => post holds (.error error) state) holds state) :
    (first >>= rest).Follows discipline assume post holds state := by
  induction first generalizing holds state with
  | ret value => exact follows
  | raise error => exact follows
  | atomic update next ih =>
    intro now moved inv assumed locked after updated
    obtain ⟨invAfter, grows, moves, later⟩ := follows now moved inv assumed locked after updated
    exact ⟨invAfter, grows, moves, ih now later⟩

theorem Follows.attempt {body : Coroutine ε σ β} {post : Bool → Except ε (Except ε β) → σ → Prop}
    (follows : body.Follows discipline assume (fun holds result state => post holds (.ok result) state)
      holds state) : body.attempt.Follows discipline assume post holds state := by
  induction body generalizing holds state with
  | ret value => exact follows
  | raise error => exact follows
  | atomic update next ih =>
    intro now moved inv assumed locked after updated
    obtain ⟨invAfter, grows, moves, later⟩ := follows now moved inv assumed locked after updated
    exact ⟨invAfter, grows, moves, ih now later⟩

theorem follows_ofExcept {result : Except ε α} (ends : post holds result state) :
    (ofExcept result : Coroutine ε σ α).Follows discipline assume post holds state := by
  cases result <;> exact ends

/-- A postcondition from what holds after a return and what holds after an exception. -/
def Ends (returns : α → σ → Prop) (raises : σ → Prop) : Except ε α → σ → Prop
  | .ok value, state => returns value state
  | .error _, state => raises state

/-- The triple of a part of a coroutine that ends on the side of the lock on which it begins. -/
def Runs (discipline : Discipline σ) (assume : σ → Prop) (holds : Bool) (pre : σ → Prop)
    (body : Coroutine ε σ α) (returns : α → σ → Prop) (raises : σ → Prop) : Prop :=
  ∀ state, pre state → body.Follows discipline assume
    (fun side result state => side = holds ∧ Ends returns raises result state) holds state

section Rules

variable {pre raises : σ → Prop} {returns : α → σ → Prop}

theorem Runs.mono {body : Coroutine ε σ α} {stronger weaker : σ → Prop} {weakened : α → σ → Prop}
    (runs : Runs discipline assume holds pre body returns raises)
    (strengthen : ∀ state, stronger state → pre state)
    (weaken : ∀ value state, returns value state → weakened value state)
    (weakenError : ∀ state, raises state → weaker state) :
    Runs discipline assume holds stronger body weakened weaker := by
  intro state given
  refine (runs state (strengthen state given)).mono fun side result state ends => ⟨ends.1, ?_⟩
  cases result with
  | ok value => exact weaken value state ends.2
  | error error => exact weakenError state ends.2

theorem Runs.frame {body : Coroutine ε σ α} {kept : σ → Prop}
    (runs : Runs discipline assume holds pre body returns raises) (lasting : discipline.Stable false kept) :
    Runs discipline assume holds (fun state => pre state ∧ kept state) body
      (fun value state => returns value state ∧ kept state) raises := by
  intro state given
  refine ((runs state given.1).frame lasting given.2).mono fun side result state ends => ⟨ends.1.1, ?_⟩
  cases result with
  | ok value => exact ⟨ends.1.2, ends.2⟩
  | error error => exact ends.1.2

theorem runs_pure {value : α} (ends : ∀ state, pre state → returns value state) :
    Runs discipline assume holds pre (pure value : Coroutine ε σ α) returns raises :=
  fun state given => ⟨rfl, ends state given⟩

theorem runs_raise {error : ε} (ends : ∀ state, pre state → raises state) :
    Runs discipline assume holds pre (raise error : Coroutine ε σ α) returns raises :=
  fun state given => ⟨rfl, ends state given⟩

theorem runs_ofExcept {result : Except ε α} (ends : ∀ state, pre state → Ends returns raises result state) :
    Runs discipline assume holds pre (ofExcept result : Coroutine ε σ α) returns raises :=
  fun state given => follows_ofExcept ⟨rfl, ends state given⟩

theorem Runs.bind {first : Coroutine ε σ β} {rest : β → Coroutine ε σ α} {middle : β → σ → Prop}
    (begins : Runs discipline assume holds pre first middle raises)
    (continues : ∀ value, Runs discipline assume holds (middle value) (rest value) returns raises) :
    Runs discipline assume holds pre (first >>= rest) returns raises := by
  intro state given
  refine Follows.bind ((begins state given).mono fun side result state ends => ?_)
  obtain ⟨rfl, ends⟩ := ends
  cases result with
  | ok value => exact continues value state ends
  | error error => exact ⟨rfl, ends⟩

theorem Runs.attempt {body : Coroutine ε σ β} {returns : β → σ → Prop} {failed : σ → Prop}
    (runs : Runs discipline assume holds pre body returns failed) :
    Runs discipline assume holds pre body.attempt (Ends returns failed) raises :=
  fun state given => Follows.attempt (runs state given)

/-- One action. -/
theorem runs_atomic {update : σ → Option σ} {next : σ → Coroutine ε σ α}
    (stable : discipline.Stable holds pre)
    (step : ∀ now, discipline.inv now → assume now → (holds = true → discipline.locked now = true) →
      pre now → ∀ later, update now = some later →
        discipline.inv later ∧ discipline.grows now later ∧ discipline.Stays holds now later ∧
          Runs discipline assume holds (· = later) (next now) returns raises) :
    Runs discipline assume holds pre (atomic update next) returns raises := by
  intro state given now moved inv assumed locked later updated
  obtain ⟨invLater, grows, stays, rest⟩ :=
    step now inv assumed locked (stable state now moved given) later updated
  refine ⟨invLater, grows, stays.moves, ?_⟩
  rw [stays.holdsAfter]
  exact rest later rfl

theorem runs_observeOr {view : σ → Except ε α} (stable : discipline.Stable holds pre)
    (ends : ∀ now, discipline.inv now → assume now → pre now → Ends returns raises (view now) now) :
    Runs discipline assume holds pre (observeOr view) returns raises := by
  refine runs_atomic stable fun now inv assumed locked given later updated => ?_
  cases updated
  refine ⟨inv, discipline.grows_refl now, Discipline.stays_self locked, runs_ofExcept ?_⟩
  rintro state rfl
  exact ends state inv assumed given

theorem runs_observe {view : σ → α} (stable : discipline.Stable holds pre)
    (ends : ∀ now, discipline.inv now → assume now → pre now → returns (view now) now) :
    Runs discipline assume holds pre (observe view : Coroutine ε σ α) returns raises := by
  refine runs_atomic stable fun now inv assumed locked given later updated => ?_
  cases updated
  refine ⟨inv, discipline.grows_refl now, Discipline.stays_self locked, runs_pure ?_⟩
  rintro state rfl
  exact ends state inv assumed given

/-- Looking alone keeps a stable assertion. -/
theorem runs_look (stable : discipline.Stable holds pre) (view : σ → α) :
    Runs discipline assume holds pre (observe view : Coroutine ε σ α) (fun _ => pre) raises :=
  runs_observe stable fun _ _ _ given => given

theorem runs_update {change : σ → σ} {after : Unit → σ → Prop} (stable : discipline.Stable holds pre)
    (step : ∀ now, discipline.inv now → assume now → (holds = true → discipline.locked now = true) →
      pre now → discipline.inv (change now) ∧ discipline.grows now (change now) ∧
        discipline.Stays holds now (change now) ∧ after () (change now)) :
    Runs discipline assume holds pre (update change : Coroutine ε σ Unit) after raises := by
  refine runs_atomic stable fun now inv assumed locked given later updated => ?_
  cases updated
  obtain ⟨invLater, grows, stays, ends⟩ := step now inv assumed locked given
  refine ⟨invLater, grows, stays, runs_pure ?_⟩
  rintro _ rfl
  exact ends

/-- A loop that keeps an assertion about what it has computed and what is left. -/
theorem runs_foldlM {body : β → α → Coroutine ε σ β} {loop : β → List α → σ → Prop}
    (round : ∀ value entry rest, Runs discipline assume holds (loop value (entry :: rest)) (body value entry)
      (fun next => loop next rest) raises) (entries : List α) (start : β) :
    Runs discipline assume holds (loop start entries) (entries.foldlM body start)
      (fun value => loop value []) raises := by
  induction entries generalizing start with
  | nil => exact runs_pure fun _ given => given
  | cons entry rest ih =>
    rw [List.foldlM_cons]
    exact (round start entry rest).bind ih

theorem runs_forM {body : α → Coroutine ε σ Unit} {loop : List α → σ → Prop}
    (round : ∀ entry rest, Runs discipline assume holds (loop (entry :: rest)) (body entry)
      (fun _ => loop rest) raises) (entries : List α) :
    Runs discipline assume holds (loop entries) (entries.forM body) (fun _ => loop []) raises := by
  induction entries with
  | nil => exact runs_pure fun _ given => given
  | cons entry rest ih =>
    change Runs discipline assume holds _ (body entry >>= fun _ => rest.forM body) _ _
    exact (round entry rest).bind fun _ => ih

/-- A loop each of whose rounds keeps the assertion. -/
theorem runs_forM_of_keeps {body : α → Coroutine ε σ Unit}
    (round : ∀ entry, Runs discipline assume holds pre (body entry) (fun _ => pre) raises)
    (entries : List α) : Runs discipline assume holds pre (entries.forM body) (fun _ => pre) raises := by
  induction entries with
  | nil => exact runs_pure fun _ given => given
  | cons entry rest ih => exact (round entry).bind fun _ => ih

end Rules

end Coroutine

end Machine

import Guardata.Machine.Run
import Guardata.Model.EventBus
import Guardata.ToMathlib.LiveList

/-! # The event bus and its subscribers

Whoever is connected when a send starts is called once, or disconnected first, or still ahead of the send. Only one
thing breaks this: a connection that is removed from a place where the send has been moves the others back, and the
handler that would have been next is never called.
-/

namespace Guardata

open Machine

variable {κ Handler : Type}

namespace EventSend

variable (current : EventSend κ Handler) (bus : EventBus κ Handler)

/-- The connections that the send has not come to. -/
def ahead : List (HandlerConnection Handler) := (bus.eventHandlers current.event).drop current.index

/-- Nobody is called twice, and nobody is ahead who has been called. -/
structure Tidy : Prop where
  known : ∀ connection, connection ∈ current.connected ∨ connection ∈ current.called → connection.id < bus.nextId
  nodup : current.called.Nodup
  apart : ∀ connection ∈ current.called, connection ∉ current.ahead bus

/-- Whoever was connected at the start has been called, or has been disconnected, or is ahead. -/
def Delivers : Prop :=
  ∀ connection ∈ current.connected, connection ∈ bus.eventHandlers current.event →
    connection ∈ current.called ∨ connection ∈ current.ahead bus

end EventSend

namespace EventBus

variable {bus next : EventBus κ Handler} {event : BusEvent κ} {handler : Handler}

/-- Connections are told apart by their numbers. -/
structure Tidy (bus : EventBus κ Handler) : Prop where
  known : ∀ event, ∀ connection ∈ bus.eventHandlers event, connection.id < bus.nextId
  nodup : ∀ event, (bus.eventHandlers event).Nodup
  sends : ∀ current ∈ bus.sends, current.Tidy bus

/-- Every send that is under way still comes to whom it owes a call. -/
def Delivers (bus : EventBus κ Handler) : Prop := ∀ current ∈ bus.sends, current.Delivers bus

section Send

theorem Tidy.send (tidy : bus.Tidy) (event : BusEvent κ) : (bus.send event).Tidy := by
  refine ⟨tidy.known, tidy.nodup, ?_⟩
  intro current member
  rcases List.mem_cons.mp member with rfl | outer
  · refine ⟨?_, List.nodup_nil, nofun⟩
    rintro connection (start | none)
    · exact tidy.known event connection start
    · exact nomatch none
  · exact ⟨(tidy.sends current outer).known, (tidy.sends current outer).nodup, (tidy.sends current outer).apart⟩

theorem Delivers.send (delivers : bus.Delivers) (event : BusEvent κ) : (bus.send event).Delivers := by
  intro current member
  rcases List.mem_cons.mp member with rfl | outer
  · exact fun connection start _ => .inr start
  · exact delivers current outer

theorem delivers_send_iff : (bus.send event).Delivers ↔ bus.Delivers :=
  ⟨fun delivers current member => delivers current (List.mem_cons_of_mem _ member), fun delivers => delivers.send event⟩

end Send

section Change

variable [DecidableEq κ]

/-- The lists of handlers with another one in the place of one of them. -/
theorem update_eq (list : List (HandlerConnection Handler)) (other : BusEvent κ) :
    Function.update bus.eventHandlers event list other = if other = event then list else bus.eventHandlers other := by
  by_cases same : other = event
  · rw [same, Function.update_self, if_pos rfl]
  · rw [Function.update_of_ne same, if_neg same]

theorem Tidy.connect (tidy : bus.Tidy) (event : BusEvent κ) (handler : Handler) : (bus.connect event handler).Tidy := by
  refine Tidy.send ⟨?_, ?_, ?_⟩ .connected
  · intro other connection member
    simp only [update_eq] at member
    split at member
    · rcases List.mem_append.mp member with before | new
      · exact Nat.lt_succ_of_lt (tidy.known event connection before)
      · rw [List.mem_singleton.mp new]
        exact Nat.lt_succ_self _
    · exact Nat.lt_succ_of_lt (tidy.known other connection member)
  · intro other
    simp only [update_eq]
    split
    · refine List.nodup_append.mpr ⟨tidy.nodup event, List.nodup_singleton _, ?_⟩
      rintro connection before _ new rfl
      have := tidy.known event connection before
      rw [List.mem_singleton.mp new] at this
      exact absurd this (Nat.lt_irrefl _)
    · exact tidy.nodup other
  · intro current member
    have old := tidy.sends current member
    refine ⟨fun connection owned => Nat.lt_succ_of_lt (old.known connection owned), old.nodup, ?_⟩
    intro connection called ahead
    simp only [EventSend.ahead, update_eq] at ahead
    split at ahead
    · next same =>
      rcases List.of_mem_drop_concat ahead with before | new
      · exact old.apart connection called (by rwa [EventSend.ahead, same])
      · have := old.known connection (.inr called)
        rw [new] at this
        exact absurd this (Nat.lt_irrefl _)
    · exact old.apart connection called ahead

/-- Who connects comes ahead of a send or is no concern of it. -/
theorem Delivers.connect (tidy : bus.Tidy) (delivers : bus.Delivers) (event : BusEvent κ) (handler : Handler) :
    (bus.connect event handler).Delivers := by
  refine Delivers.send ?_ .connected
  intro current member connection start still
  simp only [EventSend.ahead, update_eq] at still ⊢
  split at still
  · next same =>
    rw [if_pos same]
    have before : connection ∈ bus.eventHandlers current.event := by
      rcases List.mem_append.mp still with before | new
      · exact same ▸ before
      · have := (tidy.sends current member).known connection (.inl start)
        rw [List.mem_singleton.mp new] at this
        exact absurd this (Nat.lt_irrefl _)
    refine (delivers current member connection start before).imp_right fun ahead => List.mem_drop_concat ?_
    rwa [EventSend.ahead, same] at ahead
  · next other =>
    rw [if_neg other]
    exact delivers current member connection start still

end Change

section Disconnect

variable [DecidableEq κ] [DecidableEq Handler]

/-- No send that has been at the place of a connection that is removed is about to call one of those who were
connected when it started. -/
def KeepsNext (bus : EventBus κ Handler) : BusStep κ Handler → Prop
  | .disconnect event handler =>
      ∀ current ∈ bus.sends, current.event = event → current.index ≤ bus.position event handler ∨
        ∀ connection ∈ current.connected, (bus.eventHandlers event)[current.index]? ≠ some connection
  | _ => True

instance (bus : EventBus κ Handler) (label : BusStep κ Handler) : Decidable (bus.KeepsNext label) :=
  match label with
  | .disconnect event handler => inferInstanceAs (Decidable (∀ current ∈ bus.sends, current.event = event →
      current.index ≤ bus.position event handler ∨
        ∀ connection ∈ current.connected, (bus.eventHandlers event)[current.index]? ≠ some connection))
  | .send _ | .connect _ _ | .advance | .finish => isTrue trivial

theorem Tidy.disconnect (tidy : bus.Tidy) (event : BusEvent κ) (handler : Handler) :
    (bus.disconnect event handler).Tidy := by
  rw [EventBus.disconnect]
  split
  · refine Tidy.send ⟨?_, ?_, ?_⟩ .disconnected
    · intro other connection member
      simp only [update_eq] at member
      split at member
      · exact tidy.known event connection (List.mem_of_mem_eraseIdx member)
      · exact tidy.known other connection member
    · intro other
      simp only [update_eq]
      split
      · exact (tidy.nodup event).eraseIdx _
      · exact tidy.nodup other
    · intro current member
      have old := tidy.sends current member
      refine ⟨old.known, old.nodup, fun connection called ahead => old.apart connection called ?_⟩
      simp only [EventSend.ahead, update_eq] at ahead
      split at ahead
      · next same =>
        rw [EventSend.ahead, same]
        exact List.mem_drop_of_mem_drop_eraseIdx ahead
      · exact ahead
  · exact tidy

/-- A connection that is removed leaves nobody out if and only if no send is about to call somebody right behind
it. -/
theorem delivers_disconnect_iff (tidy : bus.Tidy) (delivers : bus.Delivers) (event : BusEvent κ) (handler : Handler) :
    (bus.disconnect event handler).Delivers ↔ bus.KeepsNext (.disconnect event handler) := by
  rw [EventBus.disconnect]
  split
  · next found =>
    rw [delivers_send_iff]
    constructor
    · intro still current member same
      rw [or_iff_not_imp_left]
      intro early connection start here
      have ahead : connection ∈ (bus.eventHandlers event).drop current.index :=
        List.mem_drop_iff_getElem?.mpr ⟨current.index, Nat.le_refl _, here⟩
      have stays : connection ∈ (bus.eventHandlers event).eraseIdx (bus.position event handler) :=
        List.mem_eraseIdx_iff_getElem?.mpr ⟨current.index, by omega, here⟩
      have owed := still current member connection start
      simp only [EventSend.ahead, update_eq, if_pos same] at owed
      rcases owed stays with called | later
      · refine (tidy.sends current member).apart connection called ?_
        rwa [EventSend.ahead, same]
      · exact ((List.mem_drop_eraseIdx_iff (tidy.nodup event) stays ahead).mp later).elim early fun other => other here
    · intro keeps current member connection start still
      simp only [EventSend.ahead, update_eq] at still ⊢
      split at still
      · next same =>
        rw [if_pos same]
        have owed := delivers current member connection start
        rw [EventSend.ahead, same] at owed
        refine (owed (List.mem_of_mem_eraseIdx still)).imp_right fun ahead => ?_
        exact (List.mem_drop_eraseIdx_iff (tidy.nodup event) still ahead).mpr
          ((keeps current member same).imp_right fun none => none connection start)
      · next other =>
        rw [if_neg other]
        exact delivers current member connection start still
  · next absent =>
    refine iff_of_true delivers fun current member same => ?_
    by_cases early : current.index ≤ bus.position event handler
    · exact .inl early
    · refine .inr fun connection _ => ?_
      rw [List.getElem?_eq_none (by omega)]
      exact nofun

end Disconnect

section Loop

/-- What the loop of the innermost send does next. -/
theorem advance?_eq_some_iff : bus.advance? = some next ↔ ∃ current outer, bus.sends = current :: outer ∧
    current.calling = false ∧
    ((∃ connection, (bus.eventHandlers current.event)[current.index]? = some connection ∧
        next = { bus with
          sends := { current with
            index := current.index + 1
            calling := true
            called := current.called ++ [connection] } :: outer }) ∨
      ((bus.eventHandlers current.event)[current.index]? = none ∧ next = { bus with sends := outer })) := by
  unfold advance?
  cases sends : bus.sends with
  | nil => simp
  | cons current outer =>
    simp only [List.cons.injEq]
    cases calling : current.calling with
    | true =>
      refine iff_of_false (by simp) ?_
      rintro ⟨_, _, ⟨rfl, rfl⟩, other, -⟩
      simp [calling] at other
    | false =>
      cases here : (bus.eventHandlers current.event)[current.index]? with
      | some connection =>
        constructor
        · intro same
          exact ⟨current, outer, ⟨rfl, rfl⟩, calling, .inl ⟨connection, here, (Option.some.inj same).symm⟩⟩
        · rintro ⟨_, _, ⟨rfl, rfl⟩, -, ⟨other, found, rfl⟩ | ⟨none, -⟩⟩
          · cases here.symm.trans found
            rfl
          · exact nomatch here.symm.trans none
      | none =>
        constructor
        · intro same
          exact ⟨current, outer, ⟨rfl, rfl⟩, calling, .inr ⟨here, (Option.some.inj same).symm⟩⟩
        · rintro ⟨_, _, ⟨rfl, rfl⟩, -, ⟨other, found, -⟩ | ⟨-, rfl⟩⟩
          · exact nomatch here.symm.trans found
          · rfl

theorem finish?_eq_some_iff : bus.finish? = some next ↔ ∃ current outer, bus.sends = current :: outer ∧
    current.calling = true ∧ next = { bus with sends := { current with calling := false } :: outer } := by
  unfold finish?
  cases sends : bus.sends with
  | nil => simp
  | cons current outer =>
    simp only [List.cons.injEq]
    constructor
    · intro same
      split at same
      · next calling => exact ⟨current, outer, ⟨rfl, rfl⟩, calling, (Option.some.inj same).symm⟩
      · exact nomatch same
    · rintro ⟨_, _, ⟨rfl, rfl⟩, calling, rfl⟩
      rw [if_pos calling]

/-- The loop takes the next connection from what is ahead. -/
theorem ahead_eq_cons {current : EventSend κ Handler} {connection : HandlerConnection Handler}
    (here : (bus.eventHandlers current.event)[current.index]? = some connection) :
    current.ahead bus = connection :: (bus.eventHandlers current.event).drop (current.index + 1) := by
  obtain ⟨inside, is⟩ := List.getElem?_eq_some_iff.mp here
  rw [EventSend.ahead, List.drop_eq_getElem_cons inside, is]

theorem Tidy.advance (tidy : bus.Tidy) (advanced : bus.advance? = some next) : next.Tidy := by
  obtain ⟨current, outer, sends, -, ⟨connection, here, rfl⟩ | ⟨-, rfl⟩⟩ := advance?_eq_some_iff.mp advanced
  · have old := tidy.sends current (sends ▸ List.mem_cons_self ..)
    have taken := ahead_eq_cons here
    have distinct : (current.ahead bus).Nodup := (List.drop_sublist _ _).nodup (tidy.nodup current.event)
    rw [taken, List.nodup_cons] at distinct
    refine ⟨tidy.known, tidy.nodup, fun other member => ?_⟩
    rcases List.mem_cons.mp member with rfl | rest
    · refine ⟨?_, ?_, ?_⟩
      · rintro other (start | called)
        · exact old.known other (.inl start)
        · rcases List.mem_append.mp called with before | now
          · exact old.known other (.inr before)
          · rw [List.mem_singleton.mp now]
            exact tidy.known current.event connection (List.mem_of_getElem? here)
      · refine List.nodup_append.mpr ⟨old.nodup, List.nodup_singleton _, ?_⟩
        rintro other before _ now rfl
        refine old.apart other before ?_
        rw [taken, List.mem_singleton.mp now]
        exact List.mem_cons_self ..
      · intro other called later
        rcases List.mem_append.mp called with before | now
        · refine old.apart other before ?_
          rw [taken]
          exact List.mem_cons_of_mem _ later
        · exact distinct.1 (List.mem_singleton.mp now ▸ later)
    · have same := tidy.sends other (sends ▸ List.mem_cons_of_mem _ rest)
      exact ⟨same.known, same.nodup, same.apart⟩
  · refine ⟨tidy.known, tidy.nodup, fun other member => ?_⟩
    have same := tidy.sends other (sends ▸ List.mem_cons_of_mem _ member)
    exact ⟨same.known, same.nodup, same.apart⟩

theorem Delivers.advance (delivers : bus.Delivers) (advanced : bus.advance? = some next) : next.Delivers := by
  obtain ⟨current, outer, sends, -, ⟨connection, here, rfl⟩ | ⟨-, rfl⟩⟩ := advance?_eq_some_iff.mp advanced
  · intro other member
    rcases List.mem_cons.mp member with rfl | rest
    · intro owed start still
      rcases delivers current (sends ▸ List.mem_cons_self ..) owed start still with called | ahead
      · exact .inl (List.mem_append_left _ called)
      · rw [ahead_eq_cons here] at ahead
        rcases List.mem_cons.mp ahead with rfl | later
        · exact .inl (List.mem_append_right _ (List.mem_singleton_self _))
        · exact .inr later
    · exact delivers other (sends ▸ List.mem_cons_of_mem _ rest)
  · exact fun other member => delivers other (sends ▸ List.mem_cons_of_mem _ member)

theorem Tidy.finish (tidy : bus.Tidy) (finished : bus.finish? = some next) : next.Tidy := by
  obtain ⟨current, outer, sends, -, rfl⟩ := finish?_eq_some_iff.mp finished
  refine ⟨tidy.known, tidy.nodup, fun other member => ?_⟩
  rcases List.mem_cons.mp member with rfl | rest
  · have old := tidy.sends current (sends ▸ List.mem_cons_self ..)
    exact ⟨old.known, old.nodup, old.apart⟩
  · have same := tidy.sends other (sends ▸ List.mem_cons_of_mem _ rest)
    exact ⟨same.known, same.nodup, same.apart⟩

theorem Delivers.finish (delivers : bus.Delivers) (finished : bus.finish? = some next) : next.Delivers := by
  obtain ⟨current, outer, sends, -, rfl⟩ := finish?_eq_some_iff.mp finished
  intro other member
  rcases List.mem_cons.mp member with rfl | rest
  · exact delivers current (sends ▸ List.mem_cons_self ..)
  · exact delivers other (sends ▸ List.mem_cons_of_mem _ rest)

end Loop

section Step

variable [DecidableEq κ] [DecidableEq Handler] {label : BusStep κ Handler}

/-- Every step keeps the connections apart. -/
theorem Tidy.step (tidy : bus.Tidy) (stepped : bus.step? label = some next) : next.Tidy := by
  cases label with
  | send event =>
    obtain ⟨-, ⟨⟩⟩ := Option.ite_none_right_eq_some.mp stepped
    exact tidy.send event
  | connect event handler =>
    obtain ⟨-, ⟨⟩⟩ := Option.ite_none_right_eq_some.mp stepped
    exact tidy.connect event handler
  | disconnect event handler =>
    obtain ⟨-, ⟨⟩⟩ := Option.ite_none_right_eq_some.mp stepped
    exact tidy.disconnect event handler
  | advance => exact tidy.advance stepped
  | finish => exact tidy.finish stepped

/-- Only a connection that is removed can leave somebody out. -/
theorem delivers_step_iff (tidy : bus.Tidy) (delivers : bus.Delivers) (stepped : bus.step? label = some next) :
    next.Delivers ↔ bus.KeepsNext label := by
  cases label with
  | send event =>
    obtain ⟨-, ⟨⟩⟩ := Option.ite_none_right_eq_some.mp stepped
    exact iff_of_true (delivers.send event) trivial
  | connect event handler =>
    obtain ⟨-, ⟨⟩⟩ := Option.ite_none_right_eq_some.mp stepped
    exact iff_of_true (delivers.connect tidy event handler) trivial
  | disconnect event handler =>
    obtain ⟨-, ⟨⟩⟩ := Option.ite_none_right_eq_some.mp stepped
    exact delivers_disconnect_iff tidy delivers event handler
  | advance => exact iff_of_true (delivers.advance stepped) trivial
  | finish => exact iff_of_true (delivers.finish stepped) trivial

/-- A send that ends has called everybody once who is connected still. -/
theorem count_called_of_ends (tidy : bus.Tidy) (delivers : bus.Delivers) {current : EventSend κ Handler}
    (ended : bus.step? .advance = some next) (sends : bus.sends = current :: next.sends)
    {connection : HandlerConnection Handler} (start : connection ∈ current.connected) :
    current.called.count connection = 1 ∨
      connection ∉ bus.eventHandlers current.event ∧ connection ∉ current.called := by
  have member : current ∈ bus.sends := sends ▸ List.mem_cons_self ..
  by_cases called : connection ∈ current.called
  · exact .inl (List.count_eq_one_of_mem (tidy.sends current member).nodup called)
  · refine .inr ⟨fun still => ?_, called⟩
    obtain ⟨_, outer, same, -, ⟨other, -, rfl⟩ | ⟨none, -⟩⟩ := advance?_eq_some_iff.mp ended
    · have sizes := congrArg List.length (sends.symm.trans same)
      simp at sizes
    · obtain ⟨rfl, -⟩ := List.cons.inj (sends.symm.trans same)
      have ahead := (delivers current member connection start still).resolve_left called
      rw [EventSend.ahead, List.drop_eq_nil_iff.mpr (List.getElem?_eq_none_iff.mp none)] at ahead
      exact nomatch ahead

end Step

end EventBus

open EventBus

section Example

/-- Two handlers are connected to an event, and the first one disconnects itself when it is called. -/
private def selfDisconnect : List (BusStep ℕ ℕ) :=
  [.connect (.of 5) 1, .advance, .connect (.of 5) 2, .advance, .send (.of 5), .advance, .disconnect (.of 5) 1, .advance,
    .finish]

/-- The first handler connects a third one, which disconnects the first when it is called last. -/
private def lateDisconnects : List (BusStep ℕ ℕ) :=
  [.connect (.of 5) 1, .advance, .connect (.of 5) 2, .advance, .send (.of 5), .advance, .connect (.of 5) 3, .advance,
    .finish, .advance, .finish, .advance, .disconnect (.of 5) 1, .advance, .finish]

end Example

end Guardata

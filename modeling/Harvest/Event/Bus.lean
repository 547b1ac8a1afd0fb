import Harvest.Event.Basic

/-! A bus hands every event to every subscriber. It keeps the latest events only; a subscriber
that falls behind learns how many it lost and goes on with the oldest event that is left.
-/

namespace Harvest

/-- The smallest power of two that is not below a positive number. -/
def powerOfTwoFrom (n : Nat) : Nat :=
  if n ≤ 1 then 1 else Nat.pow 2 ((n - 1).log2 + 1)

/-- A bus: how many events it keeps, all that were sent, and how far each subscriber has
come.
-/
structure Bus where
  kept : Nat
  sent : Array Event
  cursors : Array Nat
deriving Inhabited

/-- What a subscriber receives. -/
inductive Received where
  | event (event : Event)
  /-- Nothing is waiting. -/
  | empty
  /-- This many events were lost. -/
  | lagged (lost : Nat)

namespace Bus

/-- A bus with room for at least `capacity` events; a bus without room cannot be. -/
def ofCapacity? (capacity : Nat) : Option Bus :=
  if capacity == 0 then none else some ⟨powerOfTwoFrom capacity, #[], #[]⟩

/-- The room of a bus when none is asked for. -/
def usualCapacity : Nat := 1000

/-- A bus with the usual room. -/
def usual : Bus := ⟨powerOfTwoFrom usualCapacity, #[], #[]⟩

/-- One more subscriber, who receives what is sent from now on, and its number. -/
def subscribe (bus : Bus) : Nat × Bus :=
  (bus.cursors.size, { bus with cursors := bus.cursors.push bus.sent.size })

/-- Sends an event. An event that nobody is there to receive is gone. -/
def emit (bus : Bus) (event : Event) : Bus :=
  if bus.cursors.isEmpty then bus else { bus with sent := bus.sent.push event }

/-- What a subscriber receives next, if there is such a subscriber. -/
def receive? (bus : Bus) (subscriber : Nat) : Option (Received × Bus) := do
  let cursor ← bus.cursors[subscriber]?
  let oldest := bus.sent.size - bus.kept
  if cursor < oldest then
    return (.lagged (oldest - cursor),
      { bus with cursors := bus.cursors.setIfInBounds subscriber oldest })
  match bus.sent[cursor]? with
  | none => return (.empty, bus)
  | some event =>
      return (.event event,
        { bus with cursors := bus.cursors.setIfInBounds subscriber (cursor + 1) })

/-- All events that wait for a subscriber, in at most `fuel` steps. -/
def drainWith (bus : Bus) (subscriber : Nat) : (fuel : Nat) → List Event × Bus
  | 0 => ([], bus)
  | fuel + 1 =>
      match bus.receive? subscriber with
      | some (.event event, bus) =>
          let (events, bus) := drainWith bus subscriber fuel
          (event :: events, bus)
      | some (.lagged _, bus) => drainWith bus subscriber fuel
      | _ => ([], bus)

/-- All events that wait for a subscriber. -/
def drain (bus : Bus) (subscriber : Nat) : List Event × Bus :=
  bus.drainWith subscriber (bus.sent.size + 2)

end Bus

end Harvest

/-!
# The event bus

Everything that is published reaches every subscriber, in order, as long as the subscriber does not
fall behind by more than the bus holds; of what was dropped it learns the number. A bus holds a
power of two of events.
-/
namespace Parley

/-- A bus with everything that was published on it, the last event first. -/
structure Bus (α : Type) where
  /-- How many events the bus holds for its subscribers. -/
  capacity : Nat
  published : List α

namespace Bus
variable {α : Type}

/-- A bus for at least `room` events on which nothing has been published. -/
def withRoom (room : Nat) : Bus α where
  capacity := room.nextPowerOfTwo
  published := []

def publish (bus : Bus α) (event : α) : Bus α :=
  { bus with published := event :: bus.published }

/-- The place of a subscriber: how many events it has received or missed. -/
abbrev Place := Nat

def subscribe (bus : Bus α) : Place := bus.published.length

/-- The place of the oldest event that the bus holds. -/
def oldest (bus : Bus α) : Place := bus.published.length - bus.capacity

def missed (bus : Bus α) (place : Place) : Nat := bus.oldest - place

/-- The events that a subscriber can still receive, in the order of their publication. -/
def unread (bus : Bus α) (place : Place) : List α :=
  (bus.published.take (bus.published.length - max place bus.oldest)).reverse

theorem unread_subscribe (bus : Bus α) : bus.unread bus.subscribe = [] := by
  have : bus.published.length - max bus.published.length bus.oldest = 0 := by
    simp only [oldest]
    omega
  simp [unread, subscribe, this]

/-- A subscriber that keeps up receives each event when it is published. -/
theorem unread_publish (bus : Bus α) (event : α) (h : 0 < bus.capacity) :
    (bus.publish event).unread bus.subscribe = [event] := by
  have : bus.published.length + 1
      - max bus.published.length (bus.published.length + 1 - bus.capacity) = 1 := by omega
  simp [unread, publish, subscribe, oldest, this]

end Bus

end Parley

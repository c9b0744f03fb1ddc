import ReplicaController.Instant.Calendar

/-!
# Instants

An instant of Coordinated Universal Time: a day, a second of the day and a nanosecond. Nanoseconds
from one thousand million on belong to a leap second, which follows the last second of a minute.
Instants are ordered by day, second and nanosecond; seconds that are added leave a leap second, and
the sum is an instant only up to the end of the last day.
-/

namespace ReplicaController

structure Instant where
  day : Int
  second : Nat
  nano : Nat
  firstDay_le : Date.firstDay ≤ day
  le_lastDay : day ≤ Date.lastDay
  second_lt : second < 86400
  nano_lt : nano < 2000000000
  leap : 1000000000 ≤ nano → second % 60 = 59
  deriving DecidableEq

namespace Instant

def ofParts? (day : Int) (second nano : Nat) : Option Instant :=
  if h : (Date.firstDay ≤ day ∧ day ≤ Date.lastDay) ∧ second < 86400 ∧ nano < 2000000000 ∧
      (1000000000 ≤ nano → second % 60 = 59) then
    some ⟨day, second, nano, h.1.1, h.1.2, h.2.1, h.2.2.1, h.2.2.2⟩
  else none

theorem ofParts?_eq_some_iff {day : Int} {second nano : Nat} {t : Instant} :
    ofParts? day second nano = some t ↔ t.day = day ∧ t.second = second ∧ t.nano = nano := by
  unfold ofParts?
  constructor
  · intro h
    split at h
    · simp only [Option.some.injEq] at h
      subst h
      exact ⟨rfl, rfl, rfl⟩
    · simp at h
  · rintro ⟨rfl, rfl, rfl⟩
    rw [dif_pos ⟨⟨t.firstDay_le, t.le_lastDay⟩, t.second_lt, t.nano_lt, t.leap⟩]

/-- The instant that many nanoseconds after the start of 1970, within the calendar. -/
def ofEpochNanos? (n : Int) : Option Instant :=
  let s := n / 1000000000
  ofParts? (s / 86400) (s % 86400).toNat (n % 1000000000).toNat

/-- The start of 1970. -/
def epoch : Instant := ⟨0, 0, 0, by decide, by decide, by decide, by decide, by decide⟩

instance : Ord Instant where
  compare a b :=
    (compare a.day b.day).then ((compare a.second b.second).then (compare a.nano b.nano))

def before (a b : Instant) : Bool := compare a b == .lt

def notAfter (a b : Instant) : Bool := compare a b != .gt

/-- Seconds since the epoch, a leap second counted with the second before it. -/
def epochSeconds (t : Instant) : Int := t.day * 86400 + t.second

/-- The instant that many seconds later, unless it is past the last day. -/
def addSeconds? (t : Instant) (n : Nat) : Option Instant :=
  if n = 0 then some t
  else
    let s := t.epochSeconds + n
    ofParts? (s / 86400) (s % 86400).toNat (t.nano % 1000000000)

end Instant

end ReplicaController

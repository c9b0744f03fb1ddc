/-!
# The shutdown channel

A channel holds the last value that was sent and counts the sends. A waiter remembers the version
that it has seen last. It looks at the value, which is seen by that, and returns if it is true;
otherwise it waits for a version that it has not seen, and looks again. It hears of such a version
before it hears that the sender is gone; once it hears the latter, it sleeps for good.
-/

namespace ReplicaController.Shutdown

structure Channel where
  value : Bool
  version : Nat
  closed : Bool
  deriving DecidableEq, Repr

/-- What there is to hear for somebody who has seen a version. -/
inductive News
  | unseen
  | senderGone
  | nothing
  deriving DecidableEq, Repr

namespace Channel

def new (value : Bool) : Channel := ⟨value, 0, false⟩

/-- A sender that is gone sends nothing. -/
def send (c : Channel) (value : Bool) : Channel :=
  if c.closed then c else { c with value, version := c.version + 1 }

def drop (c : Channel) : Channel := { c with closed := true }

/-- Nobody ever signals on this channel. -/
def never : Channel := (new false).drop

def news (c : Channel) (seen : Nat) : News :=
  if seen ≠ c.version then .unseen
  else if c.closed then .senderGone
  else .nothing

end Channel

/-- Where a waiter stands in its loop. -/
inductive Place
  | looking
  | waiting
  | forever
  deriving DecidableEq, Repr

structure Waiter where
  seen : Nat
  place : Place
  deriving DecidableEq, Repr

/-- What one step of the loop comes to. -/
inductive Step
  | returns
  | goesOn (w : Waiter)
  | sleeps
  deriving DecidableEq, Repr

namespace Waiter

/-- A waiter at the beginning of its loop, whatever its receiver has seen before. -/
def start (seen : Nat) : Waiter := ⟨seen, .looking⟩

def step (w : Waiter) (c : Channel) : Step :=
  match w.place with
  | .looking => if c.value then .returns else .goesOn ⟨c.version, .waiting⟩
  | .waiting =>
    match c.news w.seen with
    | .unseen => .goesOn ⟨c.version, .looking⟩
    | .senderGone => .goesOn { w with place := .forever }
    | .nothing => .sleeps
  | .forever => .sleeps

/-- What a step can come to, case by case. -/
inductive Moves (c : Channel) : Waiter → Step → Prop
  | returns (seen : Nat) : c.value = true → Moves c ⟨seen, .looking⟩ .returns
  | looks (seen : Nat) : c.value = false →
      Moves c ⟨seen, .looking⟩ (.goesOn ⟨c.version, .waiting⟩)
  | hears {seen : Nat} : seen ≠ c.version →
      Moves c ⟨seen, .waiting⟩ (.goesOn ⟨c.version, .looking⟩)
  | resigns : c.closed = true →
      Moves c ⟨c.version, .waiting⟩ (.goesOn ⟨c.version, .forever⟩)
  | sleeps : c.closed = false → Moves c ⟨c.version, .waiting⟩ .sleeps
  | sleepsOn (seen : Nat) : Moves c ⟨seen, .forever⟩ .sleeps

theorem moves (c : Channel) (w : Waiter) : Moves c w (w.step c) := by
  obtain ⟨seen, place⟩ := w
  cases place with
  | looking =>
    unfold step
    cases hvalue : c.value with
    | true => exact .returns seen hvalue
    | false => exact .looks seen hvalue
  | waiting =>
    unfold step Channel.news
    by_cases hseen : seen = c.version
    · subst hseen
      cases hclosed : c.closed with
      | true => simpa using Moves.resigns hclosed
      | false => simpa using Moves.sleeps hclosed
    · simpa [hseen] using Moves.hears hseen
  | forever => exact .sleepsOn seen

/-- The most steps that a waiter can take before it sleeps. -/
def stepsLeft (w : Waiter) (c : Channel) : Nat :=
  match w.place with
  | .looking => 2
  | .waiting => if w.seen = c.version then 1 else 3
  | .forever => 0

theorem stepsLeft_lt {w next : Waiter} {c : Channel} (h : w.step c = .goesOn next) :
    next.stepsLeft c < w.stepsLeft c := by
  have hmoves := moves c w
  rw [h] at hmoves
  cases hmoves with
  | looks seen hvalue => simp [stepsLeft]
  | hears hseen => simp [stepsLeft, hseen]
  | resigns hclosed => simp [stepsLeft]

/-- Poll a waiter: it goes on until it returns, and is no more, or sleeps. -/
def poll (w : Waiter) (c : Channel) : Option Waiter :=
  match _h : w.step c with
  | .returns => none
  | .goesOn next => next.poll c
  | .sleeps => some w
termination_by w.stepsLeft c
decreasing_by exact stepsLeft_lt ‹_›

end Waiter

end ReplicaController.Shutdown

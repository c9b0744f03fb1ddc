import ReplicaController.Shutdown.Channel

/-!
# Waiting for shutdown

A sender and a waiter act on one channel, in any order, and the sender may also act between two
steps of one poll. The waiter never sleeps over a version that it has not seen, and while it sleeps
the value that it saw last is false. So no value that is sent is lost on it as long as it is the
last one, and once the sender is gone with the value false nothing rouses the waiter any more.
-/

namespace ReplicaController.Shutdown

/-- A channel with a waiter on it, until that has returned. It is awake as long as it has not slept
since it began or was last roused: only then need it be polled. -/
structure Watch where
  channel : Channel
  waiter : Option Waiter
  awake : Bool
  deriving DecidableEq, Repr

/-- What can happen on a channel. A poll is a run of steps if nothing comes between these. Who waits
for one of several things puts a new waiter in the place of one that has not returned. -/
inductive Event
  | send (value : Bool)
  | drop
  | step
  | poll
  | restart
  deriving DecidableEq, Repr

namespace Watch

def start (c : Channel) (seen : Nat) : Watch := ⟨c, some (.start seen), true⟩

def moved (s : Watch) : Step → Watch
  | .returns => { s with waiter := none, awake := false }
  | .goesOn next => { s with waiter := some next }
  | .sleeps => { s with awake := false }

/-- A send and the loss of the sender rouse the waiter. -/
def handle (s : Watch) (e : Event) : Watch :=
  match e with
  | .send value =>
    { s with channel := s.channel.send value, awake := s.awake || !s.channel.closed }
  | .drop => { s with channel := s.channel.drop, awake := s.awake || !s.channel.closed }
  | .step =>
    match s.waiter with
    | none => s
    | some w => s.moved (w.step s.channel)
  | .poll =>
    match s.waiter with
    | none => s
    | some w => { s with waiter := w.poll s.channel, awake := false }
  | .restart =>
    match s.waiter with
    | none => s
    | some w => { s with waiter := some (.start w.seen), awake := true }

def after (s : Watch) (events : List Event) : Watch := events.foldl handle s

end Watch

namespace Waiter

variable {c : Channel} {w next : Waiter} {awake : Bool}

/-- Where a waiter can stand: behind the channel or at its beginning it is awake, and if it waits
without being behind, or for good, the value is false. -/
inductive Placed (c : Channel) : Bool → Waiter → Prop
  | looking (seen : Nat) : Placed c true ⟨seen, .looking⟩
  | behind {seen : Nat} : seen < c.version → Placed c true ⟨seen, .waiting⟩
  | abreast (awake : Bool) : c.value = false → Placed c awake ⟨c.version, .waiting⟩
  | forever (awake : Bool) (seen : Nat) : c.closed = true → c.value = false →
      Placed c awake ⟨seen, .forever⟩

namespace Placed

theorem rouse (h : Placed c awake w) : Placed c true w := by
  cases h with
  | looking seen => exact .looking seen
  | behind hlt => exact .behind hlt
  | abreast awake hvalue => exact .abreast true hvalue
  | forever awake seen hclosed hvalue => exact .forever true seen hclosed hvalue

theorem goesOn (h : Placed c awake w) (hstep : w.step c = .goesOn next) :
    Placed c awake next := by
  have hmoves := moves c w
  rw [hstep] at hmoves
  cases hmoves with
  | looks seen hvalue => exact .abreast awake hvalue
  | hears hseen =>
    cases h with
    | behind hlt => exact .looking c.version
    | abreast awake hvalue => exact absurd rfl hseen
  | resigns hclosed =>
    cases h with
    | behind hlt => exact absurd hlt (Nat.lt_irrefl _)
    | abreast awake hvalue => exact .forever awake c.version hclosed hvalue

theorem sleeps (h : Placed c awake w) (hstep : w.step c = .sleeps) : Placed c false w := by
  have hmoves := moves c w
  rw [hstep] at hmoves
  cases hmoves with
  | sleeps hclosed =>
    cases h with
    | behind hlt => exact absurd hlt (Nat.lt_irrefl _)
    | abreast awake hvalue => exact .abreast false hvalue
  | sleepsOn seen =>
    cases h with
    | forever awake seen hclosed hvalue => exact .forever false seen hclosed hvalue

theorem send (h : Placed c awake w) (value : Bool) :
    Placed (c.send value) (awake || !c.closed) w := by
  unfold Channel.send
  cases hclosed : c.closed with
  | true => simpa [hclosed] using h
  | false =>
    rw [Bool.not_false, Bool.or_true]
    cases h with
    | looking seen => exact .looking seen
    | behind hlt => exact .behind (Nat.lt_succ_of_lt hlt)
    | abreast awake hvalue => exact .behind (Nat.lt_succ_self c.version)
    | forever awake seen hclosed' hvalue => simp [hclosed] at hclosed'

theorem drop (h : Placed c awake w) : Placed c.drop (awake || !c.closed) w := by
  have hdrop : Placed c.drop awake w := by
    cases h with
    | looking seen => exact .looking seen
    | behind hlt => exact .behind hlt
    | abreast awake hvalue => exact .abreast (c := c.drop) awake hvalue
    | forever awake seen hclosed hvalue => exact .forever awake seen rfl hvalue
  cases hclosed : c.closed with
  | true => simpa using hdrop
  | false => simpa using hdrop.rouse

theorem value_eq_false (h : Placed c false w) : c.value = false := by
  cases h with
  | abreast awake hvalue | forever awake seen hclosed hvalue => exact hvalue

theorem poll_eq_none (h : Placed c awake w) (hvalue : c.value = true) : w.poll c = none := by
  fun_induction poll w c with
  | case1 w hstep => rfl
  | case2 w next hstep ih => exact ih (h.goesOn hstep)
  | case3 w hstep =>
    have hfalse := (h.sleeps hstep).value_eq_false
    rw [hvalue] at hfalse
    contradiction

end Placed

theorem value_of_step (h : w.step c = .returns) : c.value = true := by
  have hmoves := moves c w
  rw [h] at hmoves
  cases hmoves with
  | returns seen hvalue => exact hvalue

theorem value_of_poll (h : w.poll c = none) : c.value = true := by
  fun_induction poll w c with
  | case1 w hstep => exact value_of_step hstep
  | case2 w next hstep ih => exact ih h
  | case3 w hstep => contradiction

end Waiter

namespace Watch

variable {s : Watch} {c : Channel} {w : Waiter} {awake : Bool}

@[simp]
theorem after_cons (s : Watch) (e : Event) (events : List Event) :
    s.after (e :: events) = (s.handle e).after events := rfl

theorem handle_step (c : Channel) (w : Waiter) (awake : Bool) :
    handle ⟨c, some w, awake⟩ .step = moved ⟨c, some w, awake⟩ (w.step c) := rfl

/-- A poll is what its steps are, one after another. -/
theorem exists_steps (s : Watch) : ∃ n, s.handle .poll = s.after (List.replicate n .step) := by
  obtain ⟨c, waiter, awake⟩ := s
  cases waiter with
  | none => exact ⟨0, rfl⟩
  | some w =>
    suffices h : ∃ n, (⟨c, w.poll c, false⟩ : Watch) =
        after ⟨c, some w, awake⟩ (List.replicate n .step) from h
    -- Along the loop of the poll: its last step returns or sleeps, and those before it go on.
    fun_induction Waiter.poll w c with
    | case1 w hstep =>
      refine ⟨1, ?_⟩
      rw [List.replicate_one, after_cons, handle_step, hstep]
      rfl
    | case2 w next hstep ih =>
      obtain ⟨n, hn⟩ := ih
      refine ⟨n + 1, ?_⟩
      rw [hn, List.replicate_succ, after_cons, handle_step, hstep]
      rfl
    | case3 w hstep =>
      refine ⟨1, ?_⟩
      rw [List.replicate_one, after_cons, handle_step, hstep]
      rfl

/-- The waiter, if it has not returned, stands where one can stand. -/
def Attentive (s : Watch) : Prop := ∀ w ∈ s.waiter, w.Placed s.channel s.awake

theorem attentive_none (c : Channel) (awake : Bool) : Attentive ⟨c, none, awake⟩ := nofun

theorem attentive_some : Attentive ⟨c, some w, awake⟩ ↔ w.Placed c awake := by
  simp [Attentive]

theorem attentive_start (c : Channel) (seen : Nat) : (start c seen).Attentive :=
  attentive_some.mpr (.looking seen)

theorem Attentive.step (h : s.Attentive) : (s.handle .step).Attentive := by
  obtain ⟨c, waiter, awake⟩ := s
  cases waiter with
  | none => exact attentive_none c awake
  | some w =>
    have hplaced := attentive_some.mp h
    rw [handle_step]
    cases hstep : w.step c with
    | returns => exact attentive_none c false
    | goesOn next => exact attentive_some.mpr (hplaced.goesOn hstep)
    | sleeps => exact attentive_some.mpr (hplaced.sleeps hstep)

theorem Attentive.steps (h : s.Attentive) (n : Nat) :
    (s.after (List.replicate n .step)).Attentive := by
  induction n generalizing s with
  | zero => exact h
  | succ n ih => exact ih h.step

theorem Attentive.handle (h : s.Attentive) (e : Event) : (s.handle e).Attentive := by
  cases e with
  | send value => exact fun w hw => (h w hw).send value
  | drop => exact fun w hw => (h w hw).drop
  | step => exact h.step
  | poll =>
    obtain ⟨n, hn⟩ := s.exists_steps
    rw [hn]
    exact h.steps n
  | restart =>
    obtain ⟨c, waiter, awake⟩ := s
    cases waiter with
    | none => exact attentive_none c awake
    | some w => exact attentive_some.mpr (.looking w.seen)

theorem Attentive.after (h : s.Attentive) (events : List Event) : (s.after events).Attentive := by
  induction events generalizing s with
  | nil => exact h
  | cons e events ih => exact ih (h.handle e)

theorem returned_of_handle {e : Event} (h : (s.handle e).waiter = none) :
    s.waiter = none ∨ s.channel.value = true := by
  obtain ⟨c, waiter, awake⟩ := s
  cases waiter with
  | none => exact .inl rfl
  | some w =>
    refine .inr ?_
    cases e with
    | send | drop | restart => contradiction
    | step =>
      rw [handle_step] at h
      cases hstep : w.step c with
      | returns => exact Waiter.value_of_step hstep
      | goesOn next | sleeps =>
        rw [hstep] at h
        contradiction
    | poll => exact Waiter.value_of_poll h

/-- The sender is gone, and the value that it left is false. -/
def Silent (s : Watch) : Prop := s.channel.closed = true ∧ s.channel.value = false

theorem channel_moved (s : Watch) (m : Step) : (s.moved m).channel = s.channel := by
  cases m <;> rfl

theorem channel_handle (h : s.channel.closed = true) (e : Event) :
    (s.handle e).channel = s.channel := by
  obtain ⟨c, waiter, awake⟩ := s
  cases e with
  | send value => exact if_pos h
  | drop =>
    change c.drop = c
    rw [Channel.drop, ← h]
  | step =>
    cases waiter with
    | none => rfl
    | some w => exact channel_moved _ _
  | poll | restart => cases waiter <;> rfl

theorem Silent.handle (h : s.Silent) (e : Event) : (s.handle e).Silent := by
  unfold Silent
  rw [channel_handle h.1]
  exact h

theorem Silent.waiter_ne_none (h : s.Silent) (hwaiter : s.waiter ≠ none) (events : List Event) :
    (s.after events).waiter ≠ none := by
  induction events generalizing s with
  | nil => exact hwaiter
  | cons e events ih =>
    refine ih (h.handle e) fun hnone => ?_
    rcases returned_of_handle hnone with hbefore | hvalue
    · exact hwaiter hbefore
    · rw [h.2] at hvalue
      contradiction

/-- Shutdown is heeded at a moment: the waiter returns only if the value is true, at once if it is
polled then, and it is then awake so that it will be polled; and it never returns once the sender
has gone and left the value false. -/
structure Heeded (s : Watch) : Prop where
  genuine : ∀ e, (s.handle e).waiter = none → s.waiter = none ∨ s.channel.value = true
  prompt : s.channel.value = true → (s.handle .poll).waiter = none
  roused : s.channel.value = true → s.waiter ≠ none → s.awake = true
  silent : s.channel.closed = true → s.channel.value = false → s.waiter ≠ none →
    ∀ events, (s.after events).waiter ≠ none

theorem Attentive.heeded (h : s.Attentive) : s.Heeded where
  genuine e := returned_of_handle
  prompt hvalue := by
    obtain ⟨c, waiter, awake⟩ := s
    cases waiter with
    | none => rfl
    | some w => exact (attentive_some.mp h).poll_eq_none hvalue
  roused hvalue hwaiter := by
    obtain ⟨c, waiter, awake⟩ := s
    obtain ⟨w, rfl⟩ := Option.ne_none_iff_exists'.mp hwaiter
    cases awake with
    | true => rfl
    | false =>
      rw [(attentive_some.mp h).value_eq_false] at hvalue
      contradiction
  silent hclosed hvalue hwaiter := Silent.waiter_ne_none ⟨hclosed, hvalue⟩ hwaiter

/-- Shutdown is heeded after everything that can happen, whatever the channel held at first and
whatever its receiver had seen of it. -/
theorem heeded_after (c : Channel) (seen : Nat) (events : List Event) :
    ((start c seen).after events).Heeded :=
  ((attentive_start c seen).after events).heeded

/-- Asleep after two steps, the waiter still hears the value that the sender leaves behind. -/
example : ((start (.new false) 0).after
    [.step, .step, .send true, .drop, .step, .step]).waiter = none := rfl

end Watch

end ReplicaController.Shutdown

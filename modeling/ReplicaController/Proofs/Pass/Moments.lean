import ReplicaController.Proofs.Pass.Logged

/-!
# The moments of a run

A watched world keeps a record of the calls that reach its store, with the count of calls in flight
that the store shows right after each of them. A creation or a deletion has two moments, one on
entering and one on leaving. The accounts of a record are in order if at each moment the count is
the number of calls that have entered and not left, and the store remembers its largest value.
-/

namespace ReplicaController

inductive Passage
  | entered (call : Mutation)
  | left (call : Mutation)
  | other

structure Moment where
  passage : Passage
  inFlight : Nat

def Mutation.kind : Mutation → Batch.Kind
  | .create _ => .create
  | .delete _ => .delete

namespace Passage

def enters (kind : Batch.Kind) : Passage → Bool
  | .entered call => call.kind == kind
  | _ => false

def isEntry : Passage → Bool
  | .entered _ => true
  | _ => false

def isExit : Passage → Bool
  | .left _ => true
  | _ => false

end Passage

namespace Moments

def entered (ms : List Moment) : Nat := ms.countP (·.passage.isEntry)

def left (ms : List Moment) : Nat := ms.countP (·.passage.isExit)

/-- The calls of one kind. -/
def calls (kind : Batch.Kind) (ms : List Moment) : Nat := ms.countP (·.passage.enters kind)

/-- The largest count. -/
def peak : List Moment → Nat
  | [] => 0
  | m :: ms => max m.inFlight (peak ms)

/-- At each moment the count is the number of calls that have entered and not left, and no call
leaves unless one is inside. -/
structure Balanced (ms : List Moment) : Prop where
  count : ∀ before m after, ms = before ++ m :: after →
    m.inFlight + left (before ++ [m]) = entered (before ++ [m])
  exit : ∀ before m after, ms = before ++ m :: after → m.passage.isExit = true →
    left before < entered before

variable {ms : List Moment} {m : Moment}

theorem entered_append (ms ms' : List Moment) :
    entered (ms ++ ms') = entered ms + entered ms' := List.countP_append

theorem left_append (ms ms' : List Moment) : left (ms ++ ms') = left ms + left ms' :=
  List.countP_append

theorem entered_singleton (m : Moment) : entered [m] = if m.passage.isEntry then 1 else 0 :=
  List.countP_singleton ..

theorem left_singleton (m : Moment) : left [m] = if m.passage.isExit then 1 else 0 :=
  List.countP_singleton ..

theorem calls_append_singleton (kind : Batch.Kind) (ms : List Moment) (m : Moment) :
    calls kind (ms ++ [m]) = calls kind ms + if m.passage.enters kind then 1 else 0 := by
  rw [calls, List.countP_append, List.countP_singleton, calls]

theorem peak_append (ms ms' : List Moment) : peak (ms ++ ms') = max (peak ms) (peak ms') := by
  induction ms with
  | nil => rw [peak, Nat.zero_max, List.nil_append]
  | cons m ms ih => rw [List.cons_append, peak, ih, peak, Nat.max_assoc]

theorem peak_append_singleton (ms : List Moment) (m : Moment) :
    peak (ms ++ [m]) = max (peak ms) m.inFlight := by
  rw [peak_append, peak, peak, Nat.max_zero]

theorem Balanced.nil : Balanced [] where
  count before m after h := by simp at h
  exit before m after h := by simp at h

theorem Balanced.append_singleton (h : Balanced ms)
    (hcount : m.inFlight + left (ms ++ [m]) = entered (ms ++ [m]))
    (hexit : m.passage.isExit = true → left ms < entered ms) : Balanced (ms ++ [m]) := by
  have hlast : ∀ before m' after, ms ++ [m] = before ++ m' :: after →
      (before = ms ∧ m' = m) ∨ ∃ rest, ms = before ++ m' :: rest := by
    intro before m' after hsplit
    rcases eq_append_cons_cases hsplit with hfirst | ⟨front, hbefore, hm⟩
    · exact .inr hfirst
    · rcases List.singleton_eq_append_iff.mp hm with ⟨rfl, hlast⟩ | ⟨-, hlast⟩
      · exact .inl ⟨by simpa using hbefore, (List.cons.inj hlast).1⟩
      · contradiction
  refine ⟨fun before m' after hsplit => ?_, fun before m' after hsplit => ?_⟩
  · rcases hlast before m' after hsplit with ⟨rfl, rfl⟩ | ⟨rest, hms⟩
    · exact hcount
    · exact h.count before m' rest hms
  · rcases hlast before m' after hsplit with ⟨rfl, rfl⟩ | ⟨rest, hms⟩
    · exact hexit
    · exact h.exit before m' rest hms

theorem Balanced.append {ms' : List Moment} (h : Balanced ms) (h' : Balanced ms')
    (hidle : left ms = entered ms) : Balanced (ms ++ ms') := by
  refine ⟨fun before m after hsplit => ?_, fun before m after hsplit hexit => ?_⟩
  · rcases eq_append_cons_cases hsplit with ⟨rest, hms⟩ | ⟨front, rfl, hms'⟩
    · exact h.count before m rest hms
    · have hcount := h'.count front m after hms'
      rw [List.append_assoc, left_append, entered_append, hidle]
      omega
  · rcases eq_append_cons_cases hsplit with ⟨rest, hms⟩ | ⟨front, rfl, hms'⟩
    · exact h.exit before m rest hms hexit
    · have hless := h'.exit front m after hms' hexit
      rw [left_append, entered_append, hidle]
      exact Nat.add_lt_add_left hless _

end Moments

namespace World

theorem tally_leave (call : Mutation) (s : World) :
    (backend.leave call s).2.store.tally = s.store.tally.leave := by
  cases call with
  | create i => exact Store.tally_leaveCreate i s.store
  | delete key => exact Store.tally_leaveDelete key s.store

/-- The two states show the same counts of calls in flight. -/
def SameInFlight (s s' : World) : Prop :=
  s'.store.tally.inFlight = s.store.tally.inFlight ∧
    s'.store.tally.maxInFlight = s.store.tally.maxInFlight

theorem sameInFlight_getWorkload (key : Key) (s : World) :
    s.SameInFlight (backend.getWorkload key s).2 := by
  have htally : (backend.getWorkload key s).2.store.tally =
      { s.store.tally with gets := s.store.tally.gets + 1 } :=
    congrArg Store.tally (Store.getWorkload_snd key s.store)
  rw [SameInFlight, htally]
  exact ⟨rfl, rfl⟩

theorem sameInFlight_listInstances (ns : String) (selector : Selector) (s : World) :
    s.SameInFlight (backend.listInstances ns selector s).2 := by
  have htally : (backend.listInstances ns selector s).2.store.tally =
      { s.store.tally with lists := s.store.tally.lists + 1 } :=
    congrArg Store.tally (Store.listInstances_snd ns selector s.store)
  rw [SameInFlight, htally]
  exact ⟨rfl, rfl⟩

theorem sameInFlight_updateStatus (w : Workload) (s : World) :
    s.SameInFlight (backend.updateStatus w s).2 := by
  have htally : (backend.updateStatus w s).2.store.tally =
      { s.store.tally with statusUpdates := s.store.tally.statusUpdates + 1 } :=
    Store.tally_updateStatus w s.store
  rw [SameInFlight, htally]
  exact ⟨rfl, rfl⟩

end World

/-- A world with the moments that led to it. -/
structure Watched where
  world : World
  moments : List Moment

namespace Watched

def inFlight (x : Watched) : Nat := x.world.store.tally.inFlight

/-- The world after a call, with one more moment. -/
def record (x : Watched) (passage : Passage) (world : World) : Watched :=
  ⟨world, x.moments ++ [⟨passage, world.store.tally.inFlight⟩]⟩

def backend : Backend Watched where
  getWorkload key x := (World.backend.getWorkload key x.world).map id (x.record .other)
  listWorkloads x := (World.backend.listWorkloads x.world).map id (x.record .other)
  listInstances ns selector x :=
    (World.backend.listInstances ns selector x.world).map id (x.record .other)
  enter call x := (World.backend.enter call x.world).map id (x.record (.entered call))
  leave call x := (World.backend.leave call x.world).map id (x.record (.left call))
  updateStatus w x := (World.backend.updateStatus w x.world).map id (x.record .other)
  draw x := (World.backend.draw x.world).map id fun world => ⟨world, x.moments⟩
  now x := (World.backend.now x.world).map id fun world => ⟨world, x.moments⟩

theorem backend_projects : backend.Projects world World.backend where
  getWorkload _ _ := rfl
  listWorkloads _ := rfl
  listInstances _ _ _ := rfl
  enter _ _ := rfl
  leave _ _ := rfl
  updateStatus _ _ := rfl
  draw _ := rfl
  now _ := rfl

/-- With these moments in front. -/
def after (ms : List Moment) (x : Watched) : Watched := ⟨x.world, ms ++ x.moments⟩

theorem record_after (ms : List Moment) (x : Watched) (passage : Passage) :
    (x.after ms).record passage = after ms ∘ x.record passage := by
  funext world
  simp [record, after]

theorem backend_projects_after (ms : List Moment) : backend.Projects (after ms) backend where
  getWorkload key x := by simp only [backend, record_after]; rfl
  listWorkloads x := by simp only [backend, record_after]; rfl
  listInstances ns selector x := by simp only [backend, record_after]; rfl
  enter call x := by simp only [backend, record_after]; rfl
  leave call x := by simp only [backend, record_after]; rfl
  updateStatus w x := by simp only [backend, record_after]; rfl
  draw _ := rfl
  now _ := rfl

open Moments

/-- The accounts of a record that began with `start`, when nothing was in flight. -/
structure Accounts (start : CallTally) (x : Watched) : Prop where
  balanced : Balanced x.moments
  count : x.inFlight + left x.moments = entered x.moments
  le_peak : x.inFlight ≤ peak x.moments
  maxInFlight : x.world.store.tally.maxInFlight = max start.maxInFlight (peak x.moments)

namespace Accounts

variable {start : CallTally} {x : Watched} {s : World}

theorem begin (s : World) (h : s.store.tally.inFlight = 0) :
    Accounts s.store.tally ⟨s, []⟩ where
  balanced := .nil
  count := h
  le_peak := Nat.le_of_eq h
  maxInFlight := (Nat.max_zero _).symm

theorem of_tally (h : Accounts start x) (htally : s.store.tally = x.world.store.tally) :
    Accounts start ⟨s, x.moments⟩ := by
  obtain ⟨hbalanced, hcount, hle, hmax⟩ := h
  unfold inFlight at hcount hle
  rw [← htally] at hcount hle hmax
  exact ⟨hbalanced, hcount, hle, hmax⟩

theorem record (h : Accounts start x) {passage : Passage}
    (hcount : s.store.tally.inFlight + (if passage.isExit then 1 else 0) =
      x.inFlight + if passage.isEntry then 1 else 0)
    (hmax : s.store.tally.maxInFlight =
      max x.world.store.tally.maxInFlight s.store.tally.inFlight) :
    Accounts start (x.record passage s) := by
  obtain ⟨hbalanced, hopen, hle, hpeak⟩ := h
  have hexit : passage.isExit = true → passage.isEntry = false := by
    cases passage with
    | entered call => exact fun h => nomatch h
    | left call | other => exact fun _ => rfl
  have hafter : s.store.tally.inFlight + left (x.record passage s).moments =
      entered (x.record passage s).moments := by
    rw [Watched.record, left_append, entered_append, left_singleton, entered_singleton]
    dsimp only
    omega
  refine ⟨hbalanced.append_singleton hafter fun hleaves => ?_, hafter, ?_, ?_⟩
  · rw [hexit hleaves, if_pos hleaves] at hcount
    simp only [Bool.false_eq_true, if_false] at hcount
    omega
  · rw [Watched.record, peak_append_singleton]
    exact Nat.le_max_right _ _
  · rw [Watched.record, peak_append_singleton, ← Nat.max_assoc, ← hpeak]
    exact hmax

theorem max_eq_of_le (h : Accounts start x) {n : Nat} (hn : n ≤ x.inFlight) :
    x.world.store.tally.maxInFlight = max x.world.store.tally.maxInFlight n := by
  have hle := h.le_peak
  have hmax := h.maxInFlight
  omega

theorem other (h : Accounts start x) (hs : x.world.SameInFlight s) :
    Accounts start (x.record .other s) := by
  refine h.record hs.1 (hs.2.trans (h.max_eq_of_le ?_))
  exact Nat.le_of_eq hs.1

theorem enter (h : Accounts start x) (call : Mutation) :
    Accounts start (backend.enter call x).2 ∧
      (backend.enter call x).2.inFlight = x.inFlight + 1 := by
  cases call with
  | create i => exact ⟨h.record rfl rfl, rfl⟩
  | delete key => exact ⟨h.record rfl rfl, rfl⟩

theorem leave (h : Accounts start x) (call : Mutation) (hinside : 0 < x.inFlight) :
    Accounts start (backend.leave call x).2 ∧
      (backend.leave call x).2.inFlight + 1 = x.inFlight := by
  have htally := World.tally_leave call x.world
  have hcount : (World.backend.leave call x.world).2.store.tally.inFlight + 1 = x.inFlight := by
    rw [htally]
    exact Nat.sub_add_cancel hinside
  have hmax : (World.backend.leave call x.world).2.store.tally.maxInFlight =
      x.world.store.tally.maxInFlight := by
    rw [htally]
    rfl
  refine ⟨h.record hcount (hmax.trans (h.max_eq_of_le ?_)), hcount⟩
  exact Nat.le_of_succ_le (Nat.le_of_eq hcount)

/-- Accounts that begin when nothing is in flight go on from those before. -/
theorem append {y : Watched} (h : Accounts start x) (hidle : x.inFlight = 0)
    (h' : Accounts x.world.store.tally y) : Accounts start (y.after x.moments) := by
  have hleft : left x.moments = entered x.moments := by
    rw [← h.count, hidle, Nat.zero_add]
  refine ⟨h.balanced.append h'.balanced hleft, ?_, ?_, ?_⟩
  · have hcount := h'.count
    change y.inFlight + left (x.moments ++ y.moments) = entered (x.moments ++ y.moments)
    rw [left_append, entered_append, hleft]
    omega
  · rw [after, peak_append]
    exact Nat.le_trans h'.le_peak (Nat.le_max_right _ _)
  · rw [after, peak_append, ← Nat.max_assoc, ← h.maxInFlight]
    exact h'.maxInFlight

end Accounts

end Watched

end ReplicaController

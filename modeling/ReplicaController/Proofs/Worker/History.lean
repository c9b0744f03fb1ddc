import Mathlib.Algebra.Ring.Nat
import Mathlib.Data.List.Induction
import ReplicaController.Proofs.Worker.Backoff
import ReplicaController.Proofs.Worker.Visits
import ReplicaController.Worker.Ticks

/-!
# Histories of the worker

A history notes which keys each resync has found listed and how each pass ended. What its notes on a
key come to is the record that the key ought to have: its count is the number of failed passes since
a pass was fine or a listing was without the key, and it is due a delay after the last of them.
-/

namespace ReplicaController

namespace Worker

/-- What is known of the worker from outside: the keys of a listing, and how a pass ended, with what
the clock shows at its next reading, which is the moment of the failure if the pass failed. -/
inductive Note
  | listed (keys : List Key)
  | passed (key : Key) (now : Span) (attempt : Attempt)

namespace Attempt

/-- The pass ended in an error; one that shutdown broke off did not. -/
def isFailed : Attempt → Bool
  | .stopped => false
  | .ended (.ok _) => false
  | .ended (.error (.cancelled _)) => false
  | .ended (.error _) => true

def isFine : Attempt → Bool
  | .ended (.ok _) => true
  | _ => false

/-- What becomes of a record by a pass over its key. -/
def record (delay : UInt32 → Span) (now : Span) (f : Option Failure) (a : Attempt) :
    Option Failure :=
  if a.isFine then none
  else if a.isFailed then
    let count := Backoff.nextCount (Backoff.countOf f)
    some ⟨count, now + delay count⟩
  else f

end Attempt

namespace Note

def update (delay : UInt32 → Span) (key : Key) (f : Option Failure) : Note → Option Failure
  | .listed keys => if key ∈ keys then f else none
  | .passed k now a => if k = key then a.record delay now f else f

def fails (key : Key) : Note → Bool
  | .listed _ => false
  | .passed k _ a => decide (k = key) && a.isFailed

/-- A pass over the key that was fine, or a listing without the key. -/
def clears (key : Key) : Note → Bool
  | .listed keys => !keys.contains key
  | .passed k _ a => decide (k = key) && a.isFine

end Note

/-- What the notes on a key come to. -/
def record (delay : UInt32 → Span) (key : Key) (notes : List Note) : Option Failure :=
  notes.foldl (Note.update delay key) none

/-- The failed passes over a key since its record was last cleared. -/
def streak (key : Key) (notes : List Note) : Nat :=
  (notes.reverse.takeWhile fun n => !n.clears key).countP (·.fails key)

section Counting

variable {delay : UInt32 → Span} {key : Key}

theorem record_append (notes notes' : List Note) :
    record delay key (notes ++ notes') =
      notes'.foldl (Note.update delay key) (record delay key notes) :=
  List.foldl_append

theorem streak_append_singleton (notes : List Note) (n : Note) :
    streak key (notes ++ [n]) =
      if n.clears key then 0 else streak key notes + if n.fails key then 1 else 0 := by
  unfold streak
  rw [List.reverse_append, List.reverse_singleton, List.singleton_append, List.takeWhile_cons]
  by_cases h : n.clears key = true
  · simp [h]
  · simp [h, List.countP_cons]

theorem update_cases (delay : UInt32 → Span) (key : Key) (f : Option Failure) (n : Note) :
    (n.clears key = true ∧ n.update delay key f = none) ∨
    (n.clears key = false ∧ n.fails key = true ∧ ∃ now a, n = .passed key now a ∧
      n.update delay key f = some ⟨Backoff.nextCount (Backoff.countOf f),
        now + delay (Backoff.nextCount (Backoff.countOf f))⟩) ∨
    (n.clears key = false ∧ n.fails key = false ∧ n.update delay key f = f) := by
  cases n with
  | listed keys =>
    by_cases h : key ∈ keys
    · exact .inr (.inr ⟨by simpa [Note.clears] using h, rfl, if_pos h⟩)
    · exact .inl ⟨by simpa [Note.clears] using h, if_neg h⟩
  | passed k now a =>
    by_cases hk : k = key
    · subst hk
      simp only [Note.update, Note.clears, Note.fails, decide_true, Bool.true_and, if_true]
      unfold Attempt.record
      cases hfine : a.isFine with
      | true => exact .inl ⟨rfl, rfl⟩
      | false =>
        cases hfailed : a.isFailed with
        | true => exact .inr (.inl ⟨rfl, rfl, now, a, rfl, rfl⟩)
        | false => exact .inr (.inr ⟨rfl, rfl, rfl⟩)
    · exact .inr (.inr ⟨by simp [Note.clears, hk], by simp [Note.fails, hk], if_neg hk⟩)

theorem toNat_countOf_record (notes : List Note) :
    (Backoff.countOf (record delay key notes)).toNat = min (streak key notes) (2 ^ 32 - 1) := by
  -- From the end: the newest note decides alone, or adds one to what the older ones come to.
  induction notes using List.reverseRecOn with
  | nil => rfl
  | append_singleton notes n ih =>
    rw [streak_append_singleton, record_append, List.foldl_cons, List.foldl_nil]
    rcases update_cases delay key (record delay key notes) n with
      ⟨hclears, h⟩ | ⟨hclears, hfails, now, a, -, h⟩ | ⟨hclears, hfails, h⟩
    · rw [h, if_pos hclears]
      rfl
    · rw [h, hclears, hfails, if_neg Bool.false_ne_true, if_pos rfl]
      change (Backoff.nextCount _).toNat = _
      rw [Backoff.toNat_nextCount, ih]
      omega
    · rw [h, hclears, hfails, if_neg Bool.false_ne_true, if_neg Bool.false_ne_true, ih]
      rfl

end Counting

/-- The last thing known of the key is that a pass at `t` failed: behind it no pass over the key
came to its end, and no listing was without the key. -/
def LastFailed (key : Key) (t : Span) (notes : List Note) : Prop :=
  ∃ before attempt after, notes = before ++ .passed key t attempt :: after ∧
    attempt.isFailed = true ∧ ∀ n ∈ after, n.fails key = false ∧ n.clears key = false

section LastFailed

variable {delay : UInt32 → Span} {key : Key} {t : Span} {notes : List Note} {f : Option Failure}

theorem foldl_update_eq (h : ∀ n ∈ notes, n.fails key = false ∧ n.clears key = false) :
    notes.foldl (Note.update delay key) f = f := by
  induction notes with
  | nil => rfl
  | cons n notes ih =>
    obtain ⟨⟨hfails, hclears⟩, hnotes⟩ := List.forall_mem_cons.mp h
    have hn : n.update delay key f = f := by
      rcases update_cases delay key f n with ⟨h', -⟩ | ⟨-, h', -⟩ | ⟨-, -, h'⟩
      · rw [hclears] at h'
        contradiction
      · rw [hfails] at h'
        contradiction
      · exact h'
    rw [List.foldl_cons, hn]
    exact ih hnotes

theorem record_of_lastFailed (delay : UInt32 → Span) (h : LastFailed key t notes) :
    ∃ f, record delay key notes = some f ∧ f.due = t + delay f.count := by
  obtain ⟨before, attempt, after, rfl, hfailed, hafter⟩ := h
  have hfine : attempt.isFine = false := by
    cases attempt with
    | stopped => rfl
    | ended result =>
      cases result with
      | ok outcome => contradiction
      | error e => rfl
  rw [record_append, List.foldl_cons, foldl_update_eq hafter, Note.update, if_pos rfl,
    Attempt.record, hfine, hfailed]
  exact ⟨_, rfl, rfl⟩

theorem lastFailed_of_record {f : Failure} (h : record delay key notes = some f) :
    ∃ t, LastFailed key t notes ∧ f.due = t + delay f.count := by
  induction notes using List.reverseRecOn with
  | nil => contradiction
  | append_singleton notes n ih =>
    rw [record_append, List.foldl_cons, List.foldl_nil] at h
    rcases update_cases delay key (record delay key notes) n with
      ⟨-, hn⟩ | ⟨-, hfails, now, a, rfl, hn⟩ | ⟨hclears, hfails, hn⟩
    · rw [hn] at h
      contradiction
    · rw [hn] at h
      cases h
      have hfailed : a.isFailed = true := by simpa [Note.fails] using hfails
      exact ⟨now, ⟨notes, a, [], rfl, hfailed, fun _ hm => (nomatch hm)⟩, rfl⟩
    · rw [hn] at h
      obtain ⟨t, ⟨before, attempt, after, rfl, hfailed, hafter⟩, hdue⟩ := ih h
      refine ⟨t, ⟨before, attempt, after ++ [n], by simp, hfailed, fun m hm => ?_⟩, hdue⟩
      rcases List.mem_append.mp hm with hm | hm
      · exact hafter m hm
      · rw [List.mem_singleton.mp hm]
        exact ⟨hfails, hclears⟩

end LastFailed

def Visit.note {σ : Type} (d : Duty σ) (v : Visit σ) : Note :=
  .passed v.key v.before.present (d.pass v.key v.before.inner).1

/-- One of the worker's two calls, and what befalls the rest of the state before it. -/
structure Call (σ : Type) where
  change : σ → σ
  tick : Tick

namespace Call

variable {σ : Type} (d : Duty σ) (c : Call σ) (s : State σ)

def before : State σ := { s with inner := c.change s.inner }

def after : State σ := onTick d (c.before s) c.tick

/-- The state at which the first pass of the call begins. -/
def begun : State σ :=
  match c.tick with
  | .resync =>
    match d.list (c.change s.inner) with
    | (.error _, inner) => { s with inner }
    | (.ok ws, inner) => { s with inner }.keepOnly (sortedKeys ws)
  | .retry => (c.before s).now.2

def visits : List (Visit σ) :=
  match c.tick with
  | .resync => resyncVisits d (c.before s)
  | .retry => dueVisits d (c.before s)

def listing : Option (List Key) :=
  match c.tick, (d.list (c.before s).inner).1 with
  | .resync, .ok ws => some (sortedKeys ws)
  | _, _ => none

def notes : List Note :=
  (c.listing d s).toList.map .listed ++ (c.visits d s).map (Visit.note d)

end Call

section Histories

variable {σ : Type} (d : Duty σ)

def afterCalls (s : State σ) (cs : List (Call σ)) : State σ := cs.foldl (fun s c => c.after d s) s

def passes : State σ → List (Call σ) → List (Visit σ)
  | _, [] => []
  | s, c :: cs => c.visits d s ++ passes (c.after d s) cs

/-- The passes of each call lead from the state at which they begin to the one after the call. -/
def Threaded : State σ → List (Call σ) → Prop
  | _, [] => True
  | s, c :: cs => Leads d (c.begun d s) (c.visits d s) (c.after d s) ∧ Threaded (c.after d s) cs

/-- The notes on these calls. -/
def history : State σ → List (Call σ) → List Note
  | _, [] => []
  | s, c :: cs => c.notes d s ++ history (c.after d s) cs

/-- Every key that these calls find listed is readable. -/
def ListsReadable (s : State σ) (cs : List (Call σ)) : Prop :=
  ∀ keys, Note.listed keys ∈ history d s cs → ∀ key ∈ keys, key.Readable

variable {d} {c : Call σ} {cs : List (Call σ)} {s : State σ}

theorem listed_mem_notes_iff {keys : List Key} :
    .listed keys ∈ c.notes d s ↔ c.listing d s = some keys := by
  unfold Call.notes Visit.note
  simp [eq_comm]

theorem listsReadable_cons_iff : ListsReadable d s (c :: cs) ↔
    (∀ keys, c.listing d s = some keys → ∀ key ∈ keys, key.Readable) ∧
      ListsReadable d (c.after d s) cs := by
  unfold ListsReadable
  simp only [history, List.mem_append, listed_mem_notes_iff, or_imp, forall_and]

theorem ListsReadable.nil (d : Duty σ) (s : State σ) : ListsReadable d s [] :=
  fun _ h => nomatch h

theorem ListsReadable.cons (h : ∀ key ∈ (c.listing d s).getD [], key.Readable)
    (hcs : ListsReadable d (c.after d s) cs) : ListsReadable d s (c :: cs) := by
  refine listsReadable_cons_iff.mpr ⟨fun keys hkeys => ?_, hcs⟩
  rw [hkeys] at h
  exact h

end Histories

end Worker

end ReplicaController

import ReplicaController.Proofs.Key
import ReplicaController.Proofs.Store.Reachable
import ReplicaController.Worker.Round

/-!
# The visits of a round

A round visits its keys one after another, each with one pass, and its visits lead from the state at
which it begins to the one at which it ends. A resync visits the key of every stored workload once.
A retry visits the keys that its texts read as; if all of them are readable, it is a round over the
keys.
-/

namespace ReplicaController

namespace Worker

variable {σ : Type}

/-- What the clock shows when it is read next. -/
def State.present (s : State σ) : Span := s.clock s.readings

/-- A pass of a round, with the states before and after it. -/
structure Visit (σ : Type) where
  key : Key
  before : State σ
  after : State σ

/-- The passes that a round makes, in their order. -/
def visits (d : Duty σ) : List Key → State σ → List (Visit σ)
  | [], _ => []
  | key :: keys, s =>
    match trigger d key s with
    | (.stopped, s') => [⟨key, s, s'⟩]
    | (_, s') => ⟨key, s, s'⟩ :: visits d keys s'

/-- The passes that a resync makes, in their order. -/
def resyncVisits (d : Duty σ) (s : State σ) : List (Visit σ) :=
  match d.list s.inner with
  | (.error _, _) => []
  | (.ok ws, inner) =>
    let keys := sortedKeys ws
    visits d keys ({ s with inner }.keepOnly keys)

def retryVisits (d : Duty σ) : List String → State σ → List (Visit σ)
  | [], _ => []
  | text :: texts, s =>
    match Key.parse text with
    | .error _ => retryVisits d texts (s.clear text)
    | .ok key =>
      match trigger d key s with
      | (.stopped, s') => [⟨key, s, s'⟩]
      | (_, s') => ⟨key, s, s'⟩ :: retryVisits d texts s'

/-- The passes over what is due, in their order. -/
def dueVisits (d : Duty σ) (s : State σ) : List (Visit σ) :=
  retryVisits d (s.backoff.due s.present) s.now.2

def resyncs (d : Duty σ) : Nat → State σ → State σ
  | 0, s => s
  | k + 1, s => (resync d (resyncs d k s)).2

/-- Visits that lead from one state to another: each is a pass over its key, and begins where the
one before it has ended. -/
inductive Leads (d : Duty σ) : State σ → List (Visit σ) → State σ → Prop
  | nil (s : State σ) : Leads d s [] s
  | cons (key : Key) {s s' : State σ} {vs : List (Visit σ)} :
      Leads d (trigger d key s).2 vs s' → Leads d s (⟨key, s, (trigger d key s).2⟩ :: vs) s'

/-- The attempt came to its end, and shutdown did not break it off. -/
def Attempt.IsDone (a : Attempt) : Prop :=
  ∃ result, a = .ended result ∧ ∀ key, result ≠ .error (.cancelled key)

theorem settle_ne_stopped {a : Attempt} (h : a.IsDone) (key : Key) (s : State σ) :
    (settle key s a).1 ≠ .stopped := by
  obtain ⟨result, rfl, hresult⟩ := h
  cases result with
  | ok outcome => cases outcome <;> simp [settle]
  | error e =>
    cases e with
    | cancelled key => exact absurd rfl (hresult key)
    | _ => simp [settle]

theorem inner_settle (key : Key) (s : State σ) (a : Attempt) :
    (settle key s a).2.inner = s.inner := by
  cases a with
  | stopped => rfl
  | ended result =>
    cases result with
    | ok outcome => cases outcome <;> rfl
    | error e => cases e <;> rfl

theorem inner_trigger (d : Duty σ) (key : Key) (s : State σ) :
    (trigger d key s).2.inner = (d.pass key s.inner).2 := inner_settle key _ _

theorem inner_of_trigger {d : Duty σ} {key : Key} {s s' : State σ} {t : Triggered}
    (h : trigger d key s = (t, s')) : s'.inner = (d.pass key s.inner).2 := by
  rw [← inner_trigger, h]

theorem round_cons {d : Duty σ} {key : Key} {s : State σ} (h : (d.pass key s.inner).1.IsDone)
    (keys : List Key) (tally : RoundTally) :
    ∃ tally', round d (key :: keys) tally s = round d keys tally' (trigger d key s).2 := by
  have hne : (trigger d key s).1 ≠ .stopped := settle_ne_stopped h key _
  generalize hr : trigger d key s = r at hne
  obtain ⟨t, s'⟩ := r
  refine ⟨count tally t, ?_⟩
  rw [round, hr]
  cases t with
  | stopped => exact absurd rfl hne
  | _ => rfl

theorem visits_cons {d : Duty σ} {key : Key} {s : State σ} (h : (d.pass key s.inner).1.IsDone)
    (keys : List Key) :
    visits d (key :: keys) s =
      ⟨key, s, (trigger d key s).2⟩ :: visits d keys (trigger d key s).2 := by
  have hne : (trigger d key s).1 ≠ .stopped := settle_ne_stopped h key _
  generalize hr : trigger d key s = r at hne
  obtain ⟨t, s'⟩ := r
  rw [visits, hr]
  cases t with
  | stopped => exact absurd rfl hne
  | _ => rfl

theorem leads_visits (d : Duty σ) (keys : List Key) (tally : RoundTally) (s : State σ) :
    Leads d s (visits d keys s) (round d keys tally s).2 := by
  induction keys generalizing tally s with
  | nil => exact .nil s
  | cons key keys ih =>
    have hcons := @Leads.cons σ d key s
    rw [round, visits]
    generalize trigger d key s = r at hcons ⊢
    obtain ⟨t, s'⟩ := r
    cases t with
    | stopped => exact hcons (.nil s')
    | _ => exact hcons (ih _ s')

theorem Leads.after_eq {d : Duty σ} {s s' : State σ} {vs : List (Visit σ)} (h : Leads d s vs s') :
    ∀ v ∈ vs, v.after = (trigger d v.key v.before).2 := by
  induction h with
  | nil => exact fun _ hv => nomatch hv
  | cons key _ ih => exact List.forall_mem_cons.mpr ⟨rfl, ih⟩

theorem key_mem_of_mem_visits {d : Duty σ} {keys : List Key} {s : State σ} {v : Visit σ}
    (h : v ∈ visits d keys s) : v.key ∈ keys := by
  induction keys generalizing s with
  | nil => exact nomatch h
  | cons key keys ih =>
    unfold visits at h
    split at h
    · rw [List.mem_singleton] at h
      subst h
      exact List.mem_cons_self
    · rcases List.mem_cons.mp h with rfl | h
      · exact List.mem_cons_self
      · exact List.mem_cons_of_mem key (ih h)

theorem map_key_visits {d : Duty σ} (done : ∀ key t, (d.pass key t).1.IsDone) (keys : List Key)
    (s : State σ) : (visits d keys s).map Visit.key = keys := by
  induction keys generalizing s with
  | nil => rfl
  | cons key keys ih => rw [visits_cons (done key s.inner), List.map_cons, ih]

/-- A retry of the texts of readable keys is a round over these keys. -/
theorem retryRound_texts (d : Duty σ) {keys : List Key} (readable : ∀ key ∈ keys, key.Readable)
    (tally : RoundTally) (s : State σ) :
    retryRound d (keys.map Key.text) tally s = round d keys tally s := by
  induction keys generalizing tally s with
  | nil => rfl
  | cons key keys ih =>
    obtain ⟨hkey, hkeys⟩ := List.forall_mem_cons.mp readable
    rw [List.map_cons, retryRound, round, Key.parse_text hkey]
    dsimp only
    generalize trigger d key s = r
    obtain ⟨t, s'⟩ := r
    cases t with
    | stopped => rfl
    | _ => exact ih hkeys _ s'

theorem retryVisits_texts (d : Duty σ) {keys : List Key} (readable : ∀ key ∈ keys, key.Readable)
    (s : State σ) : retryVisits d (keys.map Key.text) s = visits d keys s := by
  induction keys generalizing s with
  | nil => rfl
  | cons key keys ih =>
    obtain ⟨hkey, hkeys⟩ := List.forall_mem_cons.mp readable
    rw [List.map_cons, retryVisits, visits, Key.parse_text hkey]
    dsimp only
    generalize trigger d key s = r
    obtain ⟨t, s'⟩ := r
    cases t with
    | stopped => rfl
    | _ => exact congrArg _ (ih hkeys s')

theorem resync_of_list {d : Duty σ} {s : State σ} {ws : List Workload} {inner : σ}
    (hlist : d.list s.inner = (.ok ws, inner)) :
    resync d s = round d (sortedKeys ws) noPasses ({ s with inner }.keepOnly (sortedKeys ws)) ∧
      resyncVisits d s = visits d (sortedKeys ws) ({ s with inner }.keepOnly (sortedKeys ws)) := by
  rw [resync, resyncVisits, hlist]
  exact ⟨rfl, rfl⟩

theorem sortedKeys_eq {ws : List Workload}
    (h : (ws.map Workload.key).Pairwise fun k l => compare k l ≠ .gt) :
    sortedKeys ws = ws.map Workload.key :=
  List.mergeSort_of_pairwise (h.imp bne_iff_ne.mpr)

theorem sortedKeys_perm (ws : List Workload) : (sortedKeys ws).Perm (ws.map Workload.key) :=
  List.mergeSort_perm _ _

end Worker

namespace Cluster

theorem Sound.keys_values {c : Cluster} (h : c.Sound) :
    c.workloads.values.map Workload.key = c.workloads.keys := by
  unfold SortedMap.values SortedMap.keys
  rw [List.map_map]
  apply List.map_congr_left
  rintro ⟨key, w⟩ hm
  exact h.keyed key w (SortedMap.find?_eq_some_iff.mpr hm)

theorem Sound.nodup_sortedKeys {c : Cluster} (h : c.Sound) :
    (Worker.sortedKeys c.workloads.values).Nodup := by
  rw [(Worker.sortedKeys_perm _).nodup_iff, h.keys_values]
  exact c.workloads.nodup_keys

theorem Sound.mem_sortedKeys_iff {c : Cluster} (h : c.Sound) {key : Key} :
    key ∈ Worker.sortedKeys c.workloads.values ↔ ∃ w, c.workload? key = some w := by
  rw [(Worker.sortedKeys_perm _).mem_iff, h.keys_values, SortedMap.mem_keys_iff]
  rfl

end Cluster

end ReplicaController

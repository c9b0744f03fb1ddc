import Mathlib.Data.List.Induction
import Mathlib.Data.List.Perm.Subperm
import ReplicaController.Proofs.Batch.Collection
import ReplicaController.Proofs.Batch.Progress
import ReplicaController.Proofs.Store.Served

/-!
# Batches that shutdown reaches

Shutdown may be raised at any moment of a batch. The executor then stops waiting; by that time it
has invoked every operation once, and it takes none of them back. So in every history, as soon as
nothing is left to happen, the operations that have come to an end are those that can, each of them
once, and a batch that was cancelled leaves behind what one that was waited for leaves, if the
effects of its operations commute.
-/

namespace ReplicaController

/-- The same instances, in whatever order they are listed. -/
def Cluster.SameInstances (c c' : Cluster) : Prop := ∀ i, i ∈ c.instances ↔ i ∈ c'.instances

namespace Cluster.SameInstances

variable {c c' c'' : Cluster}

theorem refl (c : Cluster) : c.SameInstances c := fun _ => Iff.rfl

theorem trans (h : c.SameInstances c') (h' : c'.SameInstances c'') : c.SameInstances c'' :=
  fun i => (h i).trans (h' i)

end Cluster.SameInstances

namespace Mutation

/-- What the call makes of a cluster if no fault is planned for it. -/
def land : Mutation → Cluster → Cluster
  | .create new, c => (Store.leaveCreate new (.ofCluster c)).2.cluster
  | .delete key, c => (Store.leaveDelete key (.ofCluster c)).2.cluster

theorem mem_land_create (new : Instance) (c : Cluster) (i : Instance) :
    i ∈ ((create new).land c).instances ↔
      i ∈ c.instances ∨ i = new ∧ c.hasInstance new.key = false := by
  by_cases h : c.hasInstance new.key = true
  · have hsame : (create new).land c = c := by
      simp [land, Store.leaveCreate, Store.ofCluster, Store.faultOfCreate, Faults.none, h]
    simp [hsame, h]
  · rw [Bool.not_eq_true] at h
    have hadded : (create new).land c = c.addInstance new := by
      simp [land, Store.leaveCreate, Store.ofCluster, Store.faultOfCreate, Faults.none, h]
    simp [hadded, h, Cluster.addInstance]

theorem mem_land_delete (key : Key) (c : Cluster) (i : Instance) :
    i ∈ ((delete key).land c).instances ↔ i ∈ c.instances ∧ i.key ≠ key := by
  by_cases h : c.hasInstance key = true
  · have hremoved : (delete key).land c = c.removeInstance key := by
      simp [land, Store.leaveDelete, Store.ofCluster, Faults.none, h]
    simp [hremoved, Cluster.removeInstance]
  · have hsame : (delete key).land c = c := by
      simp [land, Store.leaveDelete, Store.ofCluster, Faults.none, h]
    rw [hsame, iff_self_and]
    rintro hi rfl
    exact h (Cluster.hasInstance_iff.mpr (List.mem_map_of_mem hi))

theorem mem_land_of_ne {m : Mutation} {i : Instance} (hne : i.key ≠ m.key) (c : Cluster) :
    i ∈ (m.land c).instances ↔ i ∈ c.instances := by
  cases m with
  | create new =>
    rw [mem_land_create, or_iff_left]
    rintro ⟨rfl, -⟩
    exact hne rfl
  | delete key => exact (mem_land_delete key c i).trans (and_iff_left hne)

theorem mem_land_congr {m : Mutation} {c c' : Cluster}
    (h : ∀ j, j.key = m.key → (j ∈ c.instances ↔ j ∈ c'.instances)) {i : Instance}
    (hi : i.key = m.key) : i ∈ (m.land c).instances ↔ i ∈ (m.land c').instances := by
  cases m with
  | create new =>
    have hthere : c.hasInstance new.key = c'.hasInstance new.key := by
      rw [Bool.eq_iff_iff, Cluster.hasInstance_iff, Cluster.hasInstance_iff, List.mem_map,
        List.mem_map]
      exact exists_congr fun j => and_congr_left (h j)
    rw [mem_land_create, mem_land_create, h i hi, hthere]
  | delete key => rw [mem_land_delete, mem_land_delete, h i hi]

theorem land_congr (m : Mutation) {c c' : Cluster} (h : c.SameInstances c') :
    (m.land c).SameInstances (m.land c') := by
  intro i
  by_cases hi : i.key = m.key
  · exact mem_land_congr (fun j _ => h j) hi
  · rw [mem_land_of_ne hi, mem_land_of_ne hi]
    exact h i

/-- Calls under different keys commute. -/
theorem land_comm {m m' : Mutation} (hne : m.key ≠ m'.key) (c : Cluster) :
    (m.land (m'.land c)).SameInstances (m'.land (m.land c)) := by
  intro i
  by_cases hi : i.key = m.key
  · have hother : i.key ≠ m'.key := fun h => hne (hi.symm.trans h)
    rw [mem_land_of_ne hother]
    exact mem_land_congr (fun j hj => mem_land_of_ne (fun h => hne (hj.symm.trans h)) c) hi
  · rw [mem_land_of_ne hi]
    by_cases hi' : i.key = m'.key
    · have hsame : ∀ j : Instance, j.key = m'.key → (j ∈ (m.land c).instances ↔ j ∈ c.instances) :=
        fun j hj => mem_land_of_ne (fun h => hne (h.symm.trans hj)) c
      exact (mem_land_congr hsame hi').symm
    · rw [mem_land_of_ne hi', mem_land_of_ne hi', mem_land_of_ne hi]

end Mutation

namespace Batch

/-- What the operations of these slots do to a cluster depends on its instances only, and of two of
them it makes no difference to the instances which one comes first. -/
structure Commuting (slots : List Nat) (effect : Nat → Cluster → Cluster) : Prop where
  congr : ∀ j ∈ slots, ∀ c c' : Cluster, c.SameInstances c' →
    (effect j c).SameInstances (effect j c')
  comm : ∀ j ∈ slots, ∀ k ∈ slots, j ≠ k → ∀ c,
    (effect j (effect k c)).SameInstances (effect k (effect j c))

theorem Commuting.of_calls {slots : List Nat} {calls : Nat → Mutation}
    (hkeys : ∀ j ∈ slots, ∀ k ∈ slots, j ≠ k → (calls j).key ≠ (calls k).key) :
    Commuting slots fun slot => (calls slot).land :=
  ⟨fun j _ _ _ h => (calls j).land_congr h,
    fun j hj k hk hne c => Mutation.land_comm (hkeys j hj k hk hne) c⟩

/-- The cluster after the operations of these slots have come to their ends, in this order. -/
def aftermath (effect : Nat → Cluster → Cluster) (slots : List Nat) (c : Cluster) : Cluster :=
  slots.foldl (fun c slot => effect slot c) c

theorem aftermath_congr {effect : Nat → Cluster → Cluster} {slots ended : List Nat}
    (h : Commuting slots effect) (hsub : ended ⊆ slots) {c c' : Cluster}
    (hsame : c.SameInstances c') :
    (aftermath effect ended c).SameInstances (aftermath effect ended c') := by
  induction ended generalizing c c' with
  | nil => exact hsame
  | cons slot ended ih =>
    apply ih fun _ hk => hsub (List.mem_cons_of_mem slot hk)
    exact h.congr slot (hsub List.mem_cons_self) c c' hsame

theorem aftermath_perm {effect : Nat → Cluster → Cluster} {slots ended ended' : List Nat}
    (h : Commuting slots effect) (hperm : ended.Perm ended') (hsub : ended ⊆ slots) (c : Cluster) :
    (aftermath effect ended c).SameInstances (aftermath effect ended' c) := by
  induction hperm generalizing c with
  | nil => exact .refl c
  | cons slot _ ih => exact ih (fun _ hk => hsub (List.mem_cons_of_mem slot hk)) _
  | swap j k rest =>
    have hj := hsub (List.mem_cons_of_mem k List.mem_cons_self)
    have hk := hsub List.mem_cons_self
    by_cases hjk : j = k
    · subst hjk
      exact .refl _
    · refine aftermath_congr h (fun _ hl => hsub ?_) (h.comm j hj k hk hjk c)
      exact List.mem_cons_of_mem k (List.mem_cons_of_mem j hl)
  | trans hfirst _ ih ih' =>
    exact (ih hsub c).trans (ih' (fun _ hk => hsub (hfirst.mem_iff.mpr hk)) c)

theorem Stage.rank_le (s : Stage) : s.rank ≤ Stage.waiting.rank := by
  cases s <;> decide

namespace Executor

/-- The slots whose operations came to their ends, in the order in which they did. -/
def landed (events : List Event) : List Nat :=
  events.filterMap fun e =>
    match e with
    | .finish slot => some slot
    | _ => none

def answered (fates : List Fate) (events : List Event) : List Nat :=
  fates.zipIdx.filterMap fun f =>
    if f.1.result.isSome && events.contains (.collect f.2) then some f.2 else none

/-- Nothing can happen any more but signals. -/
def Quiet (x : Executor) : Prop := ∀ e, e.isSignal = false → x.step e = none

/-- The task of the slot is past this stage. -/
def left (x : Executor) (slot : Nat) (here : Stage) : Bool :=
  (x.tasks[slot]?).any (·.stage.rank < here.rank)

variable {kind : Kind} {fates : List Fate} {events : List Event} {x y : Executor} {e : Event}
  {slot : Nat} {here : Stage}

theorem left_eq_true : x.left slot here = true ↔
    ∃ t, x.tasks[slot]? = some t ∧ t.stage.rank < here.rank := by
  simp [left, Option.any_eq_true]

theorem left_start (slot : Nat) (here : Stage) :
    (Executor.start kind fates).left slot here = false := by
  rw [Bool.eq_false_iff, Ne, left_eq_true]
  rintro ⟨t, ht, hlt⟩
  obtain ⟨f, -, rfl⟩ := List.mem_map.mp (List.mem_of_getElem? ht)
  exact absurd hlt (Nat.not_lt.mpr here.rank_le)

theorem leaves_inj {e' : Event} (h : e.leaves? = some (slot, here))
    (h' : e'.leaves? = some (slot, here)) : e = e' := by
  cases here <;> cases e <;> cases e' <;> simp_all [Event.leaves?]

/-- A task that moves on by one stage leaves that stage and no other. -/
theorem left_exchange {before after : List Task} {t : Task} {next : Stage}
    (htasks : x.tasks = before ++ t :: after) (hrank : t.stage.rank = next.rank + 1)
    (results : List Result) (slot : Nat) (here : Stage) :
    left { x with tasks := before ++ { t with stage := next } :: after, results } slot here =
      (x.left slot here || (slot == before.length && here == t.stage)) := by
  by_cases hslot : slot = before.length
  · subst hslot
    have hhere : here = t.stage ↔ here.rank = t.stage.rank :=
      ⟨fun h => h ▸ rfl, fun h => Stage.rank_injective h⟩
    rw [Bool.eq_iff_iff]
    simp [left, htasks, hhere]
    omega
  · have hother : (before ++ { t with stage := next } :: after)[slot]? = x.tasks[slot]? :=
      htasks ▸ getElem?_exchange hslot after t _
    simp [left, hother, hslot]

theorem mem_landed : slot ∈ landed events ↔ .finish slot ∈ events := by
  rw [landed, List.mem_filterMap]
  constructor
  · rintro ⟨e, he, heq⟩
    split at heq
    · rwa [← Option.some.inj heq]
    · cases heq
  · exact fun h => ⟨_, h, rfl⟩

theorem count_landed (events : List Event) (slot : Nat) :
    (landed events).count slot = events.count (.finish slot) := by
  induction events with
  | nil => rfl
  | cons e events ih =>
    rw [landed] at ih ⊢
    cases e with
    | finish n => simp [List.count_cons, ih]
    | _ => simp [ih]

theorem places_eq {α : Type} (l : List α) (p : α × Nat → Bool) :
    (l.zipIdx.filterMap fun a => if p a then some a.2 else none) =
      (l.zipIdx.filter p).map (·.2) := by
  rw [← List.filterMap_eq_map, List.filterMap_filter]
  rfl

theorem mem_endable : slot ∈ endable fates ↔ ∃ f, fates[slot]? = some f ∧ f.canEnd = true := by
  rw [endable, places_eq fates fun f => f.1.canEnd]
  simp [List.mem_zipIdx_iff_getElem?, and_comm]

theorem nodup_places {α : Type} (l : List α) (p : α × Nat → Bool) :
    (l.zipIdx.filterMap fun a => if p a then some a.2 else none).Nodup := by
  rw [places_eq]
  refine (List.filter_sublist.map _).nodup ?_
  rw [List.zipIdx_map_snd]
  exact List.nodup_range'

/-- The induction over histories: what every event keeps holds of where a history leads. -/
theorem history_induction {P : List Event → Executor → Prop} {start : Executor}
    (nil : P [] start)
    (step : ∀ events x e y, start.run events = some x → P events x → x.step e = some y →
      P (events ++ [e]) y)
    (h : start.run events = some x) : P events x := by
  induction events using List.reverseRecOn generalizing x with
  | nil => exact Option.some.inj h ▸ nil
  | append_singleton events e ih =>
    rw [Executor.run, List.foldlM_append, Option.bind_eq_bind, Option.bind_eq_some_iff] at h
    obtain ⟨y, hy, h⟩ := h
    exact step events y e x hy (ih hy) (by simpa using h)

theorem quiet_iff : x.Quiet ↔ (x.step .cancel).isNone = true ∧ (x.step .complete).isNone = true ∧
    ∀ slot < x.tasks.length, (x.step (.invoke slot)).isNone = true ∧
      (x.step (.finish slot)).isNone = true ∧ (x.step (.collect slot)).isNone = true := by
  simp only [Option.isNone_iff_eq_none]
  refine ⟨fun h => ⟨h _ rfl, h _ rfl, fun slot _ => ⟨h _ rfl, h _ rfl, h _ rfl⟩⟩,
    fun ⟨hcancel, hcomplete, hslots⟩ e he => ?_⟩
  by_contra hne
  obtain ⟨y, hy⟩ := Option.ne_none_iff_exists'.mp hne
  rcases step_cases hy with ⟨before, t, after, next, hleaves, htasks, -⟩ | ⟨rfl, -⟩ | ⟨rfl, -⟩ |
    ⟨rfl, -⟩ | ⟨rfl, -⟩
  · obtain ⟨hinvoke, hfinish, hcollect⟩ := hslots before.length (by simp [htasks])
    cases e with
    | invoke | finish | collect =>
      obtain ⟨rfl, -⟩ := Prod.mk.inj (Option.some.inj hleaves)
      contradiction
    | raise | drop | cancel | complete => cases hleaves
  · contradiction
  · contradiction
  · exact hne hcancel
  · exact hne hcomplete

instance (x : Executor) : Decidable x.Quiet := decidable_of_iff _ quiet_iff.symm

namespace Quiet

variable (h : x.Quiet)

include h

theorem ne_waiting : ∀ t ∈ x.tasks, t.stage ≠ .waiting := by
  intro t ht hstage
  obtain ⟨slot, hslot⟩ := exists_invoke ⟨t, ht, hstage⟩
  rw [h (.invoke slot) rfl] at hslot
  contradiction

theorem ne_invoked : ∀ t ∈ x.tasks, t.fate.canEnd = true → t.stage ≠ .invoked := by
  intro t ht hend hstage
  obtain ⟨before, after, hsplit⟩ := List.append_of_mem ht
  have hfinish := isSome_finish hsplit hstage hend
  rw [h (.finish before.length) rfl] at hfinish
  contradiction

end Quiet

theorem exists_quiet (x : Executor) :
    ∃ more y, (∀ e ∈ more, e.isSignal = false) ∧ x.run more = some y ∧ y.Quiet := by
  generalize hwork : x.work = n
  induction n using Nat.strongRecOn generalizing x with
  | ind n ih =>
    by_cases hquiet : x.Quiet
    · exact ⟨[], x, by simp, rfl, hquiet⟩
    · simp only [Quiet, not_forall, ← ne_eq, Option.ne_none_iff_exists'] at hquiet
      obtain ⟨e, he, y, hy⟩ := hquiet
      have hless := work_step hy
      rw [he, if_neg Bool.false_ne_true] at hless
      obtain ⟨more, z, hmore, hrun, hz⟩ := ih y.work (by omega) y rfl
      refine ⟨e :: more, z, List.forall_mem_cons.mpr ⟨he, hmore⟩, ?_, hz⟩
      rw [Executor.run, List.foldlM_cons, hy]
      exact hrun

/-- What the state of an executor tells of the events that led to it: each of those that moved a
task happened once, and shutdown was not raised after its sender was dropped. -/
structure Chronicle (kind : Kind) (fates : List Fate) (events : List Event) (x : Executor) :
    Prop where
  kind_eq : x.kind = kind
  fates_eq : x.tasks.map (·.fate) = fates
  buffered : x.Buffered
  count_eq : ∀ e slot here, e.leaves? = some (slot, here) →
    events.count e = if x.left slot here then 1 else 0
  canEnd : ∀ t ∈ x.tasks, t.stage.rank < Stage.invoked.rank → t.fate.canEnd = true
  dropped : .drop ∈ events → x.dropped = true
  raised : x.raised = true → ∃ early late, events = early ++ .raise :: late ∧ .drop ∉ early
  invoked : x.returned.isSome = true → ∀ t ∈ x.tasks, t.stage ≠ .waiting

namespace Chronicle

theorem start (kind : Kind) (hne : fates ≠ []) : Chronicle kind fates [] (.start kind fates) where
  kind_eq := rfl
  fates_eq := by simp [Executor.start, Function.comp_def]
  buffered := buffered_start kind fates
  count_eq := by
    intro e slot here he
    rw [left_start slot here]
    rfl
  canEnd := by
    intro t ht hrank
    obtain ⟨f, -, rfl⟩ := List.mem_map.mp ht
    contradiction
  dropped := fun h => nomatch h
  raised := fun h => nomatch h
  invoked := by simp [Executor.start, hne]

theorem count_of_leaves {before after : List Task} {t : Task} {next : Stage}
    (h : Chronicle kind fates events x) (hleaves : e.leaves? = some (before.length, t.stage))
    (htasks : x.tasks = before ++ t :: after) (hrank : t.stage.rank = next.rank + 1)
    (results : List Result) : ∀ e' slot here, e'.leaves? = some (slot, here) →
      (events ++ [e]).count e' =
        if left { x with tasks := before ++ { t with stage := next } :: after, results } slot here
          then 1 else 0 := by
  intro e' slot here he'
  rw [List.count_append, List.count_singleton, h.count_eq e' slot here he',
    left_exchange htasks hrank]
  by_cases hsame : slot = before.length ∧ here = t.stage
  · obtain ⟨rfl, rfl⟩ := hsame
    obtain rfl := leaves_inj hleaves he'
    have hstill : x.left before.length t.stage = false := by simp [left, htasks]
    simp [hstill]
  · have hne : e ≠ e' := by
      rintro rfl
      obtain ⟨rfl, rfl⟩ := Prod.mk.inj (Option.some.inj (hleaves.symm.trans he'))
      exact hsame ⟨rfl, rfl⟩
    have hother : (slot == before.length && here == t.stage) = false := by
      rwa [Bool.eq_false_iff, Ne, Bool.and_eq_true, beq_iff_eq, beq_iff_eq]
    simp [hother, hne]

theorem count_of_signal (h : Chronicle kind fates events x) (hleaves : e.leaves? = none)
    (hsame : y.tasks = x.tasks) : ∀ e' slot here, e'.leaves? = some (slot, here) →
      (events ++ [e]).count e' = if y.left slot here then 1 else 0 := by
  intro e' slot here he'
  have hne : e ≠ e' := by
    rintro rfl
    rw [hleaves] at he'
    cases he'
  rw [List.count_append, List.count_singleton, if_neg (by simpa using hne), h.count_eq e' _ _ he',
    left, left, hsame, Nat.add_zero]

theorem raised_append (h : Chronicle kind fates events x) (hraised : x.raised = true) (e : Event) :
    ∃ early late, events ++ [e] = early ++ .raise :: late ∧ .drop ∉ early := by
  obtain ⟨early, late, rfl, hdrop⟩ := h.raised hraised
  exact ⟨early, late ++ [e], by simp, hdrop⟩

theorem dropped_append (h : Chronicle kind fates events x) (hne : e ≠ .drop) :
    .drop ∈ events ++ [e] → x.dropped = true := by
  intro hdrop
  rcases List.mem_append.mp hdrop with hdrop | hdrop
  · exact h.dropped hdrop
  · exact absurd (List.mem_singleton.mp hdrop).symm hne

theorem step (h : Chronicle kind fates events x) (hstep : x.step e = some y) :
    Chronicle kind fates (events ++ [e]) y := by
  have hbuffered := h.buffered.step hstep
  rcases step_cases hstep with ⟨before, t, after, next, hleaves, htasks, hrank, hend, rfl⟩ |
    ⟨rfl, hopen, rfl⟩ | ⟨rfl, rfl⟩ | ⟨rfl, -, -, hinvoked, rfl⟩ | ⟨rfl, -, hcollected, rfl⟩
  · have hfates := h.fates_eq
    have hcanEnd := h.canEnd
    have hinvoked := h.invoked
    rw [htasks] at hfates hcanEnd hinvoked
    refine ⟨h.kind_eq, by simpa using hfates, hbuffered,
      h.count_of_leaves hleaves htasks hrank _, ?_, ?_, fun hr => h.raised_append hr e, ?_⟩
    · apply forall_mem_exchange hcanEnd
      intro hlt
      by_cases hstage : t.stage = .invoked
      · exact hend hstage
      · apply hcanEnd t (by simp)
        have hne : t.stage.rank ≠ Stage.invoked.rank := fun h => hstage (Stage.rank_injective h)
        have hlt' : next.rank < Stage.invoked.rank := hlt
        omega
    · apply h.dropped_append
      rintro rfl
      cases hleaves
    · intro hr
      apply forall_mem_exchange (hinvoked hr)
      intro hwaiting
      have hnext : next.rank = Stage.waiting.rank := congrArg Stage.rank hwaiting
      have hle : t.stage.rank ≤ Stage.waiting.rank := t.stage.rank_le
      omega
  · refine ⟨h.kind_eq, h.fates_eq, hbuffered, h.count_of_signal rfl rfl, h.canEnd,
      h.dropped_append (fun h => nomatch h), fun _ => ⟨events, [], rfl, fun hdrop => ?_⟩,
      h.invoked⟩
    rw [h.dropped hdrop] at hopen
    contradiction
  · exact ⟨h.kind_eq, h.fates_eq, hbuffered, h.count_of_signal rfl rfl, h.canEnd, fun _ => rfl,
      fun hr => h.raised_append hr .drop, h.invoked⟩
  · exact ⟨h.kind_eq, h.fates_eq, hbuffered, h.count_of_signal rfl rfl, h.canEnd,
      h.dropped_append (fun h => nomatch h), fun hr => h.raised_append hr .cancel,
      fun _ => hinvoked⟩
  · refine ⟨h.kind_eq, h.fates_eq, hbuffered, h.count_of_signal rfl rfl, h.canEnd,
      h.dropped_append (fun h => nomatch h), fun hr => h.raised_append hr .complete,
      fun _ t ht hwaiting => ?_⟩
    rw [hcollected t ht] at hwaiting
    contradiction

theorem of_run (hne : fates ≠ []) (h : (Executor.start kind fates).run events = some x) :
    Chronicle kind fates events x :=
  history_induction (.start kind hne) (fun _ _ _ _ _ hx hstep => hx.step hstep) h

variable (h : Chronicle kind fates events x)

include h

theorem length_tasks : x.tasks.length = fates.length := by
  rw [← h.fates_eq, List.length_map]

theorem count_le_one (he : e.leaves? = some (slot, here)) : events.count e ≤ 1 := by
  rw [h.count_eq e slot here he]
  split
  · exact Nat.le_refl 1
  · exact Nat.zero_le 1

theorem mem_iff (he : e.leaves? = some (slot, here)) : e ∈ events ↔ x.left slot here = true := by
  rw [← List.count_pos_iff, h.count_eq e slot here he]
  split
  · rename_i hleft
    simp [hleft]
  · rename_i hleft
    simp [hleft]

theorem lt_length (he : e.leaves? = some (slot, here)) (hmem : e ∈ events) :
    slot < fates.length := by
  obtain ⟨t, ht, -⟩ := left_eq_true.mp ((h.mem_iff he).mp hmem)
  rw [← h.length_tasks]
  exact (List.getElem?_eq_some_iff.mp ht).1

theorem count_invoke_eq_zero (hslot : fates.length ≤ slot) : events.count (.invoke slot) = 0 :=
  List.count_eq_zero.mpr fun hmem => Nat.not_lt.mpr hslot (h.lt_length rfl hmem)

theorem count_invoke_eq_one (hinvoked : ∀ t ∈ x.tasks, t.stage ≠ .waiting)
    (hslot : slot < fates.length) : events.count (.invoke slot) = 1 := by
  rw [← h.length_tasks] at hslot
  rw [h.count_eq _ slot .waiting rfl, if_pos]
  refine left_eq_true.mpr ⟨_, List.getElem?_eq_getElem hslot, ?_⟩
  have hstage := hinvoked _ (List.getElem_mem hslot)
  have hrank : x.tasks[slot].stage.rank ≠ Stage.waiting.rank :=
    fun hr => hstage (Stage.rank_injective hr)
  have hle := x.tasks[slot].stage.rank_le
  omega

theorem nodup_landed : (landed events).Nodup := by
  refine List.nodup_iff_count_le_one.mpr fun slot => ?_
  rw [count_landed]
  exact h.count_le_one rfl

theorem mem_landed_iff : slot ∈ landed events ↔
    ∃ t, x.tasks[slot]? = some t ∧ t.stage.rank < Stage.invoked.rank := by
  rw [mem_landed, h.mem_iff rfl, left_eq_true]

theorem landed_subset : landed events ⊆ endable fates := by
  intro slot hslot
  obtain ⟨t, ht, hrank⟩ := h.mem_landed_iff.mp hslot
  have hfate : fates[slot]? = some t.fate := by rw [← h.fates_eq, List.getElem?_map, ht]; rfl
  exact mem_endable.mpr ⟨t.fate, hfate, h.canEnd t (List.mem_of_getElem? ht) hrank⟩

theorem landed_perm (hquiet : x.Quiet) : (landed events).Perm (endable fates) := by
  have hnodup : (endable fates).Nodup := nodup_places fates fun f => f.1.canEnd
  refine (List.perm_ext_iff_of_nodup h.nodup_landed hnodup).mpr fun slot =>
    ⟨fun hslot => h.landed_subset hslot, fun hslot => ?_⟩
  obtain ⟨f, hf, hend⟩ := mem_endable.mp hslot
  rw [← h.fates_eq, List.getElem?_map, Option.map_eq_some_iff] at hf
  obtain ⟨t, ht, rfl⟩ := hf
  have hmem := List.mem_of_getElem? ht
  refine h.mem_landed_iff.mpr ⟨t, ht, ?_⟩
  cases hstage : t.stage with
  | waiting => exact absurd hstage (hquiet.ne_waiting t hmem)
  | invoked => exact absurd hstage (hquiet.ne_invoked t hmem hend)
  | ended | collected => decide

theorem completed_eq : x.completed = (answered fates events).length := by
  have hcollected : ∀ a ∈ x.tasks.zipIdx,
      (.collect a.2 ∈ events ↔ a.1.stage = .collected) := by
    rintro ⟨t, slot⟩ ht
    have ht' : x.tasks[slot]? = some t := List.mem_zipIdx_iff_getElem?.mp ht
    rw [h.mem_iff rfl, left_eq_true]
    simp only [ht', Option.some.injEq, exists_eq_left']
    cases t.stage <;> decide
  rw [answered, places_eq fates fun f => f.1.result.isSome && events.contains (.collect f.2),
    List.length_map, ← List.countP_eq_length_filter, ← h.fates_eq, List.zipIdx_map, List.countP_map,
    completed, h.buffered, List.countP_map, ← List.zipIdx_map_fst 0 x.tasks, List.countP_map,
    List.zipIdx_map_fst]
  refine List.countP_congr fun a ha => ?_
  by_cases hstage : a.1.stage = .collected
  · simp [Task.kept, hstage, hcollected a ha]
  · simp [Task.kept, hstage, hcollected a ha]

theorem answered_subset : answered fates events ⊆ landed events := by
  intro slot hslot
  rw [answered,
    places_eq fates fun f => f.1.result.isSome && events.contains (.collect f.2)] at hslot
  obtain ⟨⟨f, n⟩, hf, rfl⟩ := List.mem_map.mp hslot
  obtain ⟨-, hp⟩ := List.mem_filter.mp hf
  rw [Bool.and_eq_true, List.contains_iff_mem, h.mem_iff rfl, left_eq_true] at hp
  obtain ⟨-, t, ht, hrank⟩ := hp
  exact h.mem_landed_iff.mpr ⟨t, ht, Nat.lt_trans hrank (by decide)⟩

theorem length_landed_le : (landed events).length ≤ fates.length := by
  have hslots : landed events ⊆ List.range fates.length := fun slot hslot =>
    List.mem_range.mpr (h.lt_length rfl (mem_landed.mp hslot))
  simpa using (List.subperm_of_subset h.nodup_landed hslots).length_le

end Chronicle

/-- A batch that was cancelled was so at some moment, and says what it had come to then. -/
theorem exists_cancel {k : Kind} {a c : Nat} (h : (Executor.start kind fates).run events = some x)
    (hreturned : x.returned = some (.error (.cancelled k a c))) :
    ∃ before after y, events = before ++ .cancel :: after ∧
      (Executor.start kind fates).run before = some y ∧ y.raised = true ∧
      (k, a, c) = (y.kind, y.tasks.length, y.completed) := by
  revert hreturned
  refine history_induction (P := fun events x => x.returned = some (.error (.cancelled k a c)) →
    ∃ before after y, events = before ++ .cancel :: after ∧
      (Executor.start kind fates).run before = some y ∧ y.raised = true ∧
      (k, a, c) = (y.kind, y.tasks.length, y.completed)) ?_ ?_ h
  · intro hreturned
    simp only [Executor.start] at hreturned
    split at hreturned
    · cases hreturned
    · cases hreturned
  · intro events x e y hx ih hstep hreturned
    have hbefore : x.returned = some (.error (.cancelled k a c)) → ∃ before after z,
        events ++ [e] = before ++ .cancel :: after ∧
        (Executor.start kind fates).run before = some z ∧ z.raised = true ∧
        (k, a, c) = (z.kind, z.tasks.length, z.completed) := by
      intro hr
      obtain ⟨before, after, z, rfl, hz⟩ := ih hr
      exact ⟨before, after ++ [e], z, by simp, hz⟩
    rcases step_cases hstep with ⟨before, t, after, next, -, -, -, -, rfl⟩ | ⟨rfl, -, rfl⟩ |
      ⟨rfl, rfl⟩ | ⟨rfl, hraised, -, -, rfl⟩ | ⟨rfl, -, -, rfl⟩
    · exact hbefore hreturned
    · exact hbefore hreturned
    · exact hbefore hreturned
    · refine ⟨events, [], x, rfl, hx, hraised, ?_⟩
      cases hreturned
      rfl
    · exact absurd (Option.some.inj hreturned) (summarize_ne_cancelled k a c)

theorem ne_waiting_of_return (he : e = .cancel ∨ e = .complete) (h : (x.step e).isSome = true) :
    ∀ t ∈ x.tasks, t.stage ≠ .waiting := by
  obtain ⟨y, hy⟩ := Option.isSome_iff_exists.mp h
  rcases step_cases hy with ⟨_, _, _, _, hleaves, -⟩ | ⟨rfl, -⟩ | ⟨rfl, -⟩ |
    ⟨-, -, -, hinvoked, -⟩ | ⟨-, -, hcollected, -⟩
  · rcases he with rfl | rfl <;> cases hleaves
  · rcases he with he | he <;> cases he
  · rcases he with he | he <;> cases he
  · exact hinvoked
  · intro t ht hwaiting
    rw [hcollected t ht] at hwaiting
    contradiction

theorem run_split {start : Executor} {before after : List Event}
    (h : start.run (before ++ e :: after) = some x) :
    ∃ y, start.run before = some y ∧ (y.step e).isSome = true := by
  rw [Executor.run, List.foldlM_append, Option.bind_eq_bind, Option.bind_eq_some_iff] at h
  obtain ⟨y, hy, h⟩ := h
  rw [List.foldlM_cons, Option.bind_eq_bind, Option.bind_eq_some_iff] at h
  obtain ⟨z, hz, -⟩ := h
  exact ⟨y, hy, Option.isSome_iff_exists.mpr ⟨z, hz⟩⟩

/-- Nothing is lost and nothing repeated on the way to `x`: each operation is invoked once before
the executor returns, a cancelled batch says how many answers it had collected, and when everything
is quiet the operations that can end have ended once, as in every other history. -/
structure Conserved (kind : Kind) (fates : List Fate) (events : List Event) (x : Executor) :
    Prop where
  invoked_le : ∀ slot, events.count (.invoke slot) ≤ if slot < fates.length then 1 else 0
  invoked : x.returned.isSome = true ∨ x.Quiet →
    ∀ slot < fates.length, events.count (.invoke slot) = 1
  invoked_first : ∀ before e after, events = before ++ e :: after → e = .cancel ∨ e = .complete →
    ∀ slot < fates.length, before.count (.invoke slot) = 1
  cancelled : ∀ k attempted completed,
    x.returned = some (.error (.cancelled k attempted completed)) →
    ∃ before after, events = before ++ .cancel :: after ∧
      (∃ early late, before = early ++ .raise :: late ∧ .drop ∉ early) ∧
      k = kind ∧ attempted = fates.length ∧ completed = (answered fates before).length ∧
      completed ≤ (landed before).length ∧ (landed before).length ≤ fates.length
  unraised : ∀ early late, events = early ++ .drop :: late → .raise ∉ early →
    ∀ k attempted completed, x.returned ≠ some (.error (.cancelled k attempted completed))
  landed_once : (landed events).Nodup ∧ landed events ⊆ endable fates
  quiets : ((events.countP fun e => !e.isSignal) ≤ 3 * fates.length + 1) ∧
    ∃ more y, (∀ e ∈ more, e.isSignal = false) ∧ x.run more = some y ∧ y.Quiet
  landed_all : x.Quiet → (landed events).Perm (endable fates)
  unchanged : x.Quiet → ∀ events' y, (Executor.start kind fates).run events' = some y → y.Quiet →
    (landed events).Perm (landed events') ∧
    ∀ effect, Commuting (endable fates) effect → ∀ c,
      (aftermath effect (landed events) c).SameInstances (aftermath effect (landed events') c)

theorem conserved_of_run (hne : fates ≠ [])
    (hrun : (Executor.start kind fates).run events = some x) :
    Conserved kind fates events x := by
  have h := Chronicle.of_run hne hrun
  have hcancel : ∀ k attempted completed,
      x.returned = some (.error (.cancelled k attempted completed)) →
      ∃ before after, events = before ++ .cancel :: after ∧
        (∃ early late, before = early ++ .raise :: late ∧ .drop ∉ early) ∧
        k = kind ∧ attempted = fates.length ∧ completed = (answered fates before).length ∧
        completed ≤ (landed before).length ∧ (landed before).length ≤ fates.length := by
    intro k attempted completed hreturned
    obtain ⟨before, after, y, hsplit, hy, hraised, hcounts⟩ := exists_cancel hrun hreturned
    have hbefore := Chronicle.of_run hne hy
    obtain ⟨rfl, rfl, rfl⟩ : k = y.kind ∧ attempted = y.tasks.length ∧ completed = y.completed := by
      simpa using hcounts
    refine ⟨before, after, hsplit, hbefore.raised hraised, hbefore.kind_eq, hbefore.length_tasks,
      hbefore.completed_eq, ?_, hbefore.length_landed_le⟩
    rw [hbefore.completed_eq]
    exact (List.subperm_of_subset (nodup_places _ _) hbefore.answered_subset).length_le
  refine ⟨?_, ?_, ?_, hcancel, ?_, ⟨h.nodup_landed, h.landed_subset⟩, ⟨?_, exists_quiet x⟩,
    h.landed_perm, ?_⟩
  · intro slot
    split
    · exact h.count_le_one rfl
    · rename_i hslot
      exact Nat.le_of_eq (h.count_invoke_eq_zero (Nat.le_of_not_lt hslot))
  · intro hend slot hslot
    exact h.count_invoke_eq_one (hend.elim h.invoked Quiet.ne_waiting) hslot
  · rintro before e after rfl he slot hslot
    obtain ⟨y, hy, hstep⟩ := run_split hrun
    exact (Chronicle.of_run hne hy).count_invoke_eq_one (ne_waiting_of_return he hstep) hslot
  · intro early late hdrop hraise k attempted completed hreturned
    obtain ⟨before, after, hsplit, ⟨early', late', rfl, hopen⟩, -⟩ := hcancel _ _ _ hreturned
    have hsame : (early' ++ [.raise]) ++ (late' ++ .cancel :: after) = early ++ .drop :: late := by
      simpa using hsplit.symm.trans hdrop
    rcases List.append_eq_append_iff.mp hsame with ⟨front, rfl, -⟩ | ⟨front, hfront, hrest⟩
    · exact hraise (by simp)
    · cases front with
      | nil =>
        rw [List.append_nil] at hfront
        exact hraise (hfront ▸ List.mem_append_right early' (List.mem_singleton_self _))
      | cons e front =>
        obtain ⟨rfl, -⟩ := List.cons.inj hrest
        have hmem : .drop ∈ early' ++ [.raise] := by simp [hfront]
        simp [hopen] at hmem
  · have hwork := work_run hrun
    have hbound := work_start_le kind fates
    omega
  · intro hquiet events' y hy hquiet'
    have hperm : (landed events).Perm (landed events') :=
      (h.landed_perm hquiet).trans ((Chronicle.of_run hne hy).landed_perm hquiet').symm
    exact ⟨hperm, fun effect hcomm c => aftermath_perm hcomm hperm h.landed_subset c⟩

/-- Four deletions, of which one breaks off and one hangs: shutdown comes when one answer is
collected and two operations have ended. What is left is what is left without shutdown. -/
theorem conserved_of_run_cancelled :
    let fates : List Fate := [.answers (.ok ()), .breaksOff, .hangs, .answers (.ok ())]
    let events : List Event := [.invoke 0, .invoke 1, .finish 1, .raise, .invoke 2, .invoke 3,
      .finish 0, .collect 0, .drop, .cancel, .finish 3]
    let events' : List Event := [.invoke 0, .invoke 1, .invoke 2, .invoke 3, .finish 3, .finish 0,
      .collect 0, .finish 1, .collect 3, .collect 1]
    let key : Nat → Key := fun slot =>
      ⟨"shop", if slot = 0 then "a" else if slot = 1 then "b" else "c"⟩
    let effect : Nat → Cluster → Cluster := fun slot => (Mutation.delete (key slot)).land
    ∃ x y, (Executor.start .delete fates).run events = some x ∧
      (Executor.start .delete fates).run events' = some y ∧ x.Quiet ∧ y.Quiet ∧
      x.returned = some (.error (.cancelled .delete 4 1)) ∧ y.returned = none ∧
      (landed events).Perm (landed events') ∧
      ∀ c, (aftermath effect (landed events) c).SameInstances
        (aftermath effect (landed events') c) := by
  intro fates events events' key effect
  obtain ⟨x, hx⟩ : ∃ x, (Executor.start .delete fates).run events = some x := ⟨_, rfl⟩
  obtain ⟨y, hy⟩ : ∃ y, (Executor.start .delete fates).run events' = some y := ⟨_, rfl⟩
  have hquiet : x.Quiet := by
    obtain rfl := Option.some.inj hx
    decide
  have hquiet' : y.Quiet := by
    obtain rfl := Option.some.inj hy
    decide
  have hreturned : x.returned = some (.error (.cancelled .delete 4 1)) := by
    obtain rfl := Option.some.inj hx
    rfl
  have hwaiting : y.returned = none := by
    obtain rfl := Option.some.inj hy
    rfl
  have hcomm : Commuting (endable fates) effect := .of_calls (by decide)
  obtain ⟨hperm, hsame⟩ :=
    (conserved_of_run (by decide) hx).unchanged hquiet events' y hy hquiet'
  exact ⟨x, y, hx, hy, hquiet, hquiet', hreturned, hwaiting, hperm, hsame effect hcomm⟩

end Executor

end Batch

end ReplicaController

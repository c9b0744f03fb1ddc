import ReplicaController.Proofs.Batch.Progress
import ReplicaController.Proofs.Store.Served

/-!
# What a batch does to the cluster

A batch of creations adds one stamped instance for each slot that is done, behind all others, and
removes none. A batch of deletions removes the instances under the keys of the slots that are done
and adds none. In calm every deletion of an instance that is there gets done, and every creation
unless its last name is taken, which an event records.
-/

namespace ReplicaController

namespace Cluster

def grow (c : Cluster) (added : List Instance) : Cluster :=
  { c with instances := c.instances ++ added }

def without (c : Cluster) (keys : List Key) : Cluster :=
  { c with instances := c.instances.filter fun i => !keys.contains i.key }

theorem grow_nil (c : Cluster) : c.grow [] = c := by
  simp [grow]

theorem addInstance_grow (c : Cluster) (added : List Instance) (i : Instance) :
    (c.grow added).addInstance i = c.grow (added ++ [i]) := by
  simp [grow, addInstance]

theorem without_nil (c : Cluster) : c.without [] = c := by
  simp [without]

theorem without_congr (c : Cluster) {keys keys' : List Key} (h : ∀ k, k ∈ keys ↔ k ∈ keys') :
    c.without keys = c.without keys' := by
  unfold without
  congr 1
  apply List.filter_congr
  intro i _
  simp [h i.key]

theorem removeInstance_without (c : Cluster) (keys : List Key) (key : Key) :
    (c.without keys).removeInstance key = c.without (key :: keys) := by
  unfold without removeInstance
  congr 1
  rw [List.filter_filter]
  apply List.filter_congr
  intro i _
  rw [List.contains_cons, Bool.not_or]

theorem hasInstance_without {c : Cluster} {keys : List Key} {key : Key} (hk : key ∉ keys) :
    (c.without keys).hasInstance key = c.hasInstance key := by
  unfold without hasInstance
  rw [List.any_filter]
  congr 1
  funext i
  by_cases hi : i.key = key
  · simp [hi, hk]
  · simp [hi]

theorem Sound.without {c : Cluster} (h : c.Sound) (keys : List Key) : (c.without keys).Sound :=
  ⟨h.nodup_filter _, h.keyed⟩

end Cluster

/-- A creation gave up, because the name of its last attempt was taken too. -/
def Event.IsNameTaken (e : Event) : Prop :=
  ∃ key, e = .createFailed key (.alreadyExists .unit key)

namespace Batch

namespace Slot

def isDone : Slot → Bool
  | .finished (.ok _) => true
  | _ => false

/-- The slot creates from this stamp, as far as it still has something to do. -/
def Stamps (stamp : Stamp) : Slot → Prop
  | .calling op _ => op = .create stamp
  | .inside op _ call => op = .create stamp ∧ ∃ d, call = .create (stamp.build d)
  | .finished _ => True

/-- The slot deletes under this key, as far as it still has something to do. -/
def Drops (key : Key) : Slot → Prop
  | .calling op _ => op = .delete key
  | .inside op _ call => op = .delete key ∧ call = .delete key
  | .finished _ => True

theorem isDone_of_unfinished {slot : Slot} (h : slot.isFinished = false) :
    slot.isDone = false := by
  cases slot with
  | finished outcome => contradiction
  | _ => rfl

theorem answered_create_error (stamp : Stamp) (n : Nat) (i : Instance) (e : StoreError) :
    (answered (.create stamp) n (.create i) (.error e) = (.calling (.create stamp) (n + 1), []) ∨
      answered (.create stamp) n (.create i) (.error e) =
        (.finished (.error e), [.createFailed i.key e])) := by
  unfold answered
  dsimp only
  split
  · exact .inl rfl
  · exact .inr rfl

theorem answered_delete_error (key : Key) (n : Nat) (e : StoreError) :
    (answered (.delete key) n (.delete key) (.error e)).1 = .finished (.error e) := by
  unfold answered
  dsimp only
  split <;> rfl

variable {σ : Type} {B : Backend σ} {view : σ → Cluster} {calm : σ → Prop} {slot : Slot}

theorem step_stamps (serves : B.Serves view) {stamp : Stamp} (h : slot.Stamps stamp)
    (hf : slot.isFinished = false) (s : σ) :
    (slot.step B s).1.1.Stamps stamp ∧
      ((slot.step B s).1.1.isDone = false ∧ view (slot.step B s).2 = view s ∨
        (slot.step B s).1.1.isDone = true ∧ ∃ d,
          (view s).hasInstance (stamp.build d).key = false ∧
          view (slot.step B s).2 = (view s).addInstance (stamp.build d)) := by
  have refused : ∀ n i e, (answered (.create stamp) n (.create i) (.error e)).1.Stamps stamp ∧
      (answered (.create stamp) n (.create i) (.error e)).1.isDone = false := by
    intro n i e
    rcases answered_create_error stamp n i e with ha | ha
    · rw [ha]; exact ⟨rfl, rfl⟩
    · rw [ha]; exact ⟨trivial, rfl⟩
  cases slot with
  | calling op n =>
    obtain rfl : op = .create stamp := h
    have hv := serves.enter (.create (stamp.build (B.draw s).1)) (B.draw s).2
    rw [serves.draw] at hv
    simp only [step, nextCall]
    split
    · rename_i s' he
      rw [he] at hv
      exact ⟨⟨rfl, _, rfl⟩, .inl ⟨rfl, hv⟩⟩
    · rename_i e s' he
      rw [he] at hv
      obtain ⟨hs, hd⟩ := refused n (stamp.build (B.draw s).1) e
      exact ⟨hs, .inl ⟨hd, hv⟩⟩
  | inside op n call =>
    obtain ⟨rfl, d, rfl⟩ : op = .create stamp ∧ ∃ d, call = .create (stamp.build d) := h
    simp only [step]
    rcases serves.leaveCreate (stamp.build d) s with ⟨e, ha, hv⟩ | ⟨ha, hn, hv⟩
    · obtain ⟨hs, hd⟩ := refused n (stamp.build d) e
      rw [ha]
      exact ⟨hs, .inl ⟨hd, hv⟩⟩
    · rw [ha]
      exact ⟨trivial, .inr ⟨rfl, d, hn, hv⟩⟩
  | finished outcome => contradiction

theorem step_stamps_calm (grants : B.Grants view calm) {stamp : Stamp} (h : slot.Stamps stamp)
    (hf : slot.isFinished = false) {s : σ} (hc : calm s) :
    calm (slot.step B s).2 ∧ ((slot.step B s).1.1.isFinished = true →
      (slot.step B s).1.1.isDone = true ∨ ∃ e ∈ (slot.step B s).1.2, e.IsNameTaken) := by
  cases slot with
  | calling op n =>
    obtain rfl : op = .create stamp := h
    have hd := grants.calm_draw s hc
    have ha := grants.enters (.create (stamp.build (B.draw s).1)) _ hd
    have hc' := grants.calm_enter (.create (stamp.build (B.draw s).1)) _ hd
    simp only [step, nextCall]
    split
    · rename_i s' he
      rw [he] at hc'
      exact ⟨hc', fun hfin => nomatch hfin⟩
    · rename_i e s' he
      rw [he] at ha
      contradiction
  | inside op n call =>
    obtain ⟨rfl, d, rfl⟩ : op = .create stamp ∧ ∃ d, call = .create (stamp.build d) := h
    simp only [step]
    refine ⟨grants.calm_leave _ s hc, ?_⟩
    rw [grants.creates (stamp.build d) s hc]
    split
    · rcases answered_create_error stamp n (stamp.build d)
        (.alreadyExists .unit (stamp.build d).key) with ha | ha
      · rw [ha]; exact fun hfin => nomatch hfin
      · rw [ha]; exact fun _ => .inr ⟨_, List.mem_singleton.mpr rfl, _, rfl⟩
    · exact fun _ => .inl rfl
  | finished outcome => contradiction

theorem step_drops (serves : B.Serves view) {key : Key} (h : slot.Drops key)
    (hf : slot.isFinished = false) (s : σ) :
    (slot.step B s).1.1.Drops key ∧
      ((slot.step B s).1.1.isDone = false ∧ view (slot.step B s).2 = view s ∨
        (slot.step B s).1.1.isDone = true ∧
          view (slot.step B s).2 = (view s).removeInstance key) := by
  cases slot with
  | calling op n =>
    obtain rfl : op = .delete key := h
    have hv := serves.enter (.delete key) s
    simp only [step, nextCall]
    split
    · rename_i s' he
      rw [he] at hv
      exact ⟨⟨rfl, rfl⟩, .inl ⟨rfl, hv⟩⟩
    · rename_i e s' he
      rw [he] at hv
      rw [answered_delete_error]
      exact ⟨trivial, .inl ⟨rfl, hv⟩⟩
  | inside op n call =>
    obtain ⟨rfl, rfl⟩ : op = .delete key ∧ call = .delete key := h
    simp only [step]
    rcases serves.leaveDelete key s with ⟨e, ha, hv⟩ | ⟨ha, hv⟩
    · rw [ha, answered_delete_error]
      exact ⟨trivial, .inl ⟨rfl, hv⟩⟩
    · rw [ha]
      exact ⟨trivial, .inr ⟨rfl, hv⟩⟩
  | finished outcome => contradiction

theorem step_drops_calm (grants : B.Grants view calm) {key : Key} (h : slot.Drops key)
    (hf : slot.isFinished = false) {s : σ} (hc : calm s)
    (hk : (view s).hasInstance key = true) :
    calm (slot.step B s).2 ∧
      ((slot.step B s).1.1.isFinished = true → (slot.step B s).1.1.isDone = true) := by
  cases slot with
  | calling op n =>
    obtain rfl : op = .delete key := h
    have ha := grants.enters (.delete key) s hc
    have hc' := grants.calm_enter (.delete key) s hc
    simp only [step, nextCall]
    split
    · rename_i s' he
      rw [he] at hc'
      exact ⟨hc', fun hfin => nomatch hfin⟩
    · rename_i e s' he
      rw [he] at ha
      contradiction
  | inside op n call =>
    obtain ⟨rfl, rfl⟩ : op = .delete key ∧ call = .delete key := h
    simp only [step]
    refine ⟨grants.calm_leave _ s hc, ?_⟩
    rw [grants.deletes key s hc hk]
    exact fun _ => rfl
  | finished outcome => contradiction

end Slot

variable {σ : Type} {B : Backend σ} {view : σ → Cluster} {calm : σ → Prop}

theorem callsKeep_workloads (serves : B.Serves view) (m : SortedMap Key Workload) :
    CallsKeep B fun s => (view s).workloads = m where
  enter c s h := by rw [serves.enter]; exact h
  leave c s h := by
    cases c with
    | create i =>
      rcases serves.leaveCreate i s with ⟨e, -, hv⟩ | ⟨-, -, hv⟩
      · exact hv ▸ h
      · exact hv ▸ h
    | delete key =>
      rcases serves.leaveDelete key s with ⟨e, -, hv⟩ | ⟨-, hv⟩
      · exact hv ▸ h
      · exact hv ▸ h
  draw s h := by rw [serves.draw]; exact h

theorem callsKeep_sound (serves : B.Serves view) : CallsKeep B fun s => (view s).Sound where
  enter c s h := by rw [serves.enter]; exact h
  leave c s h := by
    cases c with
    | create i =>
      rcases serves.leaveCreate i s with ⟨e, -, hv⟩ | ⟨-, hnew, hv⟩
      · exact hv ▸ h
      · exact hv ▸ h.addInstance hnew
    | delete key =>
      rcases serves.leaveDelete key s with ⟨e, -, hv⟩ | ⟨-, hv⟩
      · exact hv ▸ h
      · exact hv ▸ h.removeInstance key
  draw s h := by rw [serves.draw]; exact h

theorem callsKeep_calm (grants : B.Grants view calm) : CallsKeep B calm :=
  ⟨grants.calm_enter, grants.calm_leave, grants.calm_draw⟩

theorem callsKeep_time {time : σ → Instant} (clocked : B.Clocked time) (t : Instant) :
    CallsKeep B fun s => time s = t :=
  ⟨fun c s h => (clocked.enter c s).trans h, fun c s h => (clocked.leave c s).trans h,
    fun s h => (clocked.draw s).trans h⟩

/-- How far a batch of `n` creations from `stamp` on the cluster `c` has come. -/
structure Creating (stamp : Stamp) (n : Nat) (c : Cluster) (p : Progress) (now : Cluster) :
    Prop where
  length_eq : p.slots.length = n
  stamps : ∀ slot ∈ p.slots, slot.Stamps stamp
  sound : now.Sound
  grown : ∃ added, now = c.grow added ∧ added.length = p.slots.countP Slot.isDone ∧
    ∀ i ∈ added, ∃ d, i = stamp.build d

theorem Creating.start {c : Cluster} (sound : c.Sound) (stamp : Stamp) (n : Nat) :
    Creating stamp n c (.start (List.replicate n (.create stamp))) c where
  length_eq := by simp [Progress.start]
  stamps := by
    intro slot hs
    simp only [Progress.start, List.map_replicate, List.mem_replicate] at hs
    exact hs.2 ▸ rfl
  sound := sound
  grown := by
    refine ⟨[], c.grow_nil.symm, ?_, by simp⟩
    simp [Progress.start, Slot.start, List.countP_replicate, Slot.isDone]

theorem Creating.step (serves : B.Serves view) {stamp : Stamp} {n : Nat} {c : Cluster}
    {before after : List Slot} {slot : Slot} {events : List Event} {s : σ}
    (hf : slot.isFinished = false)
    (h : Creating stamp n c ⟨before ++ slot :: after, events⟩ (view s)) :
    Creating stamp n c ⟨before ++ (slot.step B s).1.1 :: after, events ++ (slot.step B s).1.2⟩
      (view (slot.step B s).2) := by
  obtain ⟨hlength, hstamps, hsound, added, hview, hcount, hbuilt⟩ := h
  obtain ⟨hslot, heffect⟩ := Slot.step_stamps serves (hstamps slot (by simp)) hf s
  have hlength' : (before ++ (slot.step B s).1.1 :: after).length = n := by
    simpa using hlength
  have hstamps' : ∀ t ∈ before ++ (slot.step B s).1.1 :: after, t.Stamps stamp :=
    forall_mem_exchange hstamps hslot
  simp only [List.countP_append, List.countP_cons, Slot.isDone_of_unfinished hf] at hcount
  rcases heffect with ⟨hd, hv⟩ | ⟨hd, d, hnew, hv⟩
  · refine ⟨hlength', hstamps', hv ▸ hsound, added, hv.trans hview, ?_, hbuilt⟩
    simp only [List.countP_append, List.countP_cons, hd]
    exact hcount
  · refine ⟨hlength', hstamps', hv ▸ hsound.addInstance hnew, added ++ [stamp.build d], ?_, ?_, ?_⟩
    · rw [hv, hview, Cluster.addInstance_grow]
    · simp only [List.countP_append, List.countP_cons, hd, List.length_append, List.length_cons,
        List.length_nil, Bool.false_eq_true, if_false, if_true] at hcount ⊢
      omega
    · intro i hi
      rcases List.mem_append.mp hi with hi | hi
      · exact hbuilt i hi
      · exact ⟨d, List.mem_singleton.mp hi⟩

/-- Every creation that came to its end is done, or an event says that it gave up. -/
def Progress.Excused (p : Progress) : Prop :=
  ∀ slot ∈ p.slots, slot.isFinished = true → slot.isDone = true ∨ ∃ e ∈ p.events, e.IsNameTaken

theorem Progress.Excused.step (grants : B.Grants view calm) {stamp : Stamp}
    {before after : List Slot} {slot : Slot} {events : List Event} {s : σ}
    (hf : slot.isFinished = false) (hs : slot.Stamps stamp) (hc : calm s)
    (h : Excused ⟨before ++ slot :: after, events⟩) :
    Excused ⟨before ++ (slot.step B s).1.1 :: after, events ++ (slot.step B s).1.2⟩ := by
  obtain ⟨-, hslot⟩ := Slot.step_stamps_calm grants hs hf hc
  have hkept : ∀ t ∈ before ++ slot :: after, t.isFinished = true → t.isDone = true ∨
      ∃ e ∈ events ++ (slot.step B s).1.2, e.IsNameTaken := by
    intro t ht hft
    rcases h t ht hft with hd | ⟨e, he, htaken⟩
    · exact .inl hd
    · exact .inr ⟨e, List.mem_append_left _ he, htaken⟩
  apply forall_mem_exchange hkept
  intro hft
  rcases hslot hft with hd | ⟨e, he, htaken⟩
  · exact .inl hd
  · exact .inr ⟨e, List.mem_append_right _ he, htaken⟩

theorem run_creations (serves : B.Serves view) {s : σ} (sound : (view s).Sound) (stamp : Stamp)
    (n : Nat) (plan : Schedule) (steps : Nat) :
    let r := run B plan steps (.start (List.replicate n (.create stamp))) s
    (view r.2).Sound ∧ ∃ added, view r.2 = (view s).grow added ∧ added.length ≤ n ∧
      ∀ i ∈ added, ∃ d, i = stamp.build d := by
  intro r
  have hrun : Creating stamp n (view s) r.1 (view r.2) :=
    run_induction B (P := fun p t => Creating stamp n (view s) p (view t))
      (fun _ _ _ _ _ hf h => h.step serves hf) plan steps (.start sound stamp n)
  obtain ⟨hlength, -, hsound, added, hview, hcount, hbuilt⟩ := hrun
  have hle := List.countP_le_length (p := Slot.isDone) (l := r.1.slots)
  exact ⟨hsound, added, hview, by omega, hbuilt⟩

/-- In calm all creations come about, unless one of them gives up over its names. -/
theorem finish_creations_calm (grants : B.Grants view calm) {s : σ} (hcalm : calm s)
    (sound : (view s).Sound) (stamp : Stamp) (n : Nat) (plan : Schedule) :
    let r := finish B plan (.start (List.replicate n (.create stamp))) s
    calm r.2 ∧ ((∀ e ∈ r.1.events, ¬e.IsNameTaken) → (view r.2).Sound ∧
      ∃ added, view r.2 = (view s).grow added ∧ added.length = n ∧
        ∀ i ∈ added, ∃ d, i = stamp.build d) := by
  intro r
  have hrun : Creating stamp n (view s) r.1 (view r.2) ∧ calm r.2 ∧ r.1.Excused := by
    apply run_induction B
      (P := fun p t => Creating stamp n (view s) p (view t) ∧ calm t ∧ p.Excused)
    · rintro before slot after events t hf ⟨h, hc, hexcused⟩
      have hslot := h.stamps slot (by simp)
      exact ⟨h.step grants.toServes hf, (Slot.step_stamps_calm grants hslot hf hc).1,
        hexcused.step grants hf hslot hc⟩
    · refine ⟨.start sound stamp n, hcalm, ?_⟩
      simp [Progress.Excused, Progress.start, Slot.start, Slot.isFinished]
  obtain ⟨⟨hlength, -, hsound, added, hview, hcount, hbuilt⟩, hc, hexcused⟩ := hrun
  refine ⟨hc, fun hnames => ⟨hsound, added, hview, ?_, hbuilt⟩⟩
  have hfin : r.1.isFinished = true := finish_isFinished B plan _ s
  have hall : ∀ slot ∈ r.1.slots, slot.isDone = true := by
    intro slot hs
    rcases hexcused slot hs (List.all_eq_true.mp hfin slot hs) with hd | ⟨e, he, ht⟩
    · exact hd
    · exact absurd ht (hnames e he)
  rw [hcount, List.countP_eq_length.mpr hall, hlength]

def doneKeys (marked : List (Key × Slot)) : List Key :=
  (marked.filter (·.2.isDone)).map (·.1)

/-- How far a batch of deletions under `keys` on the cluster `c` has come, with the key of each of
its slots. -/
structure Deleting (keys : List Key) (c : Cluster) (marked : List (Key × Slot))
    (now : Cluster) : Prop where
  keys_eq : marked.map (·.1) = keys
  drops : ∀ m ∈ marked, m.2.Drops m.1
  shrunk : now = c.without (doneKeys marked)

def markedStart (keys : List Key) : List (Key × Slot) :=
  keys.map fun k => (k, .start (.delete k))

theorem map_snd_markedStart (keys : List Key) :
    (markedStart keys).map (·.2) = (Progress.start (keys.map .delete)).slots := by
  simp [markedStart, Progress.start]

theorem Deleting.start (keys : List Key) (c : Cluster) :
    Deleting keys c (markedStart keys) c where
  keys_eq := by simp [markedStart, Function.comp_def]
  drops := by
    intro m hm
    obtain ⟨k, -, rfl⟩ := List.mem_map.mp hm
    rfl
  shrunk := by
    have hnone : doneKeys (markedStart keys) = [] := by
      simp [markedStart, doneKeys, Slot.start, Slot.isDone, List.filter_map, Function.comp_def]
    rw [hnone, Cluster.without_nil]

theorem Deleting.step (serves : B.Serves view) {keys : List Key} {c : Cluster}
    {before after : List (Key × Slot)} {key : Key} {slot : Slot} {s : σ}
    (hf : slot.isFinished = false)
    (h : Deleting keys c (before ++ (key, slot) :: after) (view s)) :
    Deleting keys c (before ++ (key, (slot.step B s).1.1) :: after) (view (slot.step B s).2) := by
  obtain ⟨hkeys, hdrops, hview⟩ := h
  obtain ⟨hslot, heffect⟩ := Slot.step_drops serves (hdrops (key, slot) (by simp)) hf s
  have hnot := Slot.isDone_of_unfinished hf
  refine ⟨by simpa using hkeys, ?_, ?_⟩
  · exact forall_mem_exchange hdrops hslot
  · rcases heffect with ⟨hd, hv⟩ | ⟨hd, hv⟩
    · rw [hv, hview]
      simp [doneKeys, List.filter_append, hnot, hd]
    · rw [hv, hview, Cluster.removeInstance_without]
      apply Cluster.without_congr
      intro k
      simp only [doneKeys, List.filter_append, List.filter_cons, hnot, hd, List.map_append,
        List.map_cons, List.mem_cons, List.mem_append, if_true, Bool.false_eq_true, if_false]
      rw [or_left_comm]

theorem Deleting.hasInstance {keys : List Key} {c now : Cluster}
    {before after : List (Key × Slot)} {key : Key} {slot : Slot} (hf : slot.isFinished = false)
    (h : Deleting keys c (before ++ (key, slot) :: after) now) (hnodup : keys.Nodup)
    (hthere : ∀ k ∈ keys, c.hasInstance k = true) : now.hasInstance key = true := by
  obtain ⟨rfl, -, rfl⟩ := h
  have hpending : key ∉ doneKeys (before ++ (key, slot) :: after) := by
    simp only [List.map_append, List.map_cons, List.nodup_append, List.nodup_cons] at hnodup
    obtain ⟨-, ⟨hafter, -⟩, hbefore⟩ := hnodup
    simp only [doneKeys, List.filter_append, List.filter_cons, List.map_append,
      Slot.isDone_of_unfinished hf]
    intro hk
    rcases List.mem_append.mp hk with hk | hk
    · exact hbefore key ((List.filter_sublist.map _).subset hk) key (by simp) rfl
    · exact hafter ((List.filter_sublist.map _).subset hk)
  rw [Cluster.hasInstance_without hpending]
  exact hthere key (by simp)

theorem exists_marked_split {marked : List (Key × Slot)} {before after : List Slot} {slot : Slot}
    (h : marked.map (·.2) = before ++ slot :: after) :
    ∃ mb key ma, marked = mb ++ (key, slot) :: ma ∧ mb.map (·.2) = before ∧
      ma.map (·.2) = after := by
  obtain ⟨mb, rest, rfl, rfl, hrest⟩ := List.map_eq_append_iff.mp h
  obtain ⟨⟨key, t⟩, ma, rfl, rfl, rfl⟩ := List.map_eq_cons_iff.mp hrest
  exact ⟨mb, key, ma, rfl, rfl, rfl⟩

theorem run_deletions (serves : B.Serves view) (keys : List Key) (plan : Schedule) (steps : Nat)
    (s : σ) :
    let r := run B plan steps (.start (keys.map .delete)) s
    ∃ removed, removed.Sublist keys ∧ view r.2 = (view s).without removed := by
  intro r
  have hrun : ∃ marked, marked.map (·.2) = r.1.slots ∧
      Deleting keys (view s) marked (view r.2) := by
    apply run_induction B
      (P := fun p t =>
        ∃ marked, marked.map (·.2) = p.slots ∧ Deleting keys (view s) marked (view t))
    · rintro before slot after events t hf ⟨marked, hslots, h⟩
      obtain ⟨mb, key, ma, rfl, rfl, rfl⟩ := exists_marked_split hslots
      exact ⟨_, by simp, h.step serves hf⟩
    · exact ⟨_, map_snd_markedStart keys, .start keys (view s)⟩
  obtain ⟨marked, -, rfl, -, hview⟩ := hrun
  exact ⟨doneKeys marked, List.filter_sublist.map _, hview⟩

theorem finish_deletions_calm (grants : B.Grants view calm) {s : σ} (hcalm : calm s)
    {keys : List Key} (hnodup : keys.Nodup) (hthere : ∀ k ∈ keys, (view s).hasInstance k = true)
    (plan : Schedule) :
    let r := finish B plan (.start (keys.map .delete)) s
    calm r.2 ∧ view r.2 = (view s).without keys := by
  intro r
  have hrun : calm r.2 ∧ ∃ marked, marked.map (·.2) = r.1.slots ∧
      Deleting keys (view s) marked (view r.2) ∧
      ∀ m ∈ marked, m.2.isFinished = true → m.2.isDone = true := by
    apply run_induction B (P := fun p t => calm t ∧ ∃ marked, marked.map (·.2) = p.slots ∧
      Deleting keys (view s) marked (view t) ∧
      ∀ m ∈ marked, m.2.isFinished = true → m.2.isDone = true)
    · rintro before slot after events t hf ⟨hc, marked, hslots, h, hends⟩
      obtain ⟨mb, key, ma, rfl, rfl, rfl⟩ := exists_marked_split hslots
      obtain ⟨hc', hend⟩ := Slot.step_drops_calm grants (h.drops (key, slot) (by simp)) hf hc
        (h.hasInstance hf hnodup hthere)
      refine ⟨hc', _, by simp, h.step grants.toServes hf, ?_⟩
      exact forall_mem_exchange hends hend
    · refine ⟨hcalm, _, map_snd_markedStart keys, .start keys (view s), ?_⟩
      simp [markedStart, Slot.start, Slot.isFinished]
  obtain ⟨hc, marked, hslots, ⟨hkeys, -, hview⟩, hends⟩ := hrun
  have hfin : r.1.isFinished = true := finish_isFinished B plan _ s
  have hall : ∀ m ∈ marked, m.2.isDone = true := by
    intro m hm
    apply hends m hm
    apply List.all_eq_true.mp hfin
    rw [← hslots]
    exact List.mem_map_of_mem hm
  have hdone : doneKeys marked = keys := by
    rw [doneKeys, List.filter_eq_self.mpr hall, hkeys]
  exact ⟨hc, hdone ▸ hview⟩

end Batch

end ReplicaController

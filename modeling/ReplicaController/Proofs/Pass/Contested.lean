import ReplicaController.Proofs.Pass.Intruders
import ReplicaController.Proofs.Store.Versions

/-!
# Passes over contested records

Here other actors ask anything of the store before any call of a pass, and a log tells what they
asked, what the pass was given for its workload, and what its own calls added, removed or wrote. A
status is written where the stored version is that of the copy, and versions start anew with each
record. So a status goes to the workload it was counted for, unless another actor has put a record
in its place since.
-/

namespace ReplicaController

def Cluster.missing (c c' : Cluster) : List Instance :=
  c.instances.filter fun i => !c'.hasInstance i.key

inductive Incident
  /-- Another actor asked this of the store. -/
  | asked (r : Store.Request)
  /-- The pass was given this workload. -/
  | fetched (w : Workload)
  /-- A call of the pass added the instance. -/
  | added (i : Instance)
  /-- A call of the pass removed the instance. -/
  | removed (i : Instance)
  /-- The pass wrote the status of its copy to a stored record. -/
  | wrote (old copy : Workload)

/-- A world in which others ask of the store what they like, with the number of calls of a pass. -/
structure Contested where
  world : World
  calls : Nat
  log : List Incident

namespace Contested

def cluster (x : Contested) : Cluster := x.world.cluster

def suffer (x : Contested) (r : Store.Request) : Contested where
  world := { x.world with store := x.world.store.after r }
  calls := x.calls
  log := x.log ++ [.asked r]

/-- What the others ask before the next call. -/
def interfere (others : Nat → List Store.Request) (x : Contested) : Contested :=
  let y := (others x.calls).foldl suffer x
  { y with calls := x.calls + 1 }

/-- The world after a call of the pass, and what the log says of the call. -/
def note (x : Contested) (world : World) (happened : List Incident) : Contested :=
  { x with world, log := x.log ++ happened }

def given : Answer Workload → List Incident
  | .ok w => [.fetched w]
  | .error _ => []

def changes (c c' : Cluster) : List Incident :=
  (c.missing c').map .removed ++ (c'.missing c).map .added

/-- A status write that was answered with a record went to the one that was stored. -/
def written (c : Cluster) (copy : Workload) : Answer Workload → List Incident
  | .ok _ => ((c.workload? copy.key).map fun old => .wrote old copy).toList
  | .error _ => []

/-- The store in memory, with others before each call; what the `n`-th call meets is `others n`. -/
def backend (others : Nat → List Store.Request) : Backend Contested where
  getWorkload key x :=
    let y := x.interfere others
    let (answer, world) := World.backend.getWorkload key y.world
    (answer, y.note world (given answer))
  listWorkloads x :=
    let y := x.interfere others
    let (answer, world) := World.backend.listWorkloads y.world
    (answer, y.note world [])
  listInstances ns selector x :=
    let y := x.interfere others
    let (answer, world) := World.backend.listInstances ns selector y.world
    (answer, y.note world [])
  enter call x :=
    let y := x.interfere others
    let (answer, world) := World.backend.enter call y.world
    (answer, y.note world [])
  leave call x :=
    let y := x.interfere others
    let (answer, world) := World.backend.leave call y.world
    (answer, y.note world (changes y.cluster world.cluster))
  updateStatus copy x :=
    let y := x.interfere others
    let (answer, world) := World.backend.updateStatus copy y.world
    (answer, y.note world (written y.cluster copy answer))
  draw x :=
    let (d, world) := World.backend.draw x.world
    (d, { x with world })
  now x :=
    let (t, world) := World.backend.now x.world
    (t, { x with world })

theorem interfere_induction {P : Contested → Prop} {x : Contested}
    (hsuffer : ∀ x r, P x → P (x.suffer r)) (hcalls : ∀ x n, P x → P { x with calls := n })
    (others : Nat → List Store.Request) (h : P x) : P (x.interfere others) := by
  unfold interfere
  dsimp only
  apply hcalls
  induction others x.calls generalizing x with
  | nil => exact h
  | cons r rs ih => exact ih (hsuffer x r h)

end Contested

namespace Store

/-- Where a stored workload comes from: it was there, was put, or had its status written. -/
theorem workload?_after {s : Store} {r : Request} {key : Key} {w : Workload}
    (h : (s.after r).cluster.workload? key = some w) :
    s.cluster.workload? key = some w ∨ r = .putWorkload w ∨
      ∃ copy v, r = .updateStatus copy ∧ s.cluster.workload? key = some v ∧ v.Agrees w := by
  have hkeeps : r.KeepsWorkloads → s.cluster.workload? key = some w ∨ r = .putWorkload w ∨
      ∃ copy v, r = .updateStatus copy ∧ s.cluster.workload? key = some v ∧ v.Agrees w := by
    intro hr
    rcases after_cases hr s with ⟨copy, rfl⟩ | ⟨hworkloads, -⟩
    · obtain ⟨v, hv, hagrees⟩ := (agrees_after hr s).exists_of_some_right h
      exact .inr (.inr ⟨copy, v, rfl, hv, hagrees⟩)
    · rw [Cluster.workload?, hworkloads] at h
      exact .inl h
  cases r with
  | putWorkload v =>
    by_cases hkey : key = v.key
    · subst hkey
      have hv : (s.after (.putWorkload v)).cluster.workload? v.key = some v :=
        SortedMap.find?_insert_self _ _ _
      rw [hv] at h
      exact .inr (.inl (by rw [Option.some.inj h]))
    · exact .inl ((SortedMap.find?_insert_of_ne _ _ hkey).symm.trans h)
  | removeWorkload l => exact .inl (SortedMap.find?_of_find?_erase h)
  | _ => exact hkeeps trivial

end Store

namespace Contested

/-- The record goes back to the workload that was fetched, or to one that was put since; if others
wrote no status since, it is that workload. -/
def GoesBack (w : Workload) (late : List Incident) (old : Workload) : Prop :=
  ∃ v, (v = w ∨ .asked (.putWorkload v) ∈ late) ∧ v.Agrees old ∧
    ((∀ copy, .asked (.updateStatus copy) ∉ late) → v = old)

theorem GoesBack.refl (w : Workload) (late : List Incident) : GoesBack w late w :=
  ⟨w, .inl rfl, .refl w, fun _ => rfl⟩

theorem GoesBack.append {w old : Workload} {late : List Incident} (h : GoesBack w late old)
    (more : List Incident) : GoesBack w (late ++ more) old := by
  obtain ⟨v, hv, hagrees, hsame⟩ := h
  exact ⟨v, hv.imp_right (List.mem_append_left more), hagrees,
    fun hnone => hsame fun copy hmem => hnone copy (List.mem_append_left more hmem)⟩

/-- No status was written. -/
def Unwritten (log : List Incident) : Prop := ∀ old copy, .wrote old copy ∉ log

theorem unwritten_append {log more : List Incident} (h : Unwritten log) (hmore : Unwritten more) :
    Unwritten (log ++ more) :=
  fun old copy hmem => (List.mem_append.mp hmem).elim (h old copy) (hmore old copy)

theorem unwritten_changes (c c' : Cluster) : Unwritten (changes c c') := by
  intro old copy hmem
  simp [changes] at hmem

theorem unwritten_given (answer : Answer Workload) : Unwritten (given answer) := by
  intro old copy hmem
  cases answer <;> simp [given] at hmem

theorem unwritten_nil : Unwritten [] := fun _ _ hmem => nomatch hmem

theorem unwritten_asked (r : Store.Request) : Unwritten [.asked r] := by
  intro old copy hmem
  simp at hmem

/-- Every status write of the pass was of the workload it had fetched, and went to a record of the
same version that goes back to that workload or to what was put since. -/
def Addressed (key : Key) (log : List Incident) : Prop :=
  ∀ before old copy after, log = before ++ .wrote old copy :: after →
    ∃ w early late, before = early ++ .fetched w :: late ∧
      copy = { w with status := copy.status } ∧ w.key = key ∧ old.key = key ∧
      old.resourceVersion = w.resourceVersion ∧ GoesBack w late old

theorem Unwritten.addressed {log : List Incident} (h : Unwritten log) (key : Key) :
    Addressed key log := by
  rintro before old copy after rfl
  exact absurd (by simp) (h old copy)

theorem Unwritten.addressed_append {log : List Incident} (h : Unwritten log) {key : Key}
    {old copy : Workload}
    (hgoes : ∃ w early late, log = early ++ .fetched w :: late ∧
      copy = { w with status := copy.status } ∧ w.key = key ∧ old.key = key ∧
      old.resourceVersion = w.resourceVersion ∧ GoesBack w late old) :
    Addressed key (log ++ [.wrote old copy]) := by
  intro before old' copy' after hsplit
  rcases eq_append_cons_cases hsplit with ⟨rest, hlog⟩ | ⟨front, rfl, hfront⟩
  · exact absurd (by simp [hlog]) (h old' copy')
  · cases front with
    | nil =>
      obtain ⟨rfl, rfl⟩ := Incident.wrote.inj (List.cons.inj hfront).1
      rwa [List.append_nil]
    | cons i front =>
      have hnil := (List.cons.inj hfront).2
      simp at hnil

/-- A pass that has written no status so far. -/
structure Silent (x : Contested) : Prop where
  sound : x.cluster.Sound
  unwritten : Unwritten x.log

namespace Silent

variable {x : Contested}

theorem interfere (h : Silent x) (others : Nat → List Store.Request) :
    Silent (x.interfere others) := by
  apply interfere_induction (P := Silent) ?_ (fun _ _ ⟨hs, hu⟩ => ⟨hs, hu⟩) others h
  intro x r ⟨hsound, hunwritten⟩
  exact ⟨Store.sound_after hsound r, unwritten_append hunwritten (unwritten_asked r)⟩

theorem note (h : Silent x) {world : World} (hsound : world.cluster.Sound) {more : List Incident}
    (hmore : Unwritten more) : Silent (x.note world more) :=
  ⟨hsound, unwritten_append h.unwritten hmore⟩

theorem getWorkload (h : Silent x) (others : Nat → List Store.Request) (key : Key) :
    Silent ((backend others).getWorkload key x).2 := by
  have hcluster : (World.backend.getWorkload key (x.interfere others).world).2.cluster =
      (x.interfere others).cluster := (World.backend_serves.getWorkload key _).1
  have hy := h.interfere others
  exact hy.note (hcluster ▸ hy.sound) (unwritten_given _)

theorem listInstances (h : Silent x) (others : Nat → List Store.Request) (ns : String)
    (selector : Selector) : Silent ((backend others).listInstances ns selector x).2 := by
  have hcluster : (World.backend.listInstances ns selector (x.interfere others).world).2.cluster =
      (x.interfere others).cluster := (World.backend_serves.listInstances ns selector _).1
  have hy := h.interfere others
  exact hy.note (hcluster ▸ hy.sound) unwritten_nil

end Silent

/-- A pass that has fetched `w` and written no status so far: what is stored in the place of `w`
goes back to it or to what was put since. -/
structure Holding (w : Workload) (x : Contested) : Prop extends Silent x where
  fetched : ∃ early late, x.log = early ++ .fetched w :: late ∧
    ∀ old, x.cluster.workload? w.key = some old → GoesBack w late old

namespace Holding

variable {w : Workload} {x : Contested}

theorem go (h : Holding w x) {world : World} {n : Nat} {more : List Incident}
    (hsound : world.cluster.Sound) (hmore : Unwritten more)
    (hstored : ∀ old, world.cluster.workload? w.key = some old →
      x.cluster.workload? w.key = some old ∨ .asked (.putWorkload old) ∈ more ∨
      ∃ copy v, .asked (.updateStatus copy) ∈ more ∧ x.cluster.workload? w.key = some v ∧
        v.Agrees old) :
    Holding w ⟨world, n, x.log ++ more⟩ := by
  obtain ⟨⟨-, hunwritten⟩, early, late, hlog, hback⟩ := h
  refine ⟨⟨hsound, unwritten_append hunwritten hmore⟩, early, late ++ more, ?_, fun old hold => ?_⟩
  · rw [hlog, List.append_assoc, List.cons_append]
  · rcases hstored old hold with hsame | hput | ⟨copy, v, hwritten, hv, hagrees⟩
    · exact (hback old hsame).append more
    · exact ⟨old, .inr (List.mem_append_right late hput), .refl old, fun _ => rfl⟩
    · obtain ⟨u, hu, hagrees', -⟩ := hback v hv
      exact ⟨u, hu.imp_right (List.mem_append_left more), hagrees'.trans hagrees,
        fun hnone => absurd (List.mem_append_right late hwritten) (hnone copy)⟩

theorem interfere (h : Holding w x) (others : Nat → List Store.Request) :
    Holding w (x.interfere others) := by
  apply interfere_induction (P := Holding w) ?_ (fun _ _ ⟨⟨hs, hu⟩, hf⟩ => ⟨⟨hs, hu⟩, hf⟩) others h
  intro x r h
  refine h.go (Store.sound_after h.sound r) (unwritten_asked r) fun old hold => ?_
  rcases Store.workload?_after hold with hsame | rfl | ⟨copy, v, rfl, hv, hagrees⟩
  · exact .inl hsame
  · exact .inr (.inl (List.mem_singleton_self _))
  · exact .inr (.inr ⟨copy, v, List.mem_singleton_self _, hv, hagrees⟩)

theorem note (h : Holding w x) {world : World} (hsound : world.cluster.Sound)
    (hworkloads : world.cluster.workloads = x.cluster.workloads) {more : List Incident}
    (hmore : Unwritten more) : Holding w (x.note world more) :=
  h.go hsound hmore fun old hold => .inl (by
    rw [Cluster.workload?, hworkloads] at hold
    exact hold)

theorem of_getWorkload (h : Silent x) {others : Nat → List Store.Request} {key : Key}
    (hget : ((backend others).getWorkload key x).1 = .ok w) :
    w.key = key ∧ Holding w ((backend others).getWorkload key x).2 := by
  have hcluster : (World.backend.getWorkload key (x.interfere others).world).2.cluster =
      (x.interfere others).cluster := (World.backend_serves.getWorkload key _).1
  have hstored : (x.interfere others).cluster.workload? key = some w :=
    Store.workload?_of_getWorkload hget
  have hkey : w.key = key := (h.interfere others).sound.keyed key w hstored
  refine ⟨hkey, h.getWorkload others key, (x.interfere others).log, [], ?_, fun old hold => ?_⟩
  · exact congrArg (fun answer => (x.interfere others).log ++ given answer) hget
  · have hold' : (x.interfere others).cluster.workload? w.key = some old := hcluster ▸ hold
    rw [hkey, hstored] at hold'
    exact Option.some.inj hold' ▸ .refl w []

theorem listInstances (h : Holding w x) (others : Nat → List Store.Request) (ns : String)
    (selector : Selector) : Holding w ((backend others).listInstances ns selector x).2 := by
  have hcluster : (World.backend.listInstances ns selector (x.interfere others).world).2.cluster =
      (x.interfere others).cluster := (World.backend_serves.listInstances ns selector _).1
  have hy := h.interfere others
  exact hy.note (hcluster ▸ hy.sound) (congrArg Cluster.workloads hcluster) unwritten_nil

theorem keeps (others : Nat → List Store.Request) (w : Workload) :
    Batch.CallsKeep (backend others) (Holding w) where
  enter call x h := by
    have hcluster : (World.backend.enter call (x.interfere others).world).2.cluster =
        (x.interfere others).cluster := World.backend_serves.enter call _
    have hy := h.interfere others
    exact hy.note (hcluster ▸ hy.sound) (congrArg Cluster.workloads hcluster) unwritten_nil
  leave call x h := by
    have hy := h.interfere others
    have hsound := (Batch.callsKeep_sound World.backend_serves).leave call _ hy.sound
    have hworkloads := (Batch.callsKeep_workloads World.backend_serves _).leave call
      (x.interfere others).world rfl
    exact hy.note hsound hworkloads (unwritten_changes _ _)
  draw x h := ⟨⟨h.sound, h.unwritten⟩, h.fetched⟩

theorem updateStatus (h : Holding w x) (others : Nat → List Store.Request) {copy : Workload}
    (hcopy : copy = { w with status := copy.status }) :
    Addressed w.key ((backend others).updateStatus copy x).2.log := by
  obtain ⟨⟨hsound, hunwritten⟩, early, late, hlog, hback⟩ := h.interfere others
  have hkey : copy.key = w.key := by rw [hcopy]; rfl
  have hstate : ((backend others).updateStatus copy x).2.log = (x.interfere others).log ++
      written (x.interfere others).cluster copy
        ((x.interfere others).world.store.updateStatus copy).1 := rfl
  rw [hstate]
  rcases Store.updateStatus_cases copy (x.interfere others).world.store with
    ⟨e, he, -⟩ | ⟨stored, hstored, hversion, hok, -⟩
  · rw [he, written, List.append_nil]
    exact hunwritten.addressed w.key
  · have hstored' : (x.interfere others).cluster.workload? copy.key = some stored := hstored
    rw [hok, written, hstored']
    refine hunwritten.addressed_append ⟨w, early, late, hlog, hcopy, rfl, ?_, ?_, ?_⟩
    · exact (hsound.keyed _ _ hstored').trans hkey
    · rw [hversion, hcopy]
    · exact hback stored (hkey ▸ hstored')

end Holding

end Contested

namespace Pass

open Contested

variable {σ : Type} {B : Backend σ} {w : Workload} {s : σ}

/-- What holds behind a conclusion: what the listing and the clock keep, a pass that has nothing to
write ends with; otherwise its last call is the status write of a copy of its workload. -/
theorem conclude_induction {P Q : σ → Prop} (hlist : ∀ ns selector s, P s →
      P (B.listInstances ns selector s).2)
    (hnow : ∀ s, P s → P (B.now s).2) (hdone : ∀ s, P s → Q s)
    (hwrite : ∀ copy s, copy = { w with status := copy.status } → P s → Q (B.updateStatus copy s).2)
    (h : P s) (key : Key) (selector : Selector) (d : Adjustment) (active : List Instance)
    (error : Option ReplicaError) (events : List Event) :
    Q (conclude B key w selector d active error events s).2 := by
  have hobserved : P (observe B w selector d active s).2 := by
    rcases observe_cases B w selector d active s with ⟨-, ho⟩ | ⟨-, listed, -, ho⟩ | ⟨-, e, -, ho⟩
    · rw [ho]
      exact h
    · rw [ho]
      exact hlist w.ns selector s h
    · rw [ho]
      exact hlist w.ns selector s h
  obtain ⟨counts, hstate⟩ := conclude_snd B key w selector d active error events s
  rw [hstate, commit_snd]
  split
  · exact hwrite _ _ rfl (hnow _ hobserved)
  · exact hdone _ (hnow _ hobserved)

def contestedLog (others : Nat → List Store.Request) (config : PassConfig) (cond : Conditions)
    (key : Key) (s : World) : List Incident :=
  (run (Contested.backend others) config cond key ⟨s, 0, []⟩).2.log

theorem silent_readings {x : Contested} (h : Silent x) (others : Nat → List Store.Request)
    (key : Key) : Silent (readings (Contested.backend others) key x).2 := by
  rcases readings_snd (Contested.backend others) key x with heq | ⟨ns, selector, heq⟩
  · exact heq ▸ h.getWorkload others key
  · exact heq ▸ (h.getWorkload others key).listInstances others ns selector

theorem holding_of_readings {x y : Contested} (h : Silent x) {others : Nat → List Store.Request}
    {key : Key} {r : Readings}
    (hread : readings (Contested.backend others) key x = (.ok r, y)) :
    r.workload.key = key ∧ Holding r.workload y := by
  obtain ⟨hget, -, hlist⟩ := calls_of_readings hread
  obtain ⟨hkey, hholding⟩ := Holding.of_getWorkload h hget
  have hlisted := hholding.listInstances others r.workload.ns r.selector
  rw [hlist] at hlisted
  exact ⟨hkey, hlisted⟩

theorem writes_addressed {s : World} (reachable : s.store.Reachable)
    (others : Nat → List Store.Request) (config : PassConfig) (cond : Conditions) (key : Key) :
    Addressed key (contestedLog others config cond key s) := by
  have hstart : Silent ⟨s, 0, []⟩ := ⟨reachable.sound, unwritten_nil⟩
  unfold contestedLog
  rw [run_eq_readings]
  have hsilent := silent_readings hstart others key
  cases hread : readings (Contested.backend others) key ⟨s, 0, []⟩ with
  | mk made y =>
    rw [hread] at hsilent
    cases made with
    | error result => exact hsilent.unwritten.addressed key
    | ok r =>
      obtain ⟨rfl, hheld⟩ := holding_of_readings hstart hread
      have hbatch := batch_keeps (Holding.keeps others r.workload) config cond r hheld
      rcases act_cases (Contested.backend others) config cond r.workload.key r y with
        ⟨error, hact, -⟩ | hact
      · dsimp only
        rw [hact]
        exact conclude_induction (Q := fun x => Addressed r.workload.key x.log)
          (fun ns selector x hx => hx.listInstances others ns selector)
          (fun x hx => ⟨⟨hx.sound, hx.unwritten⟩, hx.fetched⟩)
          (fun x hx => hx.unwritten.addressed r.workload.key)
          (fun copy x hcopy hx => hx.updateStatus others hcopy) hbatch _ _ _ _ _ _
      · dsimp only
        rw [hact]
        exact hbatch.unwritten.addressed r.workload.key

/-- Just before the status is written, the workload is deleted and one with another identifier is
created under its name, at the version that the deleted one had. -/
def recreating : Nat → List Store.Request := fun n =>
  if n = 2 then [.removeWorkload ⟨"shop", "web"⟩, .putWorkload (Specimen.plain "web" 1 0)] else []

theorem exists_misdirected :
    let w := Specimen.plain "web" 0 0
    let log := contestedLog recreating ⟨5, .observed⟩ ⟨.inOrder, none⟩ w.key
      (Specimen.world (Specimen.crowd w []))
    (∃ v, .fetched v ∈ log ∧ v.uid = w.uid) ∧
      ∃ old copy, .wrote old copy ∈ log ∧ old.uid ≠ w.uid := by
  intro w log
  let isFetched : Incident → Bool
    | .fetched v => v.uid == w.uid
    | _ => false
  let isMisdirected : Incident → Bool
    | .wrote old _ => old.uid != w.uid
    | _ => false
  have hfetched : log.any isFetched = true := by decide +kernel
  have hwrote : log.any isMisdirected = true := by decide +kernel
  refine ⟨?_, ?_⟩
  · obtain ⟨i, hi, hv⟩ := List.any_eq_true.mp hfetched
    cases i with
    | fetched v => exact ⟨v, hi, by simpa [isFetched] using hv⟩
    | _ => contradiction
  · obtain ⟨i, hi, hold⟩ := List.any_eq_true.mp hwrote
    cases i with
    | wrote old copy => exact ⟨old, copy, hi, by simpa [isMisdirected] using hold⟩
    | _ => contradiction

/-- A status need not go to the workload that it was counted for, though others only put and remove
workloads under its key. -/
theorem not_writes_identified :
    ¬ ∀ (s : World) (others : Nat → List Store.Request) (config : PassConfig) (cond : Conditions)
        (key : Key), s.store.Reachable →
      (∀ n, ∀ r ∈ others n, r = .removeWorkload key ∨ ∃ v : Workload, v.key = key ∧
        r = .putWorkload v) →
      ∀ w old copy, .fetched w ∈ contestedLog others config cond key s →
        .wrote old copy ∈ contestedLog others config cond key s → old.uid = w.uid := by
  intro h
  let w := Specimen.plain "web" 0 0
  obtain ⟨⟨v, hv, huid⟩, old, copy, hwrote, hne⟩ := exists_misdirected
  have hothers : ∀ n, ∀ r ∈ recreating n, r = .removeWorkload w.key ∨ ∃ v : Workload,
      v.key = w.key ∧ r = .putWorkload v := by
    intro n r hr
    unfold recreating at hr
    split at hr
    · rcases List.mem_pair.mp hr with rfl | rfl
      · exact .inl rfl
      · exact .inr ⟨Specimen.plain "web" 1 0, rfl, rfl⟩
    · cases hr
  exact hne ((h _ recreating ⟨5, .observed⟩ ⟨.inOrder, none⟩ w.key (Specimen.reachable_crowd w [])
    hothers v old copy hv hwrote).trans huid)

/-- The status goes to the record that took the place of the fetched one, at its version. -/
theorem writes_addressed_recreated :
    let w := Specimen.plain "web" 0 0
    let s := Specimen.world (Specimen.crowd w [])
    let log := contestedLog recreating ⟨5, .observed⟩ ⟨.inOrder, none⟩ w.key s
    s.store.Reachable ∧ ∃ before old copy after, log = before ++ .wrote old copy :: after ∧
      old.uid ≠ w.uid ∧ ∃ v early late, before = early ++ .fetched v :: late ∧
        copy = { v with status := copy.status } ∧ v.key = w.key ∧ old.key = w.key ∧
        old.resourceVersion = v.resourceVersion ∧ GoesBack v late old := by
  intro w s log
  have reachable : s.store.Reachable := Specimen.reachable_crowd w []
  obtain ⟨-, old, copy, hwrote, hne⟩ := exists_misdirected
  obtain ⟨before, after, hsplit⟩ := List.append_of_mem hwrote
  exact ⟨reachable, before, old, copy, after, hsplit, hne,
    writes_addressed reachable recreating ⟨5, .observed⟩ ⟨.inOrder, none⟩ w.key before old copy
      after hsplit⟩

end Pass

end ReplicaController

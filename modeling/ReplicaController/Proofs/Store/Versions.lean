import Mathlib.Data.Nat.Count
import ReplicaController.Proofs.Specimen
import ReplicaController.Proofs.Store.Reachable

/-!
# Versions

A history of requests comes from any number of clients, whose calls interleave in any way. The
version of a stored workload counts the status writes that have succeeded, as long as no workload is
put or removed. So a copy is written exactly if none has been written since it was read, and of all
the writes from copies of one version at most one succeeds.
-/

namespace ReplicaController

namespace Store

/-- The store after the first `n` requests of a history. -/
def afterFirst (s : Store) (rs : List Request) (n : Nat) : Store := (rs.take n).foldl after s

/-- No workload is put or removed by the request. -/
def Request.KeepsWorkloads : Request → Prop
  | .putWorkload _ | .removeWorkload _ => False
  | _ => True

/-- Every version can be raised. -/
def HasRoom (s : Store) : Prop :=
  ∀ w ∈ s.cluster.workloads.values, w.resourceVersion.toNat < UInt64.size - 1

instance (s : Store) : Decidable s.HasRoom :=
  inferInstanceAs (Decidable (∀ w ∈ s.cluster.workloads.values, _))

/-- The version of the workload under a key, zero if there is none. -/
def version (s : Store) (key : Key) : Nat :=
  ((s.cluster.workload? key).map (·.resourceVersion.toNat)).getD 0

/-- The request is a status write under the key, and succeeds. -/
def writes (s : Store) (key : Key) : Request → Bool
  | .updateStatus w => w.key == key && (s.updateStatus w).1.isOk
  | _ => false

/-- The `n`-th request of the history gets a workload, and this copy is the answer. -/
def ReadAt (s : Store) (rs : List Request) (n : Nat) (copy : Workload) : Prop :=
  ∃ key, rs[n]? = some (.getWorkload key) ∧ ((s.afterFirst rs n).getWorkload key).1 = .ok copy

/-- The `n`-th request of the history writes the status of this copy, and succeeds. -/
def WroteAt (s : Store) (rs : List Request) (n : Nat) (copy : Workload) : Prop :=
  rs[n]? = some (.updateStatus copy) ∧ ((s.afterFirst rs n).updateStatus copy).1.isOk = true

/-- What a status write of the copy answers, and what it leaves of the store. -/
structure Compares (s : Store) (copy : Workload) (answer : Answer Workload) (s' : Store) :
    Prop where
  succeeds_iff : ∀ stored, s.cluster.workload? copy.key = some stored →
    s.faults.updateStatus = none →
    (answer.isOk = true ↔ copy.resourceVersion = stored.resourceVersion)
  written : ∀ w, answer = .ok w → ∃ stored, s.cluster.workload? copy.key = some stored ∧
    w = { stored with status := copy.status, resourceVersion := w.resourceVersion } ∧
    w.resourceVersion.toNat = stored.resourceVersion.toNat + 1 ∧
    s'.cluster.workload? copy.key = some w ∧
    (∀ key, key ≠ copy.key → s'.cluster.workload? key = s.cluster.workload? key) ∧
    s'.cluster.instances = s.cluster.instances ∧ s'.faults = s.faults
  refused : ∀ e, answer = .error e → s'.cluster = s.cluster ∧ s'.faults = s.faults

variable {s : Store} {rs : List Request} {key : Key} {copy : Workload}

theorem HasRoom.toNat_lt (h : s.HasRoom) {w : Workload} (hw : s.cluster.workload? key = some w) :
    w.resourceVersion.toNat < UInt64.size - 1 :=
  h w (List.mem_map_of_mem (f := Prod.snd) (SortedMap.find?_eq_some_iff.mp hw))

theorem HasRoom.toNat_succ (h : s.HasRoom) {w : Workload}
    (hw : s.cluster.workload? key = some w) :
    (w.resourceVersion + 1).toNat = w.resourceVersion.toNat + 1 := by
  have hlt := h.toNat_lt hw
  rw [UInt64.toNat_add, UInt64.toNat_one]
  apply Nat.mod_eq_of_lt
  change _ < UInt64.size
  omega

theorem version_of_some {w : Workload} (hw : s.cluster.workload? key = some w) :
    s.version key = w.resourceVersion.toNat := by
  rw [version, hw]
  rfl

theorem updateStatus_isOk_iff {stored : Workload}
    (hs : s.cluster.workload? copy.key = some stored) :
    (s.updateStatus copy).1.isOk = true ↔
      s.faults.updateStatus = none ∧ copy.resourceVersion = stored.resourceVersion := by
  unfold updateStatus
  dsimp only
  cases s.faults.updateStatus with
  | some e => simp [Except.isOk, Except.toBool]
  | none =>
    dsimp only
    rw [hs]
    dsimp only
    by_cases hv : stored.resourceVersion = copy.resourceVersion
    · simp [hv, Except.isOk, Except.toBool]
    · simp [hv, Ne.symm hv, Except.isOk, Except.toBool]

theorem updateStatus_compares (hroom : s.HasRoom) (copy : Workload) :
    s.Compares copy (s.updateStatus copy).1 (s.updateStatus copy).2 where
  succeeds_iff stored hs hfault := by simp [updateStatus_isOk_iff hs, hfault]
  written w hw := by
    rcases updateStatus_cases copy s with ⟨e, he, -⟩ | ⟨stored, hs, -, hok, hc⟩
    · rw [he] at hw
      cases hw
    · obtain rfl : stored.withStatus copy.status = w := Except.ok.inj (hok.symm.trans hw)
      refine ⟨stored, hs, rfl, hroom.toNat_succ hs, ?_, ?_, by rw [hc], faults_updateStatus copy s⟩
      · rw [hc]
        exact SortedMap.find?_insert_self _ _ _
      · intro key hkey
        rw [hc]
        exact SortedMap.find?_insert_of_ne _ _ hkey
  refused e he := by
    rcases updateStatus_cases copy s with ⟨-, -, hc⟩ | ⟨stored, -, -, hok, -⟩
    · exact ⟨hc, faults_updateStatus copy s⟩
    · rw [hok] at he
      cases he

theorem workloads_leaveCreate (i : Instance) (s : Store) :
    (s.leaveCreate i).2.cluster.workloads = s.cluster.workloads := by
  rcases leaveCreate_cases i s with ⟨e, -, hc⟩ | ⟨-, -, hc⟩
  · rw [hc]
  · rw [hc]
    rfl

theorem workloads_leaveDelete (key : Key) (s : Store) :
    (s.leaveDelete key).2.cluster.workloads = s.cluster.workloads := by
  rcases leaveDelete_cases key s with ⟨e, -, hc⟩ | ⟨-, hc⟩
  · rw [hc]
  · rw [hc]
    rfl

theorem version_updateStatus (hroom : s.HasRoom) (copy : Workload) (key : Key) :
    (s.updateStatus copy).2.version key =
      s.version key + if s.writes key (.updateStatus copy) then 1 else 0 := by
  have compares := updateStatus_compares hroom copy
  have hwrites : s.writes key (.updateStatus copy) =
      (copy.key == key && (s.updateStatus copy).1.isOk) := rfl
  rw [hwrites]
  generalize s.updateStatus copy = r at compares ⊢
  obtain ⟨answer, s'⟩ := r
  cases answer with
  | error e =>
    have hc : s'.cluster = s.cluster := (compares.refused e rfl).1
    simp [version, hc, Except.isOk, Except.toBool]
  | ok w =>
    obtain ⟨stored, hs, -, hsucc, hw, hothers, -⟩ := compares.written w rfl
    by_cases hkey : copy.key = key
    · subst hkey
      simp [version_of_some hw, version_of_some hs, hsucc, Except.isOk, Except.toBool]
    · simp [version, hothers key (Ne.symm hkey), hkey]

theorem after_cases {r : Request} (hr : r.KeepsWorkloads) (s : Store) :
    (∃ copy, r = .updateStatus copy) ∨
      (s.after r).cluster.workloads = s.cluster.workloads ∧ ∀ key, s.writes key r = false := by
  cases r with
  | updateStatus copy => exact .inl ⟨copy, rfl⟩
  | putWorkload w => exact hr.elim
  | removeWorkload key => exact hr.elim
  | getWorkload key =>
    exact .inr ⟨congrArg Cluster.workloads (cluster_getWorkload key s), fun _ => rfl⟩
  | listInstances ns selector =>
    exact .inr ⟨congrArg Cluster.workloads (cluster_listInstances ns selector s), fun _ => rfl⟩
  | leaveCreate i => exact .inr ⟨workloads_leaveCreate i s, fun _ => rfl⟩
  | leaveDelete key => exact .inr ⟨workloads_leaveDelete key s, fun _ => rfl⟩
  | putInstance _ | setPhase _ _ | setReady _ _ _ | setFaults _ | listWorkloads | enterCreate
    | enterDelete => exact .inr ⟨rfl, fun _ => rfl⟩

theorem version_after (hroom : s.HasRoom) {r : Request} (hr : r.KeepsWorkloads) (key : Key) :
    (s.after r).version key = s.version key + if s.writes key r then 1 else 0 := by
  rcases after_cases hr s with ⟨copy, rfl⟩ | ⟨hworkloads, hwrites⟩
  · exact version_updateStatus hroom copy key
  · rw [hwrites, version, version, Cluster.workload?, hworkloads]
    rfl

theorem agrees_after {r : Request} (hr : r.KeepsWorkloads) (s : Store) :
    s.cluster.Agrees (s.after r).cluster := by
  rcases after_cases hr s with ⟨copy, rfl⟩ | ⟨hworkloads, -⟩
  · rcases updateStatus_cases copy s with ⟨e, -, hc⟩ | ⟨stored, hs, -, -, hc⟩
    · exact hc ▸ .refl s.cluster
    · exact hc ▸ .of_insert hs (stored.agrees_withStatus copy.status)
  · intro key
    rw [Cluster.workload?, Cluster.workload?, hworkloads]
    exact Cluster.Agrees.refl s.cluster key

theorem afterFirst_succ {n : Nat} {r : Request} (h : rs[n]? = some r) :
    s.afterFirst rs (n + 1) = (s.afterFirst rs n).after r := by
  rw [afterFirst, List.take_add_one, h, List.foldl_append]
  rfl

theorem Reachable.afterFirst (h : s.Reachable) (rs : List Request) (n : Nat) :
    (s.afterFirst rs n).Reachable := by
  unfold Store.afterFirst
  generalize rs.take n = rs
  induction rs generalizing s with
  | nil => exact h
  | cons r rs ih => exact ih (.after r h)

/-- The writes of a history under a key, by their place in it. -/
def writesAt (s : Store) (rs : List Request) (key : Key) (n : Nat) : Bool :=
  rs[n]?.any ((s.afterFirst rs n).writes key)

theorem writesAt_of_wroteAt {n : Nat} (h : s.WroteAt rs n copy) :
    s.writesAt rs copy.key n = true := by
  rw [writesAt, h.1]
  simp [writes, h.2]

theorem wroteAt_of_writesAt {n : Nat} (h : s.writesAt rs key n = true) :
    ∃ copy, copy.key = key ∧ s.WroteAt rs n copy := by
  rw [writesAt, Option.any_eq_true] at h
  obtain ⟨r, hr, hwrites⟩ := h
  unfold writes at hwrites
  split at hwrites
  · rename_i w
    rw [Bool.and_eq_true, beq_iff_eq] at hwrites
    exact ⟨w, hwrites.1, hr, hwrites.2⟩
  · contradiction

section History

variable (hkeeps : ∀ r ∈ rs, r.KeepsWorkloads)

include hkeeps

theorem agrees_afterFirst {m n : Nat} (hmn : m ≤ n) (hn : n ≤ rs.length) :
    (s.afterFirst rs m).cluster.Agrees (s.afterFirst rs n).cluster := by
  induction n with
  | zero =>
    obtain rfl : m = 0 := Nat.le_zero.mp hmn
    exact .refl _
  | succ n ih =>
    rcases Nat.lt_or_eq_of_le hmn with hlt | rfl
    · rw [afterFirst_succ (List.getElem?_eq_getElem hn)]
      exact (ih (Nat.le_of_lt_succ hlt) (Nat.le_of_lt hn)).trans
        (agrees_after (hkeeps _ (List.getElem_mem hn)) _)
    · exact .refl _

variable (hroom : ∀ n < rs.length, (s.afterFirst rs n).HasRoom)

include hroom

/-- The version that a history leads to is the first one and the number of writes. -/
theorem version_afterFirst (key : Key) {n : Nat} (hn : n ≤ rs.length) :
    (s.afterFirst rs n).version key =
      s.version key + Nat.count (fun m => s.writesAt rs key m = true) n := by
  induction n with
  | zero => rfl
  | succ n ih =>
    have hr : rs[n]? = some rs[n] := List.getElem?_eq_getElem hn
    have hwrites : s.writesAt rs key n = (s.afterFirst rs n).writes key rs[n] := by
      rw [writesAt, hr]
      rfl
    rw [afterFirst_succ hr, version_after (hroom n hn) (hkeeps _ (List.getElem_mem hn)),
      ih (Nat.le_of_lt hn), Nat.count_succ, hwrites, Nat.add_assoc]

theorem version_eq_iff (key : Key) {m n : Nat} (hmn : m ≤ n) (hn : n ≤ rs.length) :
    (s.afterFirst rs m).version key = (s.afterFirst rs n).version key ↔
      ∀ k, m ≤ k → k < n → s.writesAt rs key k = false := by
  obtain ⟨d, rfl⟩ := Nat.exists_eq_add_of_le hmn
  have hcount : (s.afterFirst rs m).version key = (s.afterFirst rs (m + d)).version key ↔
      Nat.count (fun k => s.writesAt rs key (m + k) = true) d = 0 := by
    rw [version_afterFirst hkeeps hroom key (Nat.le_trans hmn hn),
      version_afterFirst hkeeps hroom key hn, Nat.count_add]
    omega
  rw [hcount, Nat.count_iff_forall_not]
  constructor
  · intro h k hmk hkd
    obtain ⟨e, rfl⟩ := Nat.exists_eq_add_of_le hmk
    simpa using h e (by omega)
  · intro h e he
    simpa using h (m + e) (Nat.le_add_right m e) (by omega)

end History

theorem version_of_wroteAt {n : Nat} (h : s.WroteAt rs n copy) :
    (s.afterFirst rs n).version copy.key = copy.resourceVersion.toNat := by
  rcases updateStatus_cases copy (s.afterFirst rs n) with ⟨e, he, -⟩ | ⟨stored, hs, hv, -, -⟩
  · have hok := h.2
    rw [he] at hok
    contradiction
  · rw [version_of_some hs, hv]

theorem lt_length_of_wroteAt {n : Nat} (h : s.WroteAt rs n copy) : n < rs.length :=
  (List.getElem?_eq_some_iff.mp h.1).1

theorem workload?_of_readAt (reachable : s.Reachable) {n : Nat} (h : s.ReadAt rs n copy) :
    (s.afterFirst rs n).cluster.workload? copy.key = some copy := by
  obtain ⟨key, -, hanswer⟩ := h
  have hstored := workload?_of_getWorkload hanswer
  rw [(reachable.afterFirst rs n).sound.keyed key copy hstored]
  exact hstored

/-- Whatever clients make up the history, their status writes come one after another: each
succeeds exactly if its copy is of the stored version, and so exactly if no other one succeeded
since the copy was read. -/
structure Serial (s : Store) (rs : List Request) : Prop where
  compares : ∀ n copy, rs[n]? = some (.updateStatus copy) → (s.afterFirst rs n).Compares copy
    ((s.afterFirst rs n).updateStatus copy).1 (s.afterFirst rs (n + 1))
  wroteAt_iff : ∀ i j copy w, i < j → s.ReadAt rs i copy → rs[j]? = some (.updateStatus w) →
    w.key = copy.key → w.resourceVersion = copy.resourceVersion →
    (s.WroteAt rs j w ↔ (s.afterFirst rs j).faults.updateStatus = none ∧
      ∀ k u, i < k → k < j → u.key = w.key → ¬s.WroteAt rs k u)
  eq_of_version : ∀ i j u w, s.WroteAt rs i u → s.WroteAt rs j w → u.key = w.key →
    u.resourceVersion = w.resourceVersion → i = j

theorem serial_of_reachable (reachable : s.Reachable) (hkeeps : ∀ r ∈ rs, r.KeepsWorkloads)
    (hroom : ∀ n < rs.length, (s.afterFirst rs n).HasRoom) : s.Serial rs := by
  refine ⟨?_, ?_, ?_⟩
  · intro n copy h
    rw [afterFirst_succ h]
    exact updateStatus_compares (hroom n (List.getElem?_eq_some_iff.mp h).1) copy
  · intro i j copy w hij hread hj hkey hversion
    have hlt : j < rs.length := (List.getElem?_eq_some_iff.mp hj).1
    have hcopy := workload?_of_readAt reachable hread
    obtain ⟨stored, hstored, -⟩ :=
      (agrees_afterFirst hkeeps (Nat.le_of_lt hij) (Nat.le_of_lt hlt)).exists_of_some hcopy
    have hwrote : s.WroteAt rs j w ↔ (s.afterFirst rs j).faults.updateStatus = none ∧
        w.resourceVersion = stored.resourceVersion := by
      rw [WroteAt, updateStatus_isOk_iff (hkey ▸ hstored)]
      exact and_iff_right hj
    have hsame := version_eq_iff hkeeps hroom copy.key (Nat.le_of_lt hij) (Nat.le_of_lt hlt)
    rw [version_of_some hcopy, version_of_some hstored, UInt64.toNat_inj] at hsame
    rw [hwrote, hversion, hsame]
    refine and_congr_right fun _ => ⟨fun h k u hik hkj hu hwrote => ?_, fun h k hik hkj => ?_⟩
    · have hwrites := writesAt_of_wroteAt hwrote
      rw [hu, hkey, h k (Nat.le_of_lt hik) hkj] at hwrites
      contradiction
    · by_contra hwrites
      obtain ⟨u, hu, hwrote⟩ := wroteAt_of_writesAt (by simpa using hwrites)
      rcases Nat.lt_or_eq_of_le hik with hlt | rfl
      · exact h k u hlt hkj (hu.trans hkey.symm) hwrote
      · -- The request at `i` is the reading.
        obtain ⟨l, hget, -⟩ := hread
        have hclash := hwrote.1
        rw [hget] at hclash
        cases hclash
  · intro i j u w hu hw hkey hversion
    have hi := version_afterFirst hkeeps hroom w.key (Nat.le_of_lt (lt_length_of_wroteAt hu))
    have hj := version_afterFirst hkeeps hroom w.key (Nat.le_of_lt (lt_length_of_wroteAt hw))
    rw [← hkey, version_of_wroteAt hu, hkey] at hi
    rw [version_of_wroteAt hw, ← hversion] at hj
    apply Nat.count_injective (p := fun m => s.writesAt rs w.key m = true)
    · exact hkey ▸ writesAt_of_wroteAt hu
    · exact writesAt_of_wroteAt hw
    · omega

/-- Two clients read one version, and only the first write succeeds; a third one meets a fault, and
the version that is read then can be written. -/
theorem serial_of_reachable_clients :
    let w := Specimen.plain "web" 0 1
    let s := Specimen.crowd w ["a"]
    let first : Workload := { w with status := ⟨1, 0, 0, 1⟩ }
    let second : Workload := { w with status := ⟨2, 2, 2, 1⟩, generation := 7 }
    let third : Workload := { w with status := ⟨3, 0, 0, 1⟩, resourceVersion := 2 }
    let rs : List Request := [.getWorkload w.key, .getWorkload w.key, .updateStatus first,
      .leaveDelete ⟨"shop", "a"⟩, .updateStatus second, .getWorkload w.key,
      .setFaults { Faults.none with updateStatus := some (.unavailable "down") },
      .updateStatus third, .setFaults .none, .updateStatus third]
    s.Reachable ∧ (∀ r ∈ rs, r.KeepsWorkloads) ∧ (∀ n < rs.length, (s.afterFirst rs n).HasRoom) ∧
      s.ReadAt rs 0 w ∧ s.WroteAt rs 2 first ∧ ¬s.WroteAt rs 4 second ∧ ¬s.WroteAt rs 7 third ∧
      s.WroteAt rs 9 third ∧ s.Serial rs := by
  intro w s first second third rs
  have reachable : s.Reachable := Specimen.reachable_crowd w ["a"]
  have hkeeps : ∀ r ∈ rs, r.KeepsWorkloads := by simp [rs, Request.KeepsWorkloads]
  have hroom : ∀ n < rs.length, (s.afterFirst rs n).HasRoom := by decide +kernel
  have hread : s.ReadAt rs 0 w :=
    ⟨w.key, rfl, getWorkload_fst (Specimen.workload?_crowd w ["a"])⟩
  exact ⟨reachable, hkeeps, hroom, hread, ⟨rfl, by decide +kernel⟩,
    fun h => absurd h.2 (by decide +kernel), fun h => absurd h.2 (by decide +kernel),
    ⟨rfl, by decide +kernel⟩, serial_of_reachable reachable hkeeps hroom⟩

end Store

end ReplicaController

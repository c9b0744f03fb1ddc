import Mathlib.Logic.Basic
import ReplicaController.Proofs.Scaling.DrainOrder
import ReplicaController.Workload.Counts

/-!
# Exact counts

Of fewer instances than a counter can hold, the counts are exact, and no counter overflows on the
way. They are those of the instances in any order. More time makes no instance unavailable, and a
longer wait makes none available: both hold at the end of the calendar, where the sum of a moment
and a wait need not exist, and across leap seconds.
-/

namespace ReplicaController

namespace Instant

variable {t u v : Instant} {m n : Nat}

/-- `t` is `u` or comes before it. A leap second comes behind the second it is counted with. -/
def AtOrBefore (t u : Instant) : Prop :=
  t.epochSeconds < u.epochSeconds ∨ t.epochSeconds = u.epochSeconds ∧ t.nano ≤ u.nano

theorem notAfter_iff : t.notAfter u = true ↔ t.AtOrBefore u := by
  have ht := t.second_lt
  have hu := u.second_lt
  have hcompare : t.notAfter u = true ↔ t.day < u.day ∨ t.day = u.day ∧
      (t.second < u.second ∨ t.second = u.second ∧ t.nano ≤ u.nano) := by
    rw [notAfter_eq_isLE]
    change ((compare t.day u.day).then ((compare t.second u.second).then
      (compare t.nano u.nano))).isLE = true ↔ _
    rw [Ordering.isLE_then_iff_or, Ordering.isLE_then_iff_or, Std.compare_eq_lt, Std.compare_eq_lt,
      Std.compare_eq_iff_eq, Std.compare_eq_iff_eq, Std.isLE_compare]
  rw [hcompare, AtOrBefore, epochSeconds, epochSeconds]
  omega

theorem AtOrBefore.trans (htu : t.AtOrBefore u) (huv : u.AtOrBefore v) : t.AtOrBefore v := by
  unfold AtOrBefore at htu huv ⊢
  omega

/-- `u` is that many seconds after `t`. A leap second is left behind. -/
def IsLater (t : Instant) (n : Nat) (u : Instant) : Prop :=
  u.epochSeconds = t.epochSeconds + n ∧ u.nano = t.nano % 1000000000

theorem addSeconds?_eq_some_iff (h : n ≠ 0) : t.addSeconds? n = some u ↔ t.IsLater n u := by
  have hu := u.second_lt
  rw [addSeconds?, if_neg h, ofParts?_eq_some_iff, IsLater, epochSeconds, epochSeconds]
  omega

theorem IsLater.exists_of_le (h : t.IsLater n u) (hle : m ≤ n) : ∃ v, t.IsLater m v := by
  obtain ⟨hseconds, -⟩ := h
  have ht := t.second_lt
  have hu := u.second_lt
  have hfirst := t.firstDay_le
  have hlast := u.le_lastDay
  rw [epochSeconds, epochSeconds] at hseconds
  let s := t.epochSeconds + m
  have hs : s = t.day * 86400 + t.second + m := rfl
  refine ⟨⟨s / 86400, (s % 86400).toNat, t.nano % 1000000000, ?_, ?_, ?_, ?_, ?_⟩, ?_, rfl⟩
  · omega
  · omega
  · omega
  · omega
  · omega
  · change s / 86400 * 86400 + ((s % 86400).toNat : Int) = s
    omega

theorem IsLater.atOrBefore (h : t.IsLater m u) (h' : t.IsLater n v) (hle : m ≤ n) :
    u.AtOrBefore v := by
  obtain ⟨hu, hunano⟩ := h
  obtain ⟨hv, hvnano⟩ := h'
  unfold AtOrBefore
  omega

end Instant

namespace Instance

variable {i : Instance} {m n : UInt32} {t u : Instant}

def IsReady (i : Instance) : Prop := ∃ r, i.readiness = some r ∧ r.ready = true

/-- The instance is ready, and it has been so for that many seconds. -/
def IsAvailable (i : Instance) (m : UInt32) (t : Instant) : Prop :=
  ∃ r, i.readiness = some r ∧ r.ready = true ∧
    (m = 0 ∨ ∃ u, r.since.IsLater m.toNat u ∧ u.AtOrBefore t)

theorem isReady_iff : i.isReady = true ↔ i.IsReady := by
  unfold isReady IsReady
  cases i.readiness with
  | none => simp
  | some r => simp

theorem isAvailable_iff : i.isAvailable m t = true ↔ i.IsAvailable m t := by
  unfold isAvailable IsAvailable
  cases i.readiness with
  | none => simp
  | some r =>
    simp only [Bool.and_eq_true, Bool.or_eq_true, beq_iff_eq, Option.some.injEq, exists_eq_left']
    refine and_congr_right fun _ => or_congr_right' fun hm => ?_
    have hne : m.toNat ≠ 0 := fun h => hm (UInt32.toNat_inj.mp h)
    simp only [← Instant.addSeconds?_eq_some_iff hne, ← Instant.notAfter_iff]
    cases r.since.addSeconds? m.toNat with
    | none => simp
    | some v => simp

instance : Decidable i.IsReady := decidable_of_iff (i.isReady = true) isReady_iff

instance : Decidable (i.IsAvailable m t) :=
  decidable_of_iff (i.isAvailable m t = true) isAvailable_iff

theorem IsAvailable.isReady (h : i.IsAvailable m t) : i.IsReady := by
  obtain ⟨r, hr, hready, -⟩ := h
  exact ⟨r, hr, hready⟩

theorem IsAvailable.later (h : i.IsAvailable m t) (htu : t.AtOrBefore u) : i.IsAvailable m u := by
  obtain ⟨r, hr, hready, hm | ⟨v, hv, hvt⟩⟩ := h
  · exact ⟨r, hr, hready, .inl hm⟩
  · exact ⟨r, hr, hready, .inr ⟨v, hv, hvt.trans htu⟩⟩

theorem IsAvailable.of_le (h : i.IsAvailable n t) (hmn : m ≤ n) : i.IsAvailable m t := by
  rw [UInt32.le_iff_toNat_le] at hmn
  obtain ⟨r, hr, hready, hn | ⟨v, hv, hvt⟩⟩ := h
  · have hm : m = 0 := by
      subst hn
      exact UInt32.toNat_inj.mp (Nat.le_zero.mp hmn)
    exact ⟨r, hr, hready, .inl hm⟩
  · obtain ⟨u, hu⟩ := hv.exists_of_le hmn
    exact ⟨r, hr, hready, .inr ⟨u, hu, (hu.atOrBefore hv hmn).trans hvt⟩⟩

theorem isReady_of_isAvailable (h : i.isAvailable m t = true) : i.isReady = true :=
  isReady_iff.mpr (isAvailable_iff.mp h).isReady

end Instance

/-- The counts of the status are those of these instances at the moment. -/
structure WorkloadStatus.Tells (status : WorkloadStatus) (minReadySeconds : UInt32) (t : Instant)
    (governed : List Instance) : Prop where
  replicas : status.replicas.toNat = governed.length
  ready : status.readyReplicas.toNat = governed.countP (·.isReady)
  available : status.availableReplicas.toNat = governed.countP (·.isAvailable minReadySeconds t)

theorem toNat_clampCount {n : Nat} (h : n < UInt32.size) : (clampCount n).toNat = n := by
  have hmin : min n (UInt32.size - 1) = n := by omega
  rw [clampCount, hmin]
  exact UInt32.toNat_ofNat_of_lt h

namespace Counts

variable {active : List Instance} {m : UInt32} {t : Instant}

theorem countP_available (active : List Instance) (m : UInt32) (t : Instant) :
    (active.countP fun i => i.isReady && i.isAvailable m t) =
      active.countP (·.isAvailable m t) := by
  apply List.countP_congr
  intro i _
  rw [Bool.and_eq_true]
  exact ⟨And.right, fun h => ⟨Instance.isReady_of_isAvailable h, h⟩⟩

theorem toNat_replicas (h : active.length < UInt32.size) (m : UInt32) (t : Instant) :
    (ofActive active m t).replicas.toNat = active.length := toNat_clampCount h

theorem toNat_ready (h : active.length < UInt32.size) (m : UInt32) (t : Instant) :
    (ofActive active m t).ready.toNat = active.countP (·.isReady) :=
  UInt32.toNat_ofNat_of_lt (Nat.lt_of_le_of_lt List.countP_le_length h)

theorem toNat_available (h : active.length < UInt32.size) (m : UInt32) (t : Instant) :
    (ofActive active m t).available.toNat = active.countP (·.isAvailable m t) := by
  rw [← countP_available]
  exact UInt32.toNat_ofNat_of_lt (Nat.lt_of_le_of_lt List.countP_le_length h)

theorem tells_ofActive {governed : List Instance} (h : governed.length < UInt32.size)
    (minReadySeconds : UInt32) (t : Instant) (generation : Int64) :
    ((Counts.ofActive governed minReadySeconds t).toStatus generation).Tells minReadySeconds t
      governed where
  replicas := toNat_replicas h minReadySeconds t
  ready := toNat_ready h minReadySeconds t
  available := toNat_available h minReadySeconds t

theorem available_le_ready (h : active.length < UInt32.size) (m : UInt32) (t : Instant) :
    (ofActive active m t).available ≤ (ofActive active m t).ready := by
  rw [UInt32.le_iff_toNat_le, toNat_available h, toNat_ready h]
  exact List.countP_mono_left fun i _ hi => Instance.isReady_of_isAvailable hi

theorem ready_le_replicas (h : active.length < UInt32.size) (m : UInt32) (t : Instant) :
    (ofActive active m t).ready ≤ (ofActive active m t).replicas := by
  rw [UInt32.le_iff_toNat_le, toNat_ready h, toNat_replicas h]
  exact List.countP_le_length

theorem available_le_available {n : UInt32} {u : Instant} (h : active.length < UInt32.size)
    (himp : ∀ i : Instance, i.IsAvailable m t → i.IsAvailable n u) :
    (ofActive active m t).available ≤ (ofActive active n u).available := by
  rw [UInt32.le_iff_toNat_le, toNat_available h, toNat_available h]
  refine List.countP_mono_left fun i _ hi => ?_
  exact Instance.isAvailable_iff.mpr (himp i (Instance.isAvailable_iff.mp hi))

theorem ofActive_perm {active' : List Instance} (h : active.Perm active') (m : UInt32)
    (t : Instant) : ofActive active' m t = ofActive active m t := by
  simp only [ofActive, h.length_eq, h.countP_eq]

def next? (n : UInt32) : Option UInt32 :=
  if n.toNat + 1 < UInt32.size then some (n + 1) else none

def step? (m : UInt32) (t : Instant) (c : Counts) (i : Instance) : Option Counts :=
  if i.isReady then
    (next? c.ready).bind fun ready =>
      if i.isAvailable m t then
        (next? c.available).map fun available => { c with ready, available }
      else some { c with ready }
  else some c

theorem next?_ofNat {n : Nat} (h : n + 1 < UInt32.size) :
    next? (.ofNat n) = some (.ofNat (n + 1)) := by
  have hn : (UInt32.ofNat n).toNat = n := UInt32.toNat_ofNat_of_lt (Nat.lt_of_succ_lt h)
  rw [next?, hn, if_pos h, UInt32.ofNat_add]
  rfl

theorem step?_ofNat (m : UInt32) (t : Instant) (replicas : UInt32) {ready available : Nat}
    (hready : ready + 1 < UInt32.size) (havailable : available + 1 < UInt32.size) (i : Instance) :
    step? m t ⟨replicas, .ofNat ready, .ofNat available⟩ i =
      some ⟨replicas, .ofNat (ready + if i.isReady then 1 else 0),
        .ofNat (available + if i.isReady && i.isAvailable m t then 1 else 0)⟩ := by
  unfold step?
  by_cases hr : i.isReady = true
  · by_cases ha : i.isAvailable m t = true
    · simp [hr, ha, next?_ofNat hready, next?_ofNat havailable]
    · simp [hr, ha, next?_ofNat hready]
  · simp [hr]

/-- Counting goes through, from counters that have room for all the instances. -/
theorem foldlM_step? (m : UInt32) (t : Instant) (active : List Instance) (replicas : UInt32)
    {ready available : Nat} (hready : ready + active.length < UInt32.size)
    (havailable : available + active.length < UInt32.size) :
    active.foldlM (step? m t) ⟨replicas, .ofNat ready, .ofNat available⟩ =
      some ⟨replicas, .ofNat (ready + active.countP (·.isReady)),
        .ofNat (available + active.countP fun i => i.isReady && i.isAvailable m t)⟩ := by
  induction active generalizing ready available with
  | nil => rfl
  | cons i active ih =>
    rw [List.length_cons] at hready havailable
    have hone (b : Bool) : (if b then 1 else 0) ≤ 1 := by cases b <;> decide
    have hreadyStep := hone i.isReady
    have havailableStep := hone (i.isReady && i.isAvailable m t)
    rw [List.foldlM_cons, step?_ofNat m t replicas (by omega) (by omega), Option.bind_eq_bind,
      Option.bind_some, ih (by omega) (by omega), List.countP_cons, List.countP_cons,
      Nat.add_assoc, Nat.add_assoc, Nat.add_comm (if i.isReady then 1 else 0),
      Nat.add_comm (if i.isReady && i.isAvailable m t then 1 else 0)]

theorem foldlM_eq_ofActive (h : active.length < UInt32.size) (m : UInt32) (t : Instant) :
    active.foldlM (step? m t) ⟨clampCount active.length, 0, 0⟩ = some (ofActive active m t) := by
  have hroom : 0 + active.length < UInt32.size := by rwa [Nat.zero_add]
  have hfold := foldlM_step? m t active (clampCount active.length) hroom hroom
  rw [Nat.zero_add, Nat.zero_add] at hfold
  exact hfold

/-- What holds of the counts of instances, given a wait and a moment. -/
structure Lawful (active : List Instance) (m : UInt32) (t : Instant) : Prop where
  replicas : (ofActive active m t).replicas.toNat = active.length
  ready : (ofActive active m t).ready.toNat = active.countP fun i => i.IsReady
  available : (ofActive active m t).available.toNat = active.countP fun i => i.IsAvailable m t
  no_overflow :
    active.foldlM (step? m t) ⟨clampCount active.length, 0, 0⟩ = some (ofActive active m t)
  available_le : (ofActive active m t).available ≤ (ofActive active m t).ready
  ready_le : (ofActive active m t).ready ≤ (ofActive active m t).replicas
  perm : ∀ active', active.Perm active' → ofActive active' m t = ofActive active m t
  steady : ∀ n u, (ofActive active n u).replicas = (ofActive active m t).replicas ∧
    (ofActive active n u).ready = (ofActive active m t).ready
  later : ∀ u, t.AtOrBefore u → (ofActive active m t).available ≤ (ofActive active m u).available
  longer : ∀ n, m ≤ n → (ofActive active n t).available ≤ (ofActive active m t).available

theorem lawful (h : active.length < UInt32.size) (m : UInt32) (t : Instant) :
    Lawful active m t where
  replicas := toNat_replicas h m t
  ready := by
    rw [toNat_ready h]
    exact List.countP_congr fun i _ => by rw [decide_eq_true_iff, Instance.isReady_iff]
  available := by
    rw [toNat_available h]
    exact List.countP_congr fun i _ => by rw [decide_eq_true_iff, Instance.isAvailable_iff]
  no_overflow := foldlM_eq_ofActive h m t
  available_le := available_le_ready h m t
  ready_le := ready_le_replicas h m t
  perm _ hperm := ofActive_perm hperm m t
  steady _ _ := ⟨rfl, rfl⟩
  later _ htu := available_le_available h fun _ hi => hi.later htu
  longer _ hmn := available_le_available h fun _ hi => hi.of_le hmn

end Counts

end ReplicaController

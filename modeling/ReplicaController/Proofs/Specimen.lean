import ReplicaController.Proofs.Store.Served

/-!
# Specimens

A plain workload asks for instances that carry its own label, and stamps them with it. A numbered
world has no faults planned, an endless supply of distinct draws, and a clock that stands still.
-/

namespace ReplicaController

namespace Specimen

def labels : Labels := SortedMap.empty.insert "app" "web"

/-- A workload that is named and identified by a number. -/
def plain (name : String) (number : Nat) (replicas : UInt32) : Workload where
  ns := "shop"
  name := name
  uid := ⟨BitVec.ofNat 128 (number + 1)⟩
  generation := 1
  resourceVersion := 1
  deletionTimestamp := none
  spec := ⟨replicas, .ofLabels labels, ⟨.empty, .null⟩, 0⟩
  status := ⟨0, 0, 0, 0⟩

/-- A workload that stamps labels which its selector does not match. -/
def mislabelled : Workload :=
  let w := plain "web" 0 1
  { w with spec := { w.spec with template := ⟨SortedMap.empty.insert "app" "api", .null⟩ } }

def running (w : Workload) (name : String) (created : Instant) : Instance where
  ns := w.ns
  name := name
  uid := .nil
  labels := labels
  ownerReferences := [w.controllerRef]
  phase := .running
  readiness := none
  created := created
  spec := .null

/-- The store of one workload with running instances of these names. -/
def crowd (w : Workload) (names : List String) : Store :=
  names.foldl (fun s name => s.after (.putInstance (running w name .epoch)))
    (.ofCluster (.ofWorkloads [w]))

/-- The store of two workloads, the first with running instances of these names. -/
def pair (u w : Workload) (names : List String) : Store := (crowd u names).after (.putWorkload w)

/-- The store of one workload whose status writes are refused. -/
def refusing (w : Workload) : Store :=
  (crowd w []).after
    (.setFaults { Faults.none with updateStatus := some (.unavailable "down") })

def draws (n : Nat) : Draw := ⟨⟨BitVec.ofNat 128 n⟩, n, .epoch⟩

def world (store : Store) : World := ⟨store, draws, 0, fun _ => .epoch, 0⟩

theorem reachable_crowd (w : Workload) (names : List String) : (crowd w names).Reachable := by
  unfold crowd
  generalize hs : Store.ofCluster (.ofWorkloads [w]) = s
  have reachable : s.Reachable := hs ▸ .seeded [w]
  clear hs
  induction names generalizing s with
  | nil => exact reachable
  | cons name names ih => exact ih _ (.after _ reachable)

theorem workloads_crowd (w : Workload) (names : List String) :
    (crowd w names).cluster.workloads = SortedMap.empty.insert w.key w := by
  unfold crowd
  generalize hs : Store.ofCluster (.ofWorkloads [w]) = s
  have hw : s.cluster.workloads = SortedMap.empty.insert w.key w := hs ▸ rfl
  clear hs
  induction names generalizing s with
  | nil => exact hw
  | cons name names ih => exact ih _ hw

theorem workload?_crowd_iff {w v : Workload} {names : List String} {key : Key} :
    (crowd w names).cluster.workload? key = some v ↔ key = w.key ∧ v = w := by
  rw [Cluster.workload?, workloads_crowd]
  by_cases hkey : key = w.key
  · subst hkey
    rw [SortedMap.find?_insert_self, Option.some.injEq]
    simp [eq_comm]
  · rw [SortedMap.find?_insert_of_ne _ _ hkey]
    exact iff_of_false nofun fun h => hkey h.1

theorem workload?_crowd (w : Workload) (names : List String) :
    (crowd w names).cluster.workload? w.key = some w := workload?_crowd_iff.mpr ⟨rfl, rfl⟩

theorem reachable_pair (u w : Workload) (names : List String) : (pair u w names).Reachable :=
  .after _ (reachable_crowd u names)

theorem workload?_pair {u w : Workload} (hne : u.key ≠ w.key) (names : List String) {key : Key}
    {v : Workload} : (pair u w names).cluster.workload? key = some v ↔
      key = u.key ∧ v = u ∨ key = w.key ∧ v = w := by
  change ((crowd u names).cluster.workloads.insert w.key w).find? key = some v ↔ _
  by_cases hw : key = w.key
  · subst hw
    rw [SortedMap.find?_insert_self, Option.some.injEq]
    simp [hne.symm, eq_comm]
  · rw [SortedMap.find?_insert_of_ne _ _ hw]
    refine workload?_crowd_iff.trans ?_
    simp [hw]

theorem regular_plain {name : String} {number : Nat} {replicas : UInt32} (hname : name ≠ "")
    (huid : (plain name number replicas).uid ≠ .nil) : (plain name number replicas).Regular where
  uid_ne_nil := huid
  name_ne_empty := hname
  live := rfl
  selects := rfl

end Specimen

end ReplicaController

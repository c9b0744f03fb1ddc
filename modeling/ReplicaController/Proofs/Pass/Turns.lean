import ReplicaController.Proofs.Pass.Footprint

/-!
# Passes in turn

A run makes one pass after another on the store in memory, and nobody else writes to it. Each turn
chooses the workload, the configuration, the order of the operations and the faults anew, and no
pass is broken off.
-/

namespace ReplicaController

structure Turn where
  key : Key
  config : PassConfig
  plan : Batch.Schedule
  faults : Faults

namespace World

def withFaults (faults : Faults) (s : World) : World :=
  { s with store := { s.store with faults } }

def turn (s : World) (t : Turn) : World :=
  (Pass.run backend t.config ⟨t.plan, none⟩ t.key (s.withFaults t.faults)).2

def turns (s : World) (ts : List Turn) : World := ts.foldl turn s

/-- What every turn keeps, a run of turns keeps. -/
theorem turns_induction {P : World → Prop} {ts : List Turn}
    (step : ∀ t ∈ ts, ∀ s, P s → P (s.turn t)) {s : World} (h : P s) : P (s.turns ts) := by
  induction ts generalizing s with
  | nil => exact h
  | cons t ts ih =>
    apply ih
    · exact fun t' ht' => step t' (List.mem_cons_of_mem t ht')
    · exact step t List.mem_cons_self s h

variable {s : World} {t : Turn} {w : Workload}

theorem turn_footprint (sound : s.cluster.Sound) (hw : s.cluster.workload? t.key = some w) :
    ∃ removed added, Pass.Footprint t.config w s.cluster removed added (s.turn t).cluster :=
  Pass.run_footprint (s := s.withFaults t.faults) backend_serves t.config ⟨t.plan, none⟩ sound hw

theorem turn_of_absent (hw : s.cluster.workload? t.key = none) :
    (s.turn t).cluster = s.cluster :=
  Pass.run_of_absent (s := s.withFaults t.faults) backend_serves hw

theorem agrees_turn (sound : s.cluster.Sound) : s.cluster.Agrees (s.turn t).cluster := by
  cases hw : s.cluster.workload? t.key with
  | none => rw [turn_of_absent hw]; exact .refl _
  | some w =>
    obtain ⟨removed, added, hfoot⟩ := turn_footprint sound hw
    exact hfoot.agrees

end World

end ReplicaController

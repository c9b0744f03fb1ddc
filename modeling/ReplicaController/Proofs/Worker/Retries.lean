import ReplicaController.Proofs.Pass.Stages
import ReplicaController.Proofs.Worker.Records

/-!
# Retries

While all listed keys are readable, a retry passes once over each key whose last pass failed, as
soon as the delay has gone by, and over no other key. A key that is not readable can be lost: the
retry reads its text as another key.
-/

namespace ReplicaController

theorem Controller.duty_isDone {σ : Type} (B : Backend σ) (config : PassConfig) (key : Key)
    (j : Journal σ) : ((duty B config).pass key j).1.IsDone :=
  ⟨_, rfl, Pass.run_ne_cancelled B config rfl key j.state⟩

namespace Worker

variable {σ : Type} {d : Duty σ} {keys : List Key} {s : State σ}

/-- Until a round comes to a key, its record stands as it stood before the round. -/
theorem find?_before (done : ∀ key t, (d.pass key t).1.IsDone)
    (readable : ∀ key ∈ keys, key.Readable) (nodup : keys.Nodup) {v : Visit σ}
    (hv : v ∈ visits d keys s) :
    v.before.backoff.failures.find? v.key.text = s.backoff.failures.find? v.key.text := by
  induction keys generalizing s with
  | nil => exact nomatch hv
  | cons key keys ih =>
    obtain ⟨hkey, hkeys⟩ := List.forall_mem_cons.mp readable
    obtain ⟨hnotMem, hnodup⟩ := List.nodup_cons.mp nodup
    rw [visits_cons (done key s.inner)] at hv
    rcases List.mem_cons.mp hv with rfl | hv
    · rfl
    · have hmem := key_mem_of_mem_visits hv
      have hne : key ≠ v.key := fun heq => hnotMem (heq ▸ hmem)
      rw [ih hkeys hnodup hv, find?_trigger_of_ne hkey (hkeys v.key hmem) hne]

/-- When the retry is due, if the last pass over the key failed at `t`. -/
def dueAt (s : State σ) (key : Key) (t : Span) : Span := t + s.backoff.delay (failures s key)

theorem LastFailed.readable {delay : UInt32 → Span} {key : Key} {t : Span} {notes : List Note}
    {b : Backoff} (h : LastFailed key t notes) (records : Records delay notes b) :
    key.Readable := by
  obtain ⟨before, attempt, after, rfl, -⟩ := h
  exact records.noted key t attempt (List.mem_append_right before List.mem_cons_self)

theorem exists_lastFailed {key : Key} {notes : List Note} {f : Failure}
    (h : record s.backoff.delay key notes = some f) (hcount : failures s key = f.count) :
    ∃ t, LastFailed key t notes ∧ dueAt s key t = f.due := by
  obtain ⟨t, hlast, hdue⟩ := lastFailed_of_record h
  exact ⟨t, hlast, by rw [dueAt, hcount, hdue]⟩

/-- The passes of a retry, without shutdown and while all listed keys are readable. -/
theorem retry_passes {σ : Type} (d : Duty σ) (done : ∀ key t, (d.pass key t).1.IsDone)
    (pace : WorkerPace) (clock : Nat → Span) (inner : σ) (cs : List (Call σ))
    (readable : ListsReadable d (start pace clock inner) cs) (change : σ → σ) :
    let s₀ := start pace clock inner
    let s := afterCalls d s₀ cs
    let retry : Call σ := ⟨change, .retry⟩
    let vs := retry.visits d s
    Threaded d s₀ cs ∧ Leads d (retry.begun d s) vs (retry.after d s) ∧
    (∀ key t, LastFailed key t (history d s₀ cs) → dueAt s key t ≤ s.present →
      (vs.map Visit.key).count key = 1 ∧ ∀ v ∈ vs, v.key = key →
        v.before.backoff.failures.find? key.text = some ⟨failures s key, dueAt s key t⟩) ∧
    ∀ v ∈ vs, ∃ t, LastFailed v.key t (history d s₀ cs) ∧ dueAt s v.key t ≤ s.present := by
  intro s₀ s retry vs
  have started : Records s₀.backoff.delay [] s₀.backoff := Records.start _ _
  have records := records_afterCalls d pace readable
  obtain ⟨keys, hkeys, hnodup, htexts, hmem⟩ := records.exists_due s.present
  have hvs : vs = visits d keys (retry.begun d s) := by
    change retryVisits d (s.backoff.due s.present) _ = _
    rw [← htexts, retryVisits_texts d hkeys]
    rfl
  refine ⟨started.threaded readable, Call.leads records nofun, fun key t hlast hdue => ?_,
    fun v hv => ?_⟩
  · have hkey := hlast.readable records
    obtain ⟨f, hf, hfdue⟩ := record_of_lastFailed s.backoff.delay hlast
    have hfailure : f = ⟨failures s key, dueAt s key t⟩ := by
      rw [dueAt, records.failures_eq hkey hf, ← hfdue]
    have hk : key ∈ keys := (hmem key hkey).mpr ⟨f, hf, by rw [hfailure]; exact hdue⟩
    refine ⟨?_, ?_⟩
    · rw [hvs, map_key_visits done]
      exact List.count_eq_one_of_mem hnodup hk
    · rintro v hv rfl
      rw [hvs] at hv
      rw [find?_before done hkeys hnodup hv, ← hfailure]
      exact (records.find?_eq v.key hkey).trans hf
  · rw [hvs] at hv
    have hk := key_mem_of_mem_visits hv
    have hkey := hkeys v.key hk
    obtain ⟨f, hf, hfdue⟩ := (hmem v.key hkey).mp hk
    obtain ⟨t, hlast, ht⟩ := exists_lastFailed hf (records.failures_eq hkey hf)
    exact ⟨t, hlast, ht ▸ hfdue⟩

/-- A workload whose status write is refused at a resync and at a retry, whose pass takes ten
seconds. The delay of a second runs from its end. -/
theorem retry_passes_refused :
    let w := Specimen.plain "web" 0 1
    let d := Controller.duty World.backend ⟨5, .observed⟩
    let journal : Journal World := ⟨Specimen.world (Specimen.refusing w), []⟩
    let clock (n : Nat) : Span := .ofSecs ([0, 1, 11].getD n 12)
    let cs : List (Call (Journal World)) := [⟨id, .resync⟩, ⟨id, .retry⟩]
    let s₀ := start defaultPace clock journal
    let s := afterCalls d s₀ cs
    let retry : Call (Journal World) := ⟨id, .retry⟩
    let vs := retry.visits d s
    (∀ key t, (d.pass key t).1.IsDone) ∧ ListsReadable d s₀ cs ∧
      (∃ t, LastFailed w.key t (history d s₀ cs) ∧ dueAt s w.key t = .ofSecs 12) ∧
      s.present = .ofSecs 12 ∧ (vs.map Visit.key).count w.key = 1 ∧
      Leads d (retry.begun d s) vs (retry.after d s) ∧
      ∀ v ∈ vs, ∃ t, LastFailed v.key t (history d s₀ cs) ∧ dueAt s v.key t ≤ s.present := by
  intro w d journal clock cs s₀ s retry vs
  have done := Controller.duty_isDone World.backend ⟨5, .observed⟩
  have readable : ListsReadable d s₀ cs :=
    .cons (by decide +kernel) (.cons (by decide +kernel) (.nil d _))
  obtain ⟨-, hleads, hdue, hfailed⟩ := retry_passes d done defaultPace clock journal cs readable id
  have hrecord : record s.backoff.delay w.key (history d s₀ cs) = some ⟨2, .ofSecs 12⟩ := by
    decide +kernel
  have hfailures : failures s w.key = 2 := by decide +kernel
  obtain ⟨t, hlast, ht⟩ := exists_lastFailed hrecord hfailures
  have hpresent : s.present = .ofSecs 12 := by decide +kernel
  have hnow : dueAt s w.key t ≤ s.present := by
    rw [ht, hpresent]
    decide
  exact ⟨done, readable, ⟨t, hlast, ht⟩, hpresent, (hdue w.key t hlast hnow).1, hleads, hfailed⟩

/-- A workload in a namespace with a slash. Its retry passes over another key, which no workload
has, and forgets the failure of the workload. -/
theorem retry_loses_slash :
    let w : Workload := { Specimen.plain "web" 0 1 with ns := "a/b" }
    let d := Controller.duty World.backend ⟨5, .observed⟩
    let journal : Journal World := ⟨Specimen.world (Specimen.refusing w), []⟩
    let cs : List (Call (Journal World)) := [⟨id, .resync⟩]
    let s₀ := start defaultPace .ofSecs journal
    let s := afterCalls d s₀ cs
    let retry : Call (Journal World) := ⟨id, .retry⟩
    (∀ key t, (d.pass key t).1.IsDone) ∧
      (∃ t, LastFailed w.key t (history d s₀ cs) ∧ dueAt s w.key t ≤ s.present) ∧
      (retry.visits d s).map Visit.key = [⟨"a", "b/web"⟩] ∧
      failures s w.key = 1 ∧ failures (retry.after d s) w.key = 0 := by
  intro w d journal cs s₀ s retry
  have hrecord : record s.backoff.delay w.key (history d s₀ cs) =
      some ⟨1, .ofMillis 500⟩ := by decide +kernel
  have hfailures : failures s w.key = 1 := by decide +kernel
  obtain ⟨t, hlast, ht⟩ := exists_lastFailed hrecord hfailures
  have hnow : dueAt s w.key t ≤ s.present := by
    rw [ht]
    decide +kernel
  exact ⟨Controller.duty_isDone World.backend ⟨5, .observed⟩, ⟨t, hlast, hnow⟩,
    by decide +kernel, hfailures, by decide +kernel⟩

end Worker

end ReplicaController

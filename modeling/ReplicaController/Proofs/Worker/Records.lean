import ReplicaController.Controller
import ReplicaController.Proofs.Specimen
import ReplicaController.Proofs.Worker.History

/-!
# The failure records of the worker

The worker keeps its records under the texts of keys. While all listed keys are readable, what
stands under the text of a key is what the notes on that key come to: a pass touches the record of
its own key only, and a listing sweeps out the keys that it is without.
-/

namespace ReplicaController

namespace Worker

theorem backoff_settle {σ : Type} (key : Key) (s : State σ) (a : Attempt) :
    (settle key s a).2.backoff =
      if a.isFine then s.backoff.clear key.text
      else if a.isFailed then (s.backoff.recordFailure key.text s.present).2 else s.backoff := by
  cases a with
  | stopped => rfl
  | ended result =>
    cases result with
    | ok outcome => cases outcome <;> rfl
    | error e => cases e <;> rfl

theorem delay_settle {σ : Type} (key : Key) (s : State σ) (a : Attempt) :
    (settle key s a).2.backoff.delay = s.backoff.delay := by
  rw [backoff_settle]
  split
  · rfl
  · split <;> rfl

theorem find?_settle {σ : Type} {k key : Key} (hk : k.Readable) (hkey : key.Readable)
    (s : State σ) (a : Attempt) :
    (settle k s a).2.backoff.failures.find? key.text =
      (Note.passed k s.present a).update s.backoff.delay key
        (s.backoff.failures.find? key.text) := by
  rw [backoff_settle]
  by_cases h : k = key
  · subst h
    simp only [Note.update, if_true]
    unfold Attempt.record
    split
    · exact SortedMap.find?_erase_self _ _
    · split
      · rw [Backoff.recordFailure, Backoff.failureCount_eq]
        exact SortedMap.find?_insert_self _ _ _
      · rfl
  · have hne : key.text ≠ k.text := fun heq => h (Key.eq_of_text hk hkey heq.symm)
    simp only [Note.update, if_neg h]
    split
    · exact SortedMap.find?_erase_of_ne _ hne
    · split
      · exact SortedMap.find?_insert_of_ne _ _ hne
      · rfl

theorem mem_of_find?_settle {σ : Type} {k : Key} {s : State σ} {a : Attempt} {text : String}
    {f : Failure} (h : (settle k s a).2.backoff.failures.find? text = some f) :
    text = k.text ∨ ∃ g, s.backoff.failures.find? text = some g := by
  by_cases htext : text = k.text
  · exact .inl htext
  · rw [backoff_settle] at h
    split at h
    · exact .inr ⟨f, (SortedMap.find?_erase_of_ne _ htext).symm.trans h⟩
    · split at h
      · exact .inr ⟨f, (SortedMap.find?_insert_of_ne _ _ htext).symm.trans h⟩
      · exact .inr ⟨f, h⟩

/-- The records are those that the notes come to. -/
structure Records (delay : UInt32 → Span) (notes : List Note) (b : Backoff) : Prop where
  delay_eq : b.delay = delay
  readable : ∀ text f, b.failures.find? text = some f → ∃ key : Key, key.Readable ∧ key.text = text
  noted : ∀ key now a, Note.passed key now a ∈ notes → key.Readable
  find?_eq : ∀ key : Key, key.Readable → b.failures.find? key.text = record delay key notes

namespace Records

variable {delay : UInt32 → Span} {notes : List Note} {b : Backoff}

theorem start (base ceiling : Span) :
    Records (Backoff.new base ceiling).delay [] (.new base ceiling) where
  delay_eq := rfl
  readable _ _ h := nomatch h
  noted _ _ _ h := nomatch h
  find?_eq _ _ := rfl

theorem toNat_failureCount (h : Records delay notes b) {key : Key} (hkey : key.Readable) :
    (b.failureCount key.text).toNat = min (streak key notes) (2 ^ 32 - 1) := by
  rw [Backoff.failureCount_eq, h.find?_eq key hkey]
  exact toNat_countOf_record notes

theorem settle {σ : Type} {s : State σ} (h : Records delay notes s.backoff) {k : Key}
    (hk : k.Readable) (a : Attempt) :
    Records delay (notes ++ [.passed k s.present a]) (Worker.settle k s a).2.backoff where
  delay_eq := (delay_settle k s a).trans h.delay_eq
  readable text f hf := by
    rcases mem_of_find?_settle hf with rfl | ⟨g, hg⟩
    · exact ⟨k, hk, rfl⟩
    · exact h.readable text g hg
  noted key now' a' hm := by
    rcases List.mem_append.mp hm with hm | hm
    · exact h.noted key now' a' hm
    · cases List.mem_singleton.mp hm
      exact hk
  find?_eq key hkey := by
    rw [find?_settle hk hkey, h.delay_eq, h.find?_eq key hkey, record_append]
    rfl

theorem retain (h : Records delay notes b) {keys : List Key}
    (readable : ∀ key ∈ keys, key.Readable) :
    Records delay (notes ++ [.listed keys])
      (b.retain fun text => keys.any fun k => k.text == text) where
  delay_eq := h.delay_eq
  readable text f hf := h.readable text f (SortedMap.find?_filter_eq_some_iff.mp hf).1
  noted key now a hm := by
    rcases List.mem_append.mp hm with hm | hm
    · exact h.noted key now a hm
    · cases List.mem_singleton.mp hm
  find?_eq key hkey := by
    have hkept : keys.any (fun k => k.text == key.text) = true ↔ key ∈ keys := by
      simp only [List.any_eq_true, beq_iff_eq]
      constructor
      · rintro ⟨k, hk, htext⟩
        exact Key.eq_of_text (readable k hk) hkey htext ▸ hk
      · exact fun hm => ⟨key, hm, rfl⟩
    rw [Backoff.retain, SortedMap.find?_filter, record_append, h.find?_eq key hkey]
    simp only [hkept]
    rfl

end Records

section Run

variable {σ : Type} {d : Duty σ} {c : Call σ} {cs : List (Call σ)} {s s' : State σ}
  {vs : List (Visit σ)} {delay : UInt32 → Span} {notes : List Note}

theorem Records.leads (h : Records delay notes s.backoff) (leads : Leads d s vs s')
    (readable : ∀ v ∈ vs, v.key.Readable) :
    Records delay (notes ++ vs.map (Visit.note d)) s'.backoff := by
  induction leads generalizing notes with
  | nil s => exact (List.append_nil notes).symm ▸ h
  | @cons key s s' vs hleads ih =>
    obtain ⟨hkey, hvs⟩ := List.forall_mem_cons.mp readable
    have hstep : Records delay (notes ++ [.passed key s.present (d.pass key s.inner).1])
        (trigger d key s).2.backoff :=
      Records.settle (s := { s with inner := (d.pass key s.inner).2 }) h hkey _
    rw [List.map_cons, List.append_cons]
    exact ih hstep hvs

theorem Records.exists_due {b : Backoff} (h : Records delay notes b) (now : Span) :
    ∃ keys : List Key, (∀ key ∈ keys, key.Readable) ∧ keys.Nodup ∧
      keys.map Key.text = b.due now ∧ ∀ key : Key, key.Readable →
        (key ∈ keys ↔ ∃ f, record delay key notes = some f ∧ f.due ≤ now) := by
  have hread : ∀ text ∈ b.due now, ∃ key : Key, key.Readable ∧ key.text = text := by
    intro text hm
    obtain ⟨f, hf, -⟩ := Backoff.mem_due_iff.mp hm
    exact h.readable text f hf
  obtain ⟨keys, hkeys, htexts⟩ := Key.exists_map_text hread
  have hnodup : (b.due now).Nodup := SortedMap.nodup_keys _
  refine ⟨keys, hkeys, (htexts ▸ hnodup).of_map, htexts, fun key hkey => ?_⟩
  have hmem : key ∈ keys ↔ key.text ∈ b.due now := by
    rw [← htexts, List.mem_map]
    constructor
    · exact fun hk => ⟨key, hk, rfl⟩
    · rintro ⟨k, hk, htext⟩
      exact Key.eq_of_text (hkeys k hk) hkey htext ▸ hk
  rw [hmem, Backoff.mem_due_iff, h.find?_eq key hkey]

/-- A call is a round over readable keys, or it makes no pass and leaves the records alone. -/
theorem Call.exists_round (h : Records delay notes s.backoff)
    (readable : ∀ keys, c.listing d s = some keys → ∀ key ∈ keys, key.Readable) :
    Records delay (notes ++ (c.listing d s).toList.map .listed) (c.begun d s).backoff ∧
      ∃ keys : List Key, (∀ key ∈ keys, key.Readable) ∧
        c.visits d s = Worker.visits d keys (c.begun d s) ∧
        c.after d s = (Worker.round d keys noPasses (c.begun d s)).2 := by
  obtain ⟨change, tick⟩ := c
  cases tick with
  | resync =>
    cases hlist : d.list (change s.inner) with
    | mk answer inner =>
      simp only [Call.visits, Call.after, Call.begun, Call.listing, Call.before, onTick,
        resyncVisits, resync, hlist] at readable ⊢
      cases answer with
      | error e =>
        exact ⟨(List.append_nil notes).symm ▸ h, [], fun _ hk => absurd hk List.not_mem_nil, rfl,
          rfl⟩
      | ok ws =>
        have hkeys := readable (sortedKeys ws) rfl
        exact ⟨h.retain hkeys, sortedKeys ws, hkeys, rfl, rfl⟩
  | retry =>
    obtain ⟨keys, hkeys, -, htexts, -⟩ := h.exists_due s.present
    refine ⟨(List.append_nil notes).symm ▸ h, keys, hkeys, ?_, ?_⟩
    · change retryVisits d (s.backoff.due s.present) _ = _
      rw [← htexts, retryVisits_texts d hkeys]
      rfl
    · change (retryRound d (s.backoff.due s.present) noPasses _).2 = _
      rw [← htexts, retryRound_texts d hkeys]
      rfl

theorem Call.leads (h : Records delay notes s.backoff)
    (readable : ∀ keys, c.listing d s = some keys → ∀ key ∈ keys, key.Readable) :
    Leads d (c.begun d s) (c.visits d s) (c.after d s) := by
  obtain ⟨-, keys, -, hvisits, hafter⟩ := Call.exists_round h readable
  rw [hvisits, hafter]
  exact leads_visits d keys noPasses _

theorem Call.readable_visits (h : Records delay notes s.backoff)
    (readable : ∀ keys, c.listing d s = some keys → ∀ key ∈ keys, key.Readable) :
    ∀ v ∈ c.visits d s, v.key.Readable := by
  obtain ⟨-, keys, hkeys, hvisits, -⟩ := Call.exists_round h readable
  intro v hv
  rw [hvisits] at hv
  exact hkeys v.key (key_mem_of_mem_visits hv)

theorem Records.after (h : Records delay notes s.backoff)
    (readable : ∀ keys, c.listing d s = some keys → ∀ key ∈ keys, key.Readable) :
    Records delay (notes ++ c.notes d s) (c.after d s).backoff := by
  rw [Call.notes, ← List.append_assoc]
  exact (Call.exists_round h readable).1.leads (Call.leads h readable)
    (Call.readable_visits h readable)

theorem Records.threaded (h : Records delay notes s.backoff) (readable : ListsReadable d s cs) :
    Threaded d s cs := by
  induction cs generalizing notes s with
  | nil => trivial
  | cons c cs ih =>
    obtain ⟨hlisting, hrest⟩ := listsReadable_cons_iff.mp readable
    exact ⟨Call.leads h hlisting, ih (h.after hlisting) hrest⟩

/-- What the calls of a history leave recorded is what their notes come to. -/
theorem Records.afterCalls (h : Records delay notes s.backoff) (readable : ListsReadable d s cs) :
    Records delay (notes ++ history d s cs) (Worker.afterCalls d s cs).backoff := by
  induction cs generalizing notes s with
  | nil => exact (List.append_nil notes).symm ▸ h
  | cons c cs ih =>
    obtain ⟨hlisting, hrest⟩ := listsReadable_cons_iff.mp readable
    rw [history, ← List.append_assoc]
    exact ih (h.after hlisting) hrest

theorem find?_trigger_of_ne {k key : Key} (hk : k.Readable) (hkey : key.Readable) (hne : k ≠ key)
    (d : Duty σ) (s : State σ) :
    (trigger d k s).2.backoff.failures.find? key.text =
      s.backoff.failures.find? key.text := by
  have h : (trigger d k s).2.backoff.failures.find? key.text = _ :=
    find?_settle hk hkey { s with inner := (d.pass k s.inner).2 } (d.pass k s.inner).1
  rw [h, Note.update, if_neg hne]

theorem records_afterCalls (d : Duty σ) (pace : WorkerPace) {clock : Nat → Span} {inner : σ}
    (readable : ListsReadable d (start pace clock inner) cs) :
    let s₀ := start pace clock inner
    let s := Worker.afterCalls d s₀ cs
    Records s.backoff.delay (history d s₀ cs) s.backoff := by
  intro s₀ s
  have h : Records s₀.backoff.delay (history d s₀ cs) s.backoff :=
    (Records.start _ _).afterCalls readable
  exact h.delay_eq.symm ▸ h

theorem Records.failures_eq (h : Records delay notes s.backoff) {key : Key}
    (hkey : key.Readable) {f : Failure} (hf : record delay key notes = some f) :
    failures s key = f.count := by
  rw [failures, Backoff.failureCount_eq, h.find?_eq key hkey, hf]
  rfl

theorem failures_of_mem_passes (h : Records delay notes s.backoff)
    (readable : ListsReadable d s cs) {v : Visit σ} (hv : v ∈ passes d s cs) {key : Key}
    (hkey : key.Readable) (hne : v.key ≠ key) : failures v.after key = failures v.before key := by
  induction cs generalizing notes s with
  | nil => exact nomatch hv
  | cons c cs ih =>
    obtain ⟨hlisting, hrest⟩ := listsReadable_cons_iff.mp readable
    rcases List.mem_append.mp hv with hv | hv
    · have hvkey := Call.readable_visits h hlisting v hv
      rw [(Call.leads h hlisting).after_eq v hv, failures, failures, Backoff.failureCount_eq,
        Backoff.failureCount_eq, find?_trigger_of_ne hvkey hkey hne]
    · exact ih (h.after hlisting) hrest hv

theorem backoff_of_failed_listing {e : StoreError} (htick : c.tick = .resync)
    (hlist : (d.list (c.change s.inner)).1 = .error e) : (c.after d s).backoff = s.backoff := by
  obtain ⟨change, tick⟩ := c
  obtain rfl : tick = .resync := htick
  change (resync d { s with inner := change s.inner }).2.backoff = s.backoff
  unfold resync
  dsimp only at hlist ⊢
  generalize d.list (change s.inner) = r at hlist ⊢
  obtain ⟨answer, inner⟩ := r
  obtain rfl : answer = .error e := hlist
  rfl

/-- After every history of calls the worker counts the failures in a row of each key exactly. A pass
that shutdown broke off counts as no failure and clears nothing. -/
theorem failures_exact {σ : Type} (d : Duty σ) (pace : WorkerPace) (clock : Nat → Span)
    (inner : σ) (cs : List (Call σ)) (readable : ListsReadable d (start pace clock inner) cs) :
    let s₀ := start pace clock inner
    let s := Worker.afterCalls d s₀ cs
    Threaded d s₀ cs ∧
    (∀ key : Key, key.Readable →
      (failures s key).toNat = min (streak key (history d s₀ cs)) (2 ^ 32 - 1)) ∧
    (∀ v ∈ passes d s₀ cs, ∀ key : Key, key.Readable → v.key ≠ key →
      failures v.after key = failures v.before key) ∧
    ∀ (c : Call σ) (e : StoreError), c.tick = .resync →
      (d.list (c.change s.inner)).1 = .error e →
      ∀ key, failures (c.after d s) key = failures s key := by
  intro s₀ s
  have started : Records s₀.backoff.delay [] s₀.backoff := Records.start _ _
  have records := records_afterCalls d pace readable
  refine ⟨started.threaded readable, fun key hkey => records.toNat_failureCount hkey, ?_, ?_⟩
  · intro v hv key hkey hne
    exact failures_of_mem_passes started readable hv hkey hne
  · intro c e htick hlist key
    rw [failures, backoff_of_failed_listing htick hlist]
    rfl

/-- Two workloads whose status writes are refused, the second pass of the resync ten seconds after
the first: the retry half a second later passes over the first workload only. -/
theorem failures_exact_refused :
    let u := Specimen.plain "api" 0 1
    let w := Specimen.plain "web" 1 1
    let d := Controller.duty World.backend ⟨5, .observed⟩
    let store := (Specimen.refusing u).after (.putWorkload w)
    let clock (n : Nat) : Span := [.zero, .ofSecs 10, .ofMillis 10400].getD n (.ofSecs 11)
    let cs : List (Call (Journal World)) := [⟨id, .resync⟩, ⟨id, .retry⟩]
    let s₀ := start defaultPace clock ⟨Specimen.world store, []⟩
    let s := Worker.afterCalls d s₀ cs
    ListsReadable d s₀ cs ∧ (passes d s₀ cs).map Visit.key = [u.key, w.key, u.key] ∧
      failures s u.key = 2 ∧ failures s w.key = 1 ∧ Threaded d s₀ cs ∧
      (failures s u.key).toNat = min (streak u.key (history d s₀ cs)) (2 ^ 32 - 1) ∧
      ∀ v ∈ passes d s₀ cs, ∀ key : Key, key.Readable → v.key ≠ key →
        failures v.after key = failures v.before key := by
  intro u w d store clock cs s₀ s
  have hsorted : sortedKeys store.cluster.workloads.values = [u.key, w.key] :=
    (sortedKeys_eq (by decide +kernel)).trans (by decide +kernel)
  have hlist : d.list s₀.inner = (.ok store.cluster.workloads.values, (d.list s₀.inner).2) := rfl
  obtain ⟨hresync, hvisits⟩ := resync_of_list hlist
  rw [hsorted] at hresync hvisits
  have hkeys : ∀ key ∈ [u.key, w.key], key.Readable := by decide +kernel
  have readable : ListsReadable d s₀ cs := by
    refine .cons (fun key hkey => hkeys key ?_) (.cons (fun _ hkey => nomatch hkey) (.nil d _))
    rwa [← hsorted]
  have hpasses : (passes d s₀ cs).map Visit.key = [u.key, w.key, u.key] := by
    change (resyncVisits d s₀ ++ (dueVisits d (resync d s₀).2 ++ [])).map Visit.key = _
    rw [hvisits, hresync]
    decide +kernel
  have hfailures : failures s u.key = 2 ∧ failures s w.key = 1 := by
    change failures (retryDue d (resync d s₀).2).2 u.key = 2 ∧
      failures (retryDue d (resync d s₀).2).2 w.key = 1
    rw [hresync]
    decide +kernel
  obtain ⟨hthreaded, hcount, hothers, -⟩ := failures_exact d defaultPace clock _ cs readable
  exact ⟨readable, hpasses, hfailures.1, hfailures.2, hthreaded,
    hcount u.key (hkeys u.key List.mem_cons_self), hothers⟩

end Run

end Worker

end ReplicaController

import ReplicaController.Proofs.Worker.Records

/-!
# How the worker's calls go

Both calls of the worker go over keys in their order, a resync over those of all workloads and a
retry over those that are due. A failed pass stops neither. Either every key is visited, or one pass
is broken off: it is the last one then, it is not counted, and the records of its key and of all
keys behind it are left as they were.
-/

namespace ReplicaController

def RoundTally.total (t : RoundTally) : Nat := t.reconciled + t.gone + t.requeued

namespace Worker

variable {σ : Type}

def Visit.IsDone (d : Duty σ) (v : Visit σ) : Prop := (d.pass v.key v.before.inner).1.IsDone

def Visit.outcome (d : Duty σ) (v : Visit σ) : Triggered := (trigger d v.key v.before).1

/-- What passes over these keys, one after another, make of the state that they work on. -/
def passOver (d : Duty σ) (keys : List Key) (t : σ) : σ :=
  keys.foldl (fun t key => (d.pass key t).2) t

/-- The keys that texts read as; a text that is no key is left out. -/
def keysOf (texts : List String) : List Key :=
  texts.filterMap fun text => (Key.parse text).toOption

section Texts

variable {text : String} {texts : List String} {key : Key}

theorem keysOf_cons_ok (h : Key.parse text = .ok key) :
    keysOf (text :: texts) = key :: keysOf texts := by
  simp [keysOf, h, Except.toOption]

theorem keysOf_cons_error {e : Key.ParseError} (h : Key.parse text = .error e) :
    keysOf (text :: texts) = keysOf texts := by
  simp [keysOf, h, Except.toOption]

theorem mem_keysOf_iff : key ∈ keysOf texts ↔ key.Readable ∧ key.text ∈ texts := by
  induction texts with
  | nil => simp [keysOf]
  | cons text texts ih =>
    cases hparse : Key.parse text with
    | error e =>
      have hne : key.Readable → key.text ≠ text := by
        rintro hkey rfl
        rw [Key.parse_text hkey] at hparse
        contradiction
      rw [keysOf_cons_error hparse, ih, List.mem_cons]
      exact and_congr_right fun hkey => (or_iff_right (hne hkey)).symm
    | ok k =>
      obtain ⟨hk, rfl⟩ := Key.readable_of_parse hparse
      rw [keysOf_cons_ok hparse, List.mem_cons, List.mem_cons, ih, and_or_left]
      refine or_congr_left ⟨?_, fun ⟨hkey, htext⟩ => Key.eq_of_text hkey hk htext⟩
      rintro rfl
      exact ⟨hk, rfl⟩

theorem map_text_keysOf_sublist (texts : List String) :
    ((keysOf texts).map Key.text).Sublist texts := by
  induction texts with
  | nil => exact .slnil
  | cons text texts ih =>
    cases hparse : Key.parse text with
    | error e =>
      rw [keysOf_cons_error hparse]
      exact ih.cons text
    | ok key =>
      obtain ⟨-, rfl⟩ := Key.readable_of_parse hparse
      rw [keysOf_cons_ok hparse]
      exact ih.cons_cons key.text

theorem keysOf_map_text {keys : List Key} (readable : ∀ key ∈ keys, key.Readable) :
    keysOf (keys.map Key.text) = keys := by
  induction keys with
  | nil => rfl
  | cons key keys ih =>
    obtain ⟨hkey, hkeys⟩ := List.forall_mem_cons.mp readable
    rw [List.map_cons, keysOf_cons_ok (Key.parse_text hkey), ih hkeys]

theorem map_text_keysOf (h : ∀ text ∈ texts, ∃ key : Key, key.Readable ∧ key.text = text) :
    (keysOf texts).map Key.text = texts := by
  obtain ⟨keys, hkeys, rfl⟩ := Key.exists_map_text h
  rw [keysOf_map_text hkeys]

end Texts

theorem settle_of_not_isDone {a : Attempt} (h : ¬ a.IsDone) (key : Key) (s : State σ) :
    settle key s a = (.stopped, s) := by
  cases a with
  | stopped => rfl
  | ended result =>
    cases result with
    | ok outcome => exact absurd ⟨_, rfl, fun _ => nofun⟩ h
    | error e =>
      cases e with
      | cancelled key => rfl
      | _ => exact absurd ⟨_, rfl, fun _ => nofun⟩ h

theorem trigger_of_not_isDone {d : Duty σ} {key : Key} {s : State σ}
    (h : ¬ (d.pass key s.inner).1.IsDone) :
    trigger d key s = (.stopped, { s with inner := (d.pass key s.inner).2 }) :=
  settle_of_not_isDone h key _

theorem trigger_stopped_iff {d : Duty σ} {key : Key} {s : State σ} :
    (trigger d key s).1 = .stopped ↔ ¬ (d.pass key s.inner).1.IsDone := by
  refine ⟨fun hstop hdone => settle_ne_stopped hdone key _ hstop, fun h => ?_⟩
  rw [trigger_of_not_isDone h]

theorem isDone_of_trigger {d : Duty σ} {key : Key} {s s' : State σ} {t : Triggered}
    (h : trigger d key s = (t, s')) (hne : t ≠ .stopped) : (d.pass key s.inner).1.IsDone := by
  apply Classical.byContradiction
  intro hnot
  have hstop : (trigger d key s).1 = .stopped := trigger_stopped_iff.mpr hnot
  rw [h] at hstop
  exact hne hstop

/-- How a retry of these texts goes, text by text, from a tally and a state. -/
inductive Course (d : Duty σ) :
    List String → RoundTally → State σ → List (Visit σ) → RoundTally × State σ → Prop
  | nil (tally : RoundTally) (s : State σ) : Course d [] tally s [] (tally, s)
  | malformed {text : String} {texts : List String} {tally : RoundTally} {s : State σ}
      {vs : List (Visit σ)} {r : RoundTally × State σ} {e : Key.ParseError} :
      Key.parse text = .error e →
      Course d texts tally (s.clear text) vs r →
      Course d (text :: texts) tally s vs r
  | done {text : String} {texts : List String} {tally : RoundTally} {s s' : State σ}
      {vs : List (Visit σ)} {r : RoundTally × State σ} {key : Key} {t : Triggered} :
      Key.parse text = .ok key → trigger d key s = (t, s') → t ≠ .stopped →
      Course d texts (count tally t) s' vs r →
      Course d (text :: texts) tally s (⟨key, s, s'⟩ :: vs) r
  | brokenOff {text : String} (texts : List String) (tally : RoundTally) {s s' : State σ}
      {key : Key} : Key.parse text = .ok key → trigger d key s = (.stopped, s') →
      Course d (text :: texts) tally s [⟨key, s, s'⟩] (tally, s')

theorem course_retryRound (d : Duty σ) (texts : List String) (tally : RoundTally)
    (s : State σ) :
    Course d texts tally s (retryVisits d texts s) (retryRound d texts tally s) := by
  induction texts generalizing tally s with
  | nil => exact .nil tally s
  | cons text texts ih =>
    rw [retryVisits, retryRound]
    cases hparse : Key.parse text with
    | error e => exact .malformed hparse (ih _ _)
    | ok key =>
      dsimp only
      cases htrigger : trigger d key s with
      | mk t s' =>
        cases t with
        | stopped => exact .brokenOff texts tally hparse htrigger
        | _ => exact .done hparse htrigger (by simp) (ih _ s')

theorem course_round (d : Duty σ) {keys : List Key}
    (readable : ∀ key ∈ keys, key.Readable) (tally : RoundTally) (s : State σ) :
    Course d (keys.map Key.text) tally s (visits d keys s) (round d keys tally s) := by
  rw [← retryVisits_texts d readable, ← retryRound_texts d readable]
  exact course_retryRound d _ tally s

namespace Course

variable {d : Duty σ} {texts : List String} {tally : RoundTally} {s : State σ}
  {vs : List (Visit σ)} {r : RoundTally × State σ}

theorem after_eq (h : Course d texts tally s vs r) :
    ∀ v ∈ vs, v.after = (trigger d v.key v.before).2 := by
  induction h with
  | nil => simp
  | malformed _ _ ih => exact ih
  | done _ htrigger _ _ ih => exact List.forall_mem_cons.mpr ⟨by rw [htrigger], ih⟩
  | brokenOff _ _ _ htrigger => simp [htrigger]

theorem threaded (h : Course d texts tally s vs r) {before after : List (Visit σ)}
    {v : Visit σ} (hsplit : vs = before ++ v :: after) :
    v.before.inner = passOver d (before.map Visit.key) s.inner := by
  induction h generalizing before with
  | nil => simp at hsplit
  | malformed _ _ ih => exact ih hsplit
  | done _ htrigger _ _ ih =>
    cases before with
    | nil =>
      obtain ⟨rfl, -⟩ := List.cons.inj hsplit
      rfl
    | cons u before =>
      obtain ⟨rfl, hrest⟩ := List.cons.inj hsplit
      rw [ih hrest, inner_of_trigger htrigger]
      rfl
  | brokenOff _ _ _ htrigger =>
    cases before with
    | nil =>
      obtain ⟨rfl, -⟩ := List.cons.inj hsplit
      rfl
    | cons u before => simp at hsplit

theorem inner_eq (h : Course d texts tally s vs r) :
    r.2.inner = passOver d (vs.map Visit.key) s.inner := by
  induction h with
  | nil => rfl
  | malformed _ _ ih => exact ih
  | done _ htrigger _ _ ih =>
    rw [ih, inner_of_trigger htrigger]
    rfl
  | brokenOff _ _ _ htrigger => exact inner_of_trigger htrigger

theorem tally_eq (h : Course d texts tally s vs r) :
    r.1 = (vs.map (Visit.outcome d)).foldl count tally := by
  induction h with
  | nil => rfl
  | malformed _ _ ih => exact ih
  | done _ htrigger _ _ ih => rw [ih, List.map_cons, List.foldl_cons, Visit.outcome, htrigger]
  | brokenOff _ _ _ htrigger =>
    rw [List.map_cons, List.foldl_cons, Visit.outcome, htrigger]
    rfl

theorem ends (h : Course d texts tally s vs r) :
    ((∀ v ∈ vs, v.IsDone d) ∧ vs.map Visit.key = keysOf texts) ∨
      ∃ before v later, vs = before ++ [v] ∧ (∀ u ∈ before, u.IsDone d) ∧ ¬ v.IsDone d ∧
        keysOf texts = before.map Visit.key ++ v.key :: later := by
  induction h with
  | nil => exact .inl ⟨by simp, rfl⟩
  | malformed hparse _ ih =>
    rw [keysOf_cons_error hparse]
    exact ih
  | @done _ _ _ s s' _ _ key _ hparse htrigger hne _ ih =>
    have hdone : Visit.IsDone d ⟨key, s, s'⟩ := isDone_of_trigger htrigger hne
    rw [keysOf_cons_ok hparse]
    rcases ih with ⟨hall, hkeys⟩ | ⟨before, v, later, rfl, hbefore, hv, hkeys⟩
    · exact .inl ⟨List.forall_mem_cons.mpr ⟨hdone, hall⟩, congrArg (key :: ·) hkeys⟩
    · exact .inr ⟨_ :: before, v, later, rfl, List.forall_mem_cons.mpr ⟨hdone, hbefore⟩, hv,
        congrArg (key :: ·) hkeys⟩
  | @brokenOff _ texts _ s s' key hparse htrigger =>
    rw [keysOf_cons_ok hparse]
    refine .inr ⟨[], ⟨key, s, s'⟩, keysOf texts, rfl, by simp, ?_, rfl⟩
    exact fun hdone => settle_ne_stopped hdone key _ (congrArg Prod.fst htrigger)

theorem find?_eq (h : Course d texts tally s vs r) {key : Key} (hkey : key.Readable)
    (hvs : ∀ v ∈ vs, v.IsDone d → v.key ≠ key) :
    r.2.backoff.failures.find? key.text = s.backoff.failures.find? key.text := by
  induction h with
  | nil => rfl
  | malformed hparse _ ih =>
    rw [ih hvs]
    refine SortedMap.find?_erase_of_ne _ ?_
    rintro rfl
    rw [Key.parse_text hkey] at hparse
    contradiction
  | @done _ _ _ s s' _ _ k _ hparse htrigger hne _ ih =>
    obtain ⟨hv, hvs⟩ := List.forall_mem_cons.mp hvs
    have hk := (Key.readable_of_parse hparse).1
    have hstep := find?_trigger_of_ne hk hkey (hv (isDone_of_trigger htrigger hne)) d s
    rw [htrigger] at hstep
    exact (ih hvs).trans hstep
  | @brokenOff _ _ _ s s' k hparse htrigger =>
    have hnot := trigger_stopped_iff.mp (congrArg Prod.fst htrigger)
    rw [trigger_of_not_isDone hnot] at htrigger
    cases htrigger
    rfl

end Course

theorem total_count (tally : RoundTally) (t : Triggered) :
    (count tally t).total = tally.total + if t = .stopped then 0 else 1 := by
  cases t <;> simp [count, RoundTally.total] <;> omega

theorem total_foldl_count (ts : List Triggered) (tally : RoundTally) :
    (ts.foldl count tally).total = tally.total + ts.countP (· ≠ .stopped) := by
  induction ts generalizing tally with
  | nil => rfl
  | cons t ts ih =>
    rw [List.foldl_cons, ih, total_count, List.countP_cons]
    by_cases h : t = .stopped
    · simp [h]
    · simp [h]
      omega

section Walks

variable {d : Duty σ} {keys : List Key} {s : State σ} {vs : List (Visit σ)}
  {r : RoundTally × State σ}

theorem countP_outcome (h : ∀ v ∈ vs, v.IsDone d) :
    (vs.map (Visit.outcome d)).countP (· ≠ .stopped) = vs.length := by
  rw [← List.length_map (Visit.outcome d), List.countP_eq_length]
  intro t ht
  obtain ⟨v, hv, rfl⟩ := List.mem_map.mp ht
  exact decide_eq_true fun hstop => trigger_stopped_iff.mp hstop (h v hv)

/-- How a walk over keys comes out: at its last key, or where a pass is broken off. -/
inductive Ending (d : Duty σ) (keys : List Key) (s : State σ) (vs : List (Visit σ))
    (r : RoundTally × State σ) : Prop
  | complete : (∀ v ∈ vs, v.IsDone d) → vs.map Visit.key = keys → r.1.total = keys.length →
      Ending d keys s vs r
  | brokenOff (before : List (Visit σ)) (v : Visit σ) (later : List Key) : vs = before ++ [v] →
      (∀ u ∈ before, u.IsDone d) → ¬ v.IsDone d →
      keys = before.map Visit.key ++ v.key :: later → r.1.total = before.length →
      (∀ key ∈ v.key :: later,
        r.2.backoff.failures.find? key.text = s.backoff.failures.find? key.text) →
      Ending d keys s vs r

/-- A walk over keys from the state `s`: its visits, one after another, are all that befalls the
inner state and all that is counted, and it comes out as it should. -/
structure Walks (d : Duty σ) (keys : List Key) (s : State σ) (vs : List (Visit σ))
    (r : RoundTally × State σ) : Prop where
  after_eq : ∀ v ∈ vs, v.after = (trigger d v.key v.before).2
  threaded : ∀ before v after, vs = before ++ v :: after →
    v.before.inner = passOver d (before.map Visit.key) s.inner
  inner_eq : r.2.inner = passOver d (vs.map Visit.key) s.inner
  tally_eq : r.1 = (vs.map (Visit.outcome d)).foldl count noPasses
  ends : Ending d keys s vs r

theorem Course.ending {texts : List String} (h : Course d texts noPasses s vs r)
    (nodup : (keysOf texts).Nodup) : Ending d (keysOf texts) s vs r := by
  have htotal : r.1.total = (vs.map (Visit.outcome d)).countP (· ≠ .stopped) := by
    rw [h.tally_eq, total_foldl_count]
    exact Nat.zero_add _
  rcases h.ends with ⟨hdone, hkeys⟩ | ⟨before, v, later, rfl, hbefore, hv, hkeys⟩
  · refine .complete hdone hkeys ?_
    rw [htotal, countP_outcome hdone, ← hkeys, List.length_map]
  · refine .brokenOff before v later rfl hbefore hv hkeys ?_ fun key hkey => ?_
    · have hstop : v.outcome d = .stopped := trigger_stopped_iff.mpr hv
      rw [htotal, List.map_append, List.countP_append, countP_outcome hbefore]
      simp [hstop]
    · have hmem : key ∈ keysOf texts := hkeys ▸ List.mem_append_right _ hkey
      refine h.find?_eq (mem_keysOf_iff.mp hmem).1 fun u hu hdone => ?_
      rcases List.mem_append.mp hu with hu | hu
      · rw [hkeys] at nodup
        rintro rfl
        exact List.disjoint_of_nodup_append nodup (List.mem_map_of_mem hu) hkey
      · exact absurd (List.mem_singleton.mp hu ▸ hdone) hv

theorem Course.walks {texts : List String} (h : Course d texts noPasses s vs r)
    (nodup : (keysOf texts).Nodup) : Walks d (keysOf texts) s vs r where
  after_eq := h.after_eq
  threaded _ _ _ hsplit := h.threaded hsplit
  inner_eq := h.inner_eq
  tally_eq := h.tally_eq
  ends := h.ending nodup

theorem Walks.of_kept {s' : State σ} (h : Walks d keys s vs r) (hinner : s.inner = s'.inner)
    (kept : ∀ key ∈ keys,
      s.backoff.failures.find? key.text = s'.backoff.failures.find? key.text) :
    Walks d keys s' vs r := by
  refine ⟨h.after_eq, ?_, ?_, h.tally_eq, ?_⟩
  · exact hinner ▸ h.threaded
  · exact hinner ▸ h.inner_eq
  cases h.ends with
  | complete hdone hkeys htotal => exact .complete hdone hkeys htotal
  | brokenOff before v later hvs hbefore hv hkeys htotal hrecords =>
    refine .brokenOff before v later hvs hbefore hv hkeys htotal fun key hkey => ?_
    rw [hrecords key hkey, kept key (hkeys ▸ List.mem_append_right _ hkey)]

theorem walks_resync {ws : List Workload} {inner : σ} (hlist : d.list s.inner = (.ok ws, inner))
    (readable : ∀ key ∈ sortedKeys ws, key.Readable) (nodup : (sortedKeys ws).Nodup) :
    Walks d (sortedKeys ws) { s with inner } (resyncVisits d s) (resync d s) := by
  obtain ⟨hresync, hvisits⟩ := resync_of_list hlist
  rw [hresync, hvisits]
  have hwalks := (course_round d readable noPasses
    ({ s with inner }.keepOnly (sortedKeys ws))).walks (by rwa [keysOf_map_text readable])
  rw [keysOf_map_text readable] at hwalks
  refine hwalks.of_kept rfl fun key hkey => ?_
  rw [State.keepOnly, Backoff.retain, SortedMap.find?_filter, if_pos]
  exact List.any_eq_true.mpr ⟨key, hkey, beq_self_eq_true key.text⟩

theorem walks_retryDue (d : Duty σ) (s : State σ) :
    Walks d (keysOf (s.backoff.due s.present)) s (dueVisits d s) (retryDue d s) := by
  have hnodup : (s.backoff.due s.present).Nodup := SortedMap.nodup_keys _
  have hwalks := (course_retryRound d (s.backoff.due s.present) noPasses s.now.2).walks
    (hnodup.sublist (map_text_keysOf_sublist _)).of_map
  exact hwalks.of_kept rfl fun _ _ => rfl

end Walks

theorem pairwise_keys (m : SortedMap Key Workload) :
    m.keys.Pairwise fun k l => k.ns < l.ns ∨ k.ns = l.ns ∧ k.name < l.name := by
  unfold SortedMap.keys
  rw [List.pairwise_map]
  exact m.rising.imp Key.compare_eq_lt_iff.mp

theorem sortedKeys_values {c : Cluster} (h : c.Sound) :
    sortedKeys c.workloads.values = c.workloads.keys := by
  rw [sortedKeys, h.keys_values]
  apply List.mergeSort_of_pairwise
  unfold SortedMap.keys
  rw [List.pairwise_map]
  refine c.workloads.rising.imp fun hlt => ?_
  rw [hlt]
  rfl

theorem mem_keysOf_due_iff {b : Backoff} {key : Key} :
    key ∈ keysOf (b.due now) ↔
      key.Readable ∧ ∃ f, b.failures.find? key.text = some f ∧ f.due ≤ now := by
  rw [mem_keysOf_iff, Backoff.mem_due_iff]

/-- What a resync and a retry go over, whatever their passes end in. -/
theorem calls_walk_keys {σ : Type} (d : Duty σ) (s : State σ) :
    (∀ (store : Store) (inner : σ), store.Reachable →
      (∀ key w, store.cluster.workload? key = some w → key.Readable) →
      d.list s.inner = (.ok store.cluster.workloads.values, inner) →
      ∃ keys : List Key,
        keys.Pairwise (fun k l => k.ns < l.ns ∨ k.ns = l.ns ∧ k.name < l.name) ∧
        (∀ key, key ∈ keys ↔ ∃ w, store.cluster.workload? key = some w) ∧
        Walks d keys { s with inner } (resyncVisits d s) (resync d s)) ∧
    ∃ keys : List Key,
      (keys.map Key.text).Pairwise (· < ·) ∧
      (∀ key, key ∈ keys ↔
        key.Readable ∧ ∃ f, s.backoff.failures.find? key.text = some f ∧ f.due ≤ s.present) ∧
      (∀ (d₀ : Duty σ) (pace : WorkerPace) (clock : Nat → Span) (inner : σ) (cs : List (Call σ)),
        ListsReadable d₀ (start pace clock inner) cs →
        s.backoff = (afterCalls d₀ (start pace clock inner) cs).backoff →
        keys.map Key.text = s.backoff.due s.present) ∧
      Walks d keys s (dueVisits d s) (retryDue d s) := by
  constructor
  · intro store inner reachable readable hlist
    have sound := reachable.sound
    have hkeys : ∀ key ∈ sortedKeys store.cluster.workloads.values, key.Readable := by
      intro key hkey
      obtain ⟨w, hw⟩ := sound.mem_sortedKeys_iff.mp hkey
      exact readable key w hw
    refine ⟨sortedKeys store.cluster.workloads.values, ?_, fun key => sound.mem_sortedKeys_iff,
      walks_resync hlist hkeys sound.nodup_sortedKeys⟩
    rw [sortedKeys_values sound]
    exact pairwise_keys _
  · refine ⟨keysOf (s.backoff.due s.present), ?_, fun key => mem_keysOf_due_iff, ?_,
      walks_retryDue d s⟩
    · exact (Backoff.pairwise_due s.backoff s.present).sublist (map_text_keysOf_sublist _)
    · intro d₀ pace clock inner cs hlists hbackoff
      refine map_text_keysOf fun text htext => ?_
      obtain ⟨f, hf, -⟩ := Backoff.mem_due_iff.mp htext
      rw [hbackoff] at hf
      exact (records_afterCalls d₀ pace hlists).readable text f hf

/-- A duty whose passes end as a script says; where it ends, passes are dropped. -/
def scripted (store : Store) : Duty (List Attempt) where
  list script := (.ok store.cluster.workloads.values, script)
  pass _ script := (script.headD .stopped, script.tail)

/-- Of two workloads whose passes have failed, the first is gone now, and the pass over the second
is cancelled. -/
theorem calls_walk_keys_cancelled :
    let u := Specimen.plain "api" 0 1
    let w := Specimen.plain "web" 1 1
    let store := Specimen.pair u w []
    let d := scripted store
    let failed (key : Key) : Attempt := .ended (.error (.fetch key (.unavailable "down")))
    let s₀ := start defaultPace .ofSecs [failed u.key, failed w.key]
    let cs : List (Call (List Attempt)) := [⟨id, .resync⟩]
    let s : State (List Attempt) := { afterCalls d s₀ cs with
      inner := [.ended (.ok .workloadGone), .ended (.error (.cancelled w.key))] }
    ListsReadable d s₀ cs ∧ store.Reachable ∧
      (∀ key v, store.cluster.workload? key = some v → key.Readable) ∧
      (resync d s).1 = ⟨0, 1, 0⟩ ∧ failures (resync d s).2 w.key = 1 ∧
      (∃ keys, Walks d keys s (resyncVisits d s) (resync d s)) ∧
      ∃ keys, keys.map Key.text = s.backoff.due s.present ∧
        Walks d keys s (dueVisits d s) (retryDue d s) := by
  intro u w store d failed s₀ cs s
  have reachable : store.Reachable := Specimen.reachable_pair u w []
  have readable : ∀ key v, store.cluster.workload? key = some v → key.Readable := by
    intro key v hv
    rcases (Specimen.workload?_pair (by decide +kernel) []).mp hv with ⟨rfl, -⟩ | ⟨rfl, -⟩
    · decide +kernel
    · decide +kernel
  have lists : ListsReadable d s₀ cs := by
    refine .cons (fun key hkey => ?_) (.nil d _)
    obtain ⟨v, hv⟩ := reachable.sound.mem_sortedKeys_iff.mp hkey
    exact readable key v hv
  have hsorted : sortedKeys store.cluster.workloads.values = [u.key, w.key] :=
    (sortedKeys_values reachable.sound).trans (by decide +kernel)
  have hround (t : State (List Attempt)) :
      resync d t = round d [u.key, w.key] noPasses (t.keepOnly [u.key, w.key]) := by
    rw [← hsorted]
    exact (resync_of_list rfl).1
  have hs : s = { (resync d s₀).2 with inner := s.inner } := rfl
  have htally : (resync d s).1 = ⟨0, 1, 0⟩ := by
    rw [hround, hs, hround]
    decide +kernel
  have hfailures : failures (resync d s).2 w.key = 1 := by
    rw [hround, hs, hround]
    decide +kernel
  obtain ⟨hresync, keys, -, -, hdue, hwalks⟩ := calls_walk_keys d s
  obtain ⟨listed, -, -, hlisted⟩ := hresync store s.inner reachable readable rfl
  exact ⟨lists, reachable, readable, htally, hfailures, ⟨listed, hlisted⟩, keys,
    hdue d defaultPace .ofSecs _ cs lists rfl, hwalks⟩

end Worker

end ReplicaController

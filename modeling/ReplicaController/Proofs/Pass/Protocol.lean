import ReplicaController.Proofs.Pass.Isolation
import ReplicaController.Proofs.Pass.Logged
import ReplicaController.Proofs.Pass.Report

/-!
# The protocol of a pass

The log of a pass, with whatever its operations still do after it was broken off, reads like this: a
fetch, a listing, the calls of one batch, a second listing if there was something to do, and at most
one status write, which is the last call. Each error ends the pass at the call that it comes from,
whatever the backend answers; the second listing is the one whose failure ends nothing. On the store
in memory a pass that ends before its batch changes nothing but the call counters, and one that ends
without its commit changes no workload.
-/

namespace ReplicaController

variable {σ : Type} {B : Backend σ} {view : σ → Cluster}

namespace Batch

/-- The slot works on one of these operations, or is finished. -/
def Slot.WorksOn (ops : List Operation) : Slot → Prop
  | .calling op _ => op ∈ ops
  | .inside op _ _ => op ∈ ops
  | .finished _ => True

/-- Each of these calls is made by one of the operations. -/
def MadeBy (ops : List Operation) (calls : List Exchange) : Prop :=
  ∀ x ∈ calls, ∃ op ∈ ops, ∃ call, op.Makes call ∧ x = .mutate call

variable {ops : List Operation}

theorem madeBy_nil (ops : List Operation) : MadeBy ops [] := fun _ hx => nomatch hx

theorem MadeBy.append {calls calls' : List Exchange} (h : MadeBy ops calls)
    (h' : MadeBy ops calls') : MadeBy ops (calls ++ calls') :=
  fun x hx => (List.mem_append.mp hx).elim (h x) (h' x)

namespace Slot

theorem worksOn_answered {op : Operation} (hop : op ∈ ops) (n : Nat) (call : Mutation)
    (answer : Answer Unit) : (answered op n call answer).1.WorksOn ops := by
  rcases answered_cases op n call answer with ⟨outcome, heq⟩ | ⟨i, -, -, heq⟩
  · exact heq ▸ trivial
  · exact heq ▸ hop

theorem nextCall_logged (op : Operation) (l : Logged σ) :
    op.Makes (nextCall B.logged op l).1 ∧ (nextCall B.logged op l).2.log = l.log := by
  cases op with
  | create stamp => exact ⟨⟨_, rfl⟩, rfl⟩
  | delete key => exact ⟨rfl, rfl⟩

theorem step_log {slot : Slot} (h : slot.WorksOn ops) (l : Logged σ) :
    (slot.step B.logged l).1.1.WorksOn ops ∧
      ∃ calls, MadeBy ops calls ∧ (slot.step B.logged l).2.log = l.log ++ calls := by
  cases slot with
  | calling op n =>
    obtain ⟨hmakes, hlog⟩ := nextCall_logged (B := B) op l
    simp only [step]
    generalize nextCall B.logged op l = r at hmakes hlog
    obtain ⟨call, l'⟩ := r
    have hcalls : MadeBy ops [.mutate call] := by
      intro x hx
      exact ⟨op, h, call, hmakes, List.mem_singleton.mp hx⟩
    have henter : (B.logged.enter call l').2.log = l.log ++ [.mutate call] :=
      congrArg (· ++ _) hlog
    dsimp only
    generalize B.logged.enter call l' = r at henter
    obtain ⟨answer, l''⟩ := r
    cases answer with
    | ok _ => exact ⟨h, _, hcalls, henter⟩
    | error e => exact ⟨worksOn_answered h n call _, _, hcalls, henter⟩
  | inside op n call =>
    exact ⟨worksOn_answered h n call _, [], madeBy_nil ops, (List.append_nil _).symm⟩
  | finished outcome => exact ⟨trivial, [], madeBy_nil ops, (List.append_nil _).symm⟩

end Slot

theorem run_log (plan : Schedule) (n : Nat) {p : Progress} {l : Logged σ}
    (h : ∀ slot ∈ p.slots, slot.WorksOn ops) :
    (∀ slot ∈ (run B.logged plan n p l).1.slots, slot.WorksOn ops) ∧
      ∃ calls, MadeBy ops calls ∧ (run B.logged plan n p l).2.log = l.log ++ calls := by
  refine run_induction B.logged (P := fun p' l' => (∀ slot ∈ p'.slots, slot.WorksOn ops) ∧
    ∃ calls, MadeBy ops calls ∧ l'.log = l.log ++ calls) ?_ plan n
    ⟨h, [], madeBy_nil ops, (List.append_nil _).symm⟩
  rintro before slot after events l' - ⟨hall, calls, hcalls, hlog⟩
  obtain ⟨hnext, calls', hcalls', hlog'⟩ := Slot.step_log (hall slot (by simp)) l'
  refine ⟨forall_mem_exchange hall hnext, calls ++ calls', hcalls.append hcalls', ?_⟩
  rw [hlog', hlog, List.append_assoc]

theorem run_nil (B : Backend σ) (plan : Schedule) (n : Nat) (events : List Event) (s : σ) :
    run B plan n ⟨[], events⟩ s = (⟨[], events⟩, s) := by
  cases n <;> rfl

end Batch

namespace Pass

variable {config : PassConfig} {cond : Conditions} {key : Key} {w : Workload} {s : σ}

/-- The calls of the batch of a pass over `w` all go the way of the adjustment. -/
structure BatchCalls (config : PassConfig) (w : Workload) (active : List Instance)
    (calls : List Exchange) : Prop where
  creations : (adjustmentOf config w active).kind = .create → ∀ x ∈ calls,
    ∃ stamp d, Stamp.ofWorkload w = .ok stamp ∧ x = .mutate (.create (stamp.build d))
  deletions : (adjustmentOf config w active).kind = .delete → ∀ x ∈ calls,
    ∃ i ∈ active, x = .mutate (.delete i.key)
  idle : (adjustmentOf config w active).isNone = true → calls = []
  deleted : w.isBeingDeleted = true → calls = []

/-- The calls behind the batch, and what the pass comes to by them. -/
inductive Concludes (key : Key) (w : Workload) (d : Adjustment) :
    List Exchange → Except Error Outcome → Prop
  | skipped {report : Report} (hd : report.adjustment = d) (h : report.statusWritten = false) :
    Concludes key w d [] (.ok (.reconciled report))
  | written {report : Report} {status : WorkloadStatus} {stored : Workload}
    (hd : report.adjustment = d) (h : report.statusWritten = true) :
    Concludes key w d [.updateStatus { w with status } (.ok stored)] (.ok (.reconciled report))
  | refused {status : WorkloadStatus} {e : StoreError} :
    Concludes key w d [.updateStatus { w with status } (.error e)] (.error (.commit key e))

/-- The second listing, whatever it answers; there is none if there was nothing to do. -/
inductive Relists (w : Workload) (selector : Selector) (d : Adjustment) : List Exchange → Prop
  | spared (h : d.isNone = true) : Relists w selector d []
  | listed (h : d.isNone = false) (answer : Answer (List Instance)) :
    Relists w selector d [.list w.ns selector answer]

/-- All the calls of a pass in their order, and what the pass comes to by them. -/
inductive Protocol (config : PassConfig) (key : Key) :
    List Exchange → Except Error Outcome → Prop
  | gone {e : StoreError} (h : e.isNotFound = true) :
    Protocol config key [.get key (.error e)] (.ok .workloadGone)
  | unfetched {e : StoreError} (h : e.isNotFound = false) :
    Protocol config key [.get key (.error e)] (.error (.fetch key e))
  | unparsed {w : Workload} {e : SelectorError} (h : w.spec.selector.parse = .error e) :
    Protocol config key [.get key (.ok w)] (.error (.selector key e))
  | unlisted {w : Workload} {selector : Selector} {e : StoreError}
    (h : w.spec.selector.parse = .ok selector) :
    Protocol config key [.get key (.ok w), .list w.ns selector (.error e)] (.error (.list key e))
  | cancelled {w : Workload} {selector : Selector} {listed : List Instance} {calls : List Exchange}
    (h : w.spec.selector.parse = .ok selector)
    (acts : (adjustmentOf config w (Instance.activeOwned w.uid listed)).isNone = false)
    (batch : BatchCalls config w (Instance.activeOwned w.uid listed) calls) :
    Protocol config key ([.get key (.ok w), .list w.ns selector (.ok listed)] ++ calls)
      (.error (.cancelled w.key))
  | concluded {w : Workload} {selector : Selector} {listed : List Instance}
    {calls relist last : List Exchange} {result : Except Error Outcome}
    (h : w.spec.selector.parse = .ok selector)
    (batch : BatchCalls config w (Instance.activeOwned w.uid listed) calls)
    (relists : Relists w selector
      (adjustmentOf config w (Instance.activeOwned w.uid listed)) relist)
    (concludes : Concludes key w
      (adjustmentOf config w (Instance.activeOwned w.uid listed)) last result) :
    Protocol config key
      ([.get key (.ok w), .list w.ns selector (.ok listed)] ++ calls ++ relist ++ last) result

theorem batchCalls_of_madeBy {active : List Instance} {calls : List Exchange}
    (h : Batch.MadeBy (operations config w active) calls) : BatchCalls config w active calls := by
  have hnone : (adjustmentOf config w active).isNone = true → calls = [] := by
    intro hidle
    apply List.eq_nil_iff_forall_not_mem.mpr
    intro x hx
    obtain ⟨op, hop, -⟩ := h x hx
    rw [operations_of_isNone hidle] at hop
    contradiction
  have hop : ∀ x ∈ calls, (adjustmentOf config w active).kind = .create ∧
        (∃ stamp d, Stamp.ofWorkload w = .ok stamp ∧ x = .mutate (.create (stamp.build d))) ∨
      (adjustmentOf config w active).kind = .delete ∧
        ∃ i ∈ active, x = .mutate (.delete i.key) := by
    intro x hx
    obtain ⟨op, hop, call, hmakes, rfl⟩ := h x hx
    rcases mem_operations hop with ⟨hkind, stamp, hstamp, rfl⟩ | ⟨hkind, i, hi, rfl⟩
    · obtain ⟨d, rfl⟩ := hmakes
      exact .inl ⟨hkind, stamp, d, hstamp, rfl⟩
    · obtain rfl : call = .delete i.key := hmakes
      exact .inr ⟨hkind, i, hi, rfl⟩
  refine ⟨fun hkind x hx => ?_, fun hkind x hx => ?_, hnone, fun hdeleted => hnone ?_⟩
  · rcases hop x hx with ⟨-, hcreate⟩ | ⟨hkind', -⟩
    · exact hcreate
    · rw [hkind] at hkind'
      contradiction
  · rcases hop x hx with ⟨hkind', -⟩ | ⟨-, hdelete⟩
    · rw [hkind] at hkind'
      contradiction
    · exact hdelete
  · rw [adjustmentOf_of_deleted hdeleted]
    rfl

theorem readings_log (B : Backend σ) (config : PassConfig) (key : Key) (s : σ) :
    let r := readings B.logged key ⟨s, []⟩
    match r.1 with
    | .error result => Protocol config key r.2.log result
    | .ok made => made.workload.spec.selector.parse = .ok made.selector ∧
        r.2.log = [.get key (.ok made.workload),
          .list made.workload.ns made.selector (.ok made.listed)] := by
  have hget : (B.logged.getWorkload key ⟨s, []⟩).2.log =
      [.get key (B.logged.getWorkload key ⟨s, []⟩).1] := rfl
  unfold readings
  generalize B.logged.getWorkload key ⟨s, []⟩ = a at hget ⊢
  obtain ⟨answer, l⟩ := a
  cases answer with
  | error e =>
    dsimp only at hget ⊢
    rw [hget]
    split
    · rename_i hgone
      exact .gone hgone
    · rename_i hfetch
      exact .unfetched (by simpa using hfetch)
  | ok w =>
    dsimp only at hget ⊢
    cases hparse : w.spec.selector.parse with
    | error e =>
      dsimp only
      rw [hget]
      exact .unparsed hparse
    | ok selector =>
      have hlist : (B.logged.listInstances w.ns selector l).2.log =
          l.log ++ [.list w.ns selector (B.logged.listInstances w.ns selector l).1] := rfl
      dsimp only
      generalize B.logged.listInstances w.ns selector l = a at hlist ⊢
      obtain ⟨answer, l'⟩ := a
      dsimp only at hlist ⊢
      rw [hget] at hlist
      cases answer with
      | error e =>
        dsimp only
        rw [hlist]
        exact .unlisted hparse
      | ok listed => exact ⟨hparse, hlist⟩

theorem observe_log (B : Backend σ) (w : Workload) (selector : Selector) (d : Adjustment)
    (active : List Instance) (l : Logged σ) :
    ∃ relist, Relists w selector d relist ∧
      (observe B.logged w selector d active l).2.log = l.log ++ relist := by
  rcases observe_cases B.logged w selector d active l with
    ⟨hnone, h⟩ | ⟨hnone, listed, -, h⟩ | ⟨hnone, e, -, h⟩
  · exact ⟨_, .spared hnone, by rw [h, List.append_nil]⟩
  · exact ⟨_, .listed hnone _, by rw [h]; rfl⟩
  · exact ⟨_, .listed hnone _, by rw [h]; rfl⟩

theorem commit_log (B : Backend σ) (key : Key) (w : Workload) (d : Adjustment)
    (error : Option ReplicaError) (events : List Event) (counts : Counts) (l : Logged σ) :
    let r := commit B.logged w counts l
    ∃ last, Concludes key w d last (Ending.ofCommit key w d error events counts r.1).result ∧
      r.2.log = l.log ++ last := by
  unfold commit
  split
  · have hupdate : (B.logged.updateStatus { w with status := counts.toStatus w.generation } l).2.log =
        l.log ++ [.updateStatus { w with status := counts.toStatus w.generation }
          (B.logged.updateStatus { w with status := counts.toStatus w.generation } l).1] := rfl
    generalize B.logged.updateStatus { w with status := counts.toStatus w.generation } l = a
      at hupdate ⊢
    obtain ⟨answer, l'⟩ := a
    cases answer with
    | error e => exact ⟨_, .refused, hupdate⟩
    | ok stored => exact ⟨_, .written rfl rfl, hupdate⟩
  · exact ⟨[], .skipped rfl rfl, (List.append_nil _).symm⟩

theorem conclude_log (B : Backend σ) (key : Key) (w : Workload) (selector : Selector)
    (d : Adjustment) (active : List Instance) (error : Option ReplicaError)
    (events : List Event) (l : Logged σ) :
    let r := conclude B.logged key w selector d active error events l
    ∃ relist last, Relists w selector d relist ∧ Concludes key w d last r.1.result ∧
      r.2.log = l.log ++ relist ++ last := by
  rw [conclude_eq]
  obtain ⟨relist, hrelist, hobserve⟩ := observe_log B w selector d active l
  let o := observe B.logged w selector d active l
  let counts := Counts.ofActive o.1 w.spec.minReadySeconds (B.logged.now o.2).1
  obtain ⟨last, hlast, hcommit⟩ :=
    commit_log B key w d error events counts (B.logged.now o.2).2
  refine ⟨relist, last, hrelist, hlast, hcommit.trans ?_⟩
  rw [← hobserve]
  rfl

/-- A batch makes the calls of its pass, and what it leaves under way can make no others. -/
theorem batch_log (B : Backend σ) (config : PassConfig) (cond : Conditions) (r : Readings)
    (l : Logged σ) (plan : Batch.Schedule) (n : Nat) :
    let b := batch B.logged config cond r l
    let ops := operations config r.workload r.active
    (∃ calls, Batch.MadeBy ops calls ∧ b.2.log = l.log ++ calls) ∧
      ∃ calls, Batch.MadeBy ops calls ∧
        (Batch.run B.logged plan n ⟨b.1.slots, b.1.events⟩ b.2).2.log = l.log ++ calls := by
  intro b ops
  have hstart : ∀ slot ∈ (Batch.Progress.start ops).slots, slot.WorksOn ops := by
    intro slot hslot
    obtain ⟨op, hop, rfl⟩ := List.mem_map.mp hslot
    exact hop
  obtain ⟨hslots, calls, hcalls, hlog⟩ := Batch.run_log (B := B) (l := l) cond.plan
    (cond.steps (Batch.Progress.start ops).work) hstart
  obtain ⟨-, more, hmore, hlog'⟩ := Batch.run_log (B := B) (p := b.1) (l := b.2) plan n hslots
  refine ⟨⟨calls, hcalls, hlog⟩, calls ++ more, hcalls.append hmore, ?_⟩
  rw [← List.append_assoc, ← hlog]
  exact hlog'

theorem isNone_eq_false_of_cancelled {r : Readings} {k : Key}
    (h : (act B config cond key r.workload r.selector r.listed s).1.result =
      .error (.cancelled k)) : (adjustmentOf config r.workload r.active).isNone = false := by
  cases hnone : (adjustmentOf config r.workload r.active).isNone with
  | false => rfl
  | true =>
    have hkind : (adjustmentOf config r.workload r.active).kind = .none := beq_iff_eq.mp hnone
    have hmanage : manage B config cond r.workload r.active
        (adjustmentOf config r.workload r.active) s = (.applied none [], s) := by
      rw [manage, hkind]
    unfold act at h
    dsimp only at h
    rw [Readings.active] at hmanage
    rw [hmanage] at h
    exact absurd h ((conclude_fst B key r.workload r.selector _ _ none [] s).2 k)

/-- The log of a pass and of some more steps of the operations that it leaves under way. -/
def log (B : Backend σ) (config : PassConfig) (cond : Conditions) (key : Key) (s : σ)
    (plan : Batch.Schedule) (n : Nat) : List Exchange :=
  let r := run B.logged config cond key ⟨s, []⟩
  (Batch.run B.logged plan n ⟨r.1.leftover, r.1.events⟩ r.2).2.log

theorem log_protocol (B : Backend σ) (config : PassConfig) (cond : Conditions) (key : Key)
    (s : σ) (plan : Batch.Schedule) (n : Nat) :
    Protocol config key (log B config cond key s plan n) (run B config cond key s).1.result := by
  have hplain : run B config cond key s = _ :=
    run_projects B.logged_projects config cond key ⟨s, []⟩
  have hreadings := readings_log B config key s
  rw [hplain, log]
  dsimp only [Prod.map_fst, id]
  rw [run_eq_readings]
  generalize readings B.logged key ⟨s, []⟩ = a at hreadings ⊢
  obtain ⟨made, l⟩ := a
  cases made with
  | error result =>
    dsimp only at hreadings ⊢
    rw [Batch.run_nil]
    exact hreadings
  | ok r =>
    obtain ⟨hparse, hread⟩ := hreadings
    dsimp only at hread ⊢
    obtain ⟨⟨calls, hcalls, hbatch⟩, more, hmore, hleft⟩ := batch_log B config cond r l plan n
    rw [hread] at hbatch hleft
    rcases act_cases B.logged config cond key r l with ⟨error, hact, -⟩ | hact
    · rw [hact, conclude_leftover, Batch.run_nil]
      obtain ⟨relist, last, hrelist, hlast, hlog⟩ := conclude_log B key r.workload r.selector
        (adjustmentOf config r.workload r.active) r.active error
        (batch B.logged config cond r l).1.events (batch B.logged config cond r l).2
      dsimp only
      rw [hlog, hbatch]
      exact .concluded hparse (batchCalls_of_madeBy hcalls) hrelist hlast
    · have hacts := isNone_eq_false_of_cancelled (congrArg (·.1.result) hact)
      rw [hact]
      dsimp only
      rw [hleft]
      exact .cancelled hparse hacts (batchCalls_of_madeBy hmore)

/-- The pass came to its end before its batch. -/
def EndsEarly : Except Error Outcome → Prop
  | .ok .workloadGone | .error (.fetch ..) | .error (.selector ..) | .error (.list ..) => True
  | _ => False

/-- The pass was broken off in its batch, or its status write failed. -/
def EndsUncommitted : Except Error Outcome → Prop
  | .error (.cancelled _) | .error (.commit ..) => True
  | _ => False

theorem view_readings (serves : B.Serves view) (key : Key) (s : σ) :
    view (readings B key s).2 = view s := by
  rcases readings_snd B key s with h | ⟨ns, selector, h⟩
  · rw [h, (serves.getWorkload key s).1]
  · rw [h, (serves.listInstances ns selector _).1, (serves.getWorkload key s).1]

theorem not_endsEarly_conclude (B : Backend σ) (key : Key) (w : Workload) (selector : Selector)
    (d : Adjustment) (active : List Instance) (error : Option ReplicaError)
    (events : List Event) (s : σ) :
    ¬ EndsEarly (conclude B key w selector d active error events s).1.result := by
  rw [conclude_eq]
  dsimp only [Prod.map_fst]
  generalize (commit B w _ _).1 = answer
  cases answer <;> exact id

theorem run_of_endsEarly (h : EndsEarly (run B config cond key s).1.result) :
    (run B config cond key s).1.leftover = [] ∧
      (run B config cond key s).2 = (readings B key s).2 := by
  rw [run_eq_readings] at h ⊢
  generalize readings B key s = a at h ⊢
  obtain ⟨made, s'⟩ := a
  cases made with
  | error result => exact ⟨rfl, rfl⟩
  | ok r =>
    dsimp only at h
    rcases act_cases B config cond key r s' with ⟨error, hact, -⟩ | hact
    · rw [hact] at h
      exact absurd h (not_endsEarly_conclude B key _ _ _ _ _ _ _)
    · rw [hact] at h
      contradiction

theorem view_commit_of_error (serves : B.Serves view) {counts : Counts} {e : StoreError}
    (h : (commit B w counts s).1 = .error e) : view (commit B w counts s).2 = view s := by
  unfold commit at h ⊢
  split at h
  · rename_i hneeds
    rw [if_pos hneeds]
    have hupdate := serves.updateStatus { w with status := counts.toStatus w.generation } s
    generalize B.updateStatus { w with status := counts.toStatus w.generation } s = a
      at h hupdate ⊢
    obtain ⟨answer, s'⟩ := a
    rcases hupdate with ⟨e', rfl, hview⟩ | ⟨stored, -, -, rfl, -⟩
    · exact hview
    · contradiction
  · contradiction

theorem view_conclude_of_endsUncommitted (serves : B.Serves view) {selector : Selector}
    {d : Adjustment} {active : List Instance} {error : Option ReplicaError} {events : List Event}
    (h : EndsUncommitted (conclude B key w selector d active error events s).1.result) :
    view (conclude B key w selector d active error events s).2 = view s := by
  rw [conclude_eq] at h ⊢
  dsimp only [Prod.map_fst, Prod.map_snd, id] at h ⊢
  cases hcommit : (commit B w (Counts.ofActive (observe B w selector d active s).1
      w.spec.minReadySeconds (B.now (observe B w selector d active s).2).1)
      (B.now (observe B w selector d active s).2).2).1 with
  | error e => rw [view_commit_of_error serves hcommit, serves.now, view_observe serves]
  | ok written =>
    rw [hcommit] at h
    contradiction

theorem workloads_of_endsUncommitted (serves : B.Serves view)
    (h : EndsUncommitted (run B config cond key s).1.result) (plan : Batch.Schedule) (n : Nat) :
    let r := run B config cond key s
    (view (Batch.run B plan n ⟨r.1.leftover, r.1.events⟩ r.2).2).workloads =
      (view s).workloads := by
  intro r
  apply Batch.run_keeps (Batch.callsKeep_workloads serves (view s).workloads)
  subst r
  have hview := view_readings serves key s
  rw [run_eq_readings] at h ⊢
  generalize readings B key s = a at h hview ⊢
  obtain ⟨made, s'⟩ := a
  cases made with
  | error result => exact congrArg Cluster.workloads hview
  | ok r =>
    have hbatch : (view (batch B config cond r s').2).workloads = (view s).workloads :=
      batch_keeps (Batch.callsKeep_workloads serves _) config cond r
        (congrArg Cluster.workloads hview)
    dsimp only at h ⊢
    rcases act_cases B config cond key r s' with ⟨error, hact, -⟩ | hact
    · rw [hact] at h ⊢
      rw [view_conclude_of_endsUncommitted serves h]
      exact hbatch
    · rw [hact]
      exact hbatch

theorem readings_world_snd (key : Key) (s : World) : ∃ gets lists,
    (readings World.backend key s).2 = s.withTally { s.store.tally with gets, lists } := by
  have hget : (World.backend.getWorkload key s).2 =
      s.withTally { s.store.tally with gets := s.store.tally.gets + 1 } :=
    congrArg (fun store => { s with store }) (Store.getWorkload_snd key s.store)
  rcases readings_snd World.backend key s with h | ⟨ns, selector, h⟩
  · exact ⟨_, _, h.trans hget⟩
  · refine ⟨s.store.tally.gets + 1, s.store.tally.lists + 1, h.trans ?_⟩
    rw [World.listInstances_eq, hget]
    rfl

/-- The protocol of every pass on every backend, and what it means for the store in memory. -/
theorem run_protocol (config : PassConfig) (cond : Conditions) (key : Key) :
    (∀ {σ : Type} (B : Backend σ) (s : σ) (plan : Batch.Schedule) (n : Nat),
      Prod.map id Logged.state (run B.logged config cond key ⟨s, []⟩) = run B config cond key s ∧
        Protocol config key (log B config cond key s plan n)
          (run B config cond key s).1.result) ∧
    ∀ (s : World) (plan : Batch.Schedule) (n : Nat),
      let r := run World.backend config cond key s
      let s' := (Batch.run World.backend plan n ⟨r.1.leftover, r.1.events⟩ r.2).2
      (EndsEarly r.1.result → ∃ gets lists,
        s' = s.withTally { s.store.tally with gets, lists }) ∧
      (EndsUncommitted r.1.result → s'.cluster.workloads = s.cluster.workloads) := by
  refine ⟨fun B s plan n => ⟨?_, log_protocol B config cond key s plan n⟩, fun s plan n => ?_⟩
  · exact (run_projects B.logged_projects config cond key ⟨s, []⟩).symm
  intro r s'
  refine ⟨fun hearly => ?_, fun huncommitted => ?_⟩
  · obtain ⟨hleft, hstate⟩ := run_of_endsEarly hearly
    have hs' : s' = (readings World.backend key s).2 := by
      rw [← hstate]
      simp only [s', r, hleft, Batch.run_nil]
    rw [hs']
    exact readings_world_snd key s
  · exact workloads_of_endsUncommitted World.backend_serves huncommitted plan n

/-- A pass that is broken off inside its first creation; both of its creations land behind it. -/
theorem run_protocol_broken_off :
    let w := Specimen.plain "web" 0 3
    let s := Specimen.world (Specimen.crowd w ["a"])
    let cond : Conditions := ⟨.inOrder, some ⟨1, true⟩⟩
    let r := run World.backend ⟨5, .observed⟩ cond w.key s
    let s' := (Batch.run World.backend .inOrder 9 ⟨r.1.leftover, r.1.events⟩ r.2).2
    r.1.result = .error (.cancelled w.key) ∧
      (log World.backend ⟨5, .observed⟩ cond w.key s .inOrder 9).length = 4 ∧
      Protocol ⟨5, .observed⟩ w.key (log World.backend ⟨5, .observed⟩ cond w.key s .inOrder 9)
        r.1.result ∧
      s'.cluster.instances.length = 3 ∧ s'.cluster.workloads = s.cluster.workloads := by
  intro w s cond r s'
  obtain ⟨hlog, hstore⟩ := run_protocol ⟨5, .observed⟩ cond w.key
  have hresult : r.1.result = .error (.cancelled w.key) := by decide +kernel
  have huncommitted : EndsUncommitted r.1.result := by rw [hresult]; trivial
  exact ⟨hresult, by decide +kernel, (hlog World.backend s .inOrder 9).2, by decide +kernel,
    (hstore s .inOrder 9).2 huncommitted⟩

end Pass

end ReplicaController

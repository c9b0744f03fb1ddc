import ReplicaController.Proofs.Pass.Stages

/-!
# Logged passes

A backend projects onto another one if its states can be read as states of that one, and its calls
then answer alike. A pass comes to the same on both. A logged backend keeps a log of the calls made
of it and projects onto the backend it logs, so what a log says of a pass holds of the pass as it is
without one.
-/

namespace ReplicaController

theorem eq_append_cons_cases {α : Type} {as bs before after : List α} {a : α}
    (h : as ++ bs = before ++ a :: after) :
    (∃ rest, as = before ++ a :: rest) ∨
      ∃ front, before = as ++ front ∧ bs = front ++ a :: after := by
  rcases List.append_eq_append_iff.mp h with ⟨front, hbefore, hbs⟩ | ⟨back, has, hback⟩
  · exact .inr ⟨front, hbefore, hbs⟩
  · cases back with
    | nil => exact .inr ⟨[], by simpa using has.symm, by simpa using hback.symm⟩
    | cons b rest =>
      obtain ⟨rfl, -⟩ := List.cons.inj hback
      exact .inl ⟨rest, has⟩

/-- A call made of a backend: of a reading or a status write with its answer, of a creation or a
deletion as it enters. -/
inductive Exchange
  | get (key : Key) (answer : Answer Workload)
  | listWorkloads (answer : Answer (List Workload))
  | list (ns : String) (selector : Selector) (answer : Answer (List Instance))
  | mutate (call : Mutation)
  | updateStatus (copy : Workload) (answer : Answer Workload)

/-- A state with the calls that led to it, in their order. -/
structure Logged (σ : Type) where
  state : σ
  log : List Exchange

namespace Backend

variable {σ τ : Type}

/-- The backend with a log of its calls. -/
def logged (B : Backend σ) : Backend (Logged σ) where
  getWorkload key l :=
    let (answer, state) := B.getWorkload key l.state
    (answer, ⟨state, l.log ++ [.get key answer]⟩)
  listWorkloads l :=
    let (answer, state) := B.listWorkloads l.state
    (answer, ⟨state, l.log ++ [.listWorkloads answer]⟩)
  listInstances ns selector l :=
    let (answer, state) := B.listInstances ns selector l.state
    (answer, ⟨state, l.log ++ [.list ns selector answer]⟩)
  enter call l :=
    let (answer, state) := B.enter call l.state
    (answer, ⟨state, l.log ++ [.mutate call]⟩)
  leave call l :=
    let (answer, state) := B.leave call l.state
    (answer, ⟨state, l.log⟩)
  updateStatus copy l :=
    let (answer, state) := B.updateStatus copy l.state
    (answer, ⟨state, l.log ++ [.updateStatus copy answer]⟩)
  draw l :=
    let (d, state) := B.draw l.state
    (d, ⟨state, l.log⟩)
  now l :=
    let (t, state) := B.now l.state
    (t, ⟨state, l.log⟩)

/-- Read through `f`, the calls of `C` answer as those of `B` do. -/
structure Projects (C : Backend τ) (f : τ → σ) (B : Backend σ) : Prop where
  getWorkload : ∀ key t, B.getWorkload key (f t) = Prod.map id f (C.getWorkload key t)
  listWorkloads : ∀ t, B.listWorkloads (f t) = Prod.map id f (C.listWorkloads t)
  listInstances : ∀ ns selector t,
    B.listInstances ns selector (f t) = Prod.map id f (C.listInstances ns selector t)
  enter : ∀ call t, B.enter call (f t) = Prod.map id f (C.enter call t)
  leave : ∀ call t, B.leave call (f t) = Prod.map id f (C.leave call t)
  updateStatus : ∀ copy t, B.updateStatus copy (f t) = Prod.map id f (C.updateStatus copy t)
  draw : ∀ t, B.draw (f t) = Prod.map id f (C.draw t)
  now : ∀ t, B.now (f t) = Prod.map id f (C.now t)

theorem logged_projects (B : Backend σ) : B.logged.Projects Logged.state B where
  getWorkload _ _ := rfl
  listWorkloads _ := rfl
  listInstances _ _ _ := rfl
  enter _ _ := rfl
  leave _ _ := rfl
  updateStatus _ _ := rfl
  draw _ := rfl
  now _ := rfl

end Backend

variable {σ τ : Type} {B : Backend σ} {C : Backend τ} {f : τ → σ}

namespace Batch

theorem Slot.nextCall_projects (h : C.Projects f B) (op : Operation) (t : τ) :
    nextCall B op (f t) = Prod.map id f (nextCall C op t) := by
  cases op with
  | create stamp =>
    unfold nextCall
    rw [h.draw]
    rfl
  | delete key => rfl

theorem Slot.step_projects (h : C.Projects f B) (slot : Slot) (t : τ) :
    slot.step B (f t) = Prod.map id f (slot.step C t) := by
  cases slot with
  | calling op n =>
    simp only [step]
    rw [nextCall_projects h]
    generalize nextCall C op t = r
    obtain ⟨call, t₁⟩ := r
    simp only [Prod.map_apply, id_eq]
    rw [h.enter]
    generalize C.enter call t₁ = r
    obtain ⟨answer, t₂⟩ := r
    cases answer <;> rfl
  | inside op n call =>
    change (answered op n call (B.leave call (f t)).1, (B.leave call (f t)).2) = _
    rw [h.leave]
    rfl
  | finished outcome => rfl

theorem Progress.stepAt_projects (h : C.Projects f B) (n : Nat) (p : Progress) (t : τ) :
    p.stepAt B n (f t) = Prod.map id f (p.stepAt C n t) := by
  unfold stepAt
  cases p.slots[n]? with
  | none => rfl
  | some slot =>
    dsimp only
    rw [Slot.step_projects h]
    rfl

theorem run_projects (h : C.Projects f B) (plan : Schedule) (n : Nat) (p : Progress) (t : τ) :
    run B plan n p (f t) = Prod.map id f (run C plan n p t) := by
  induction n generalizing p t with
  | zero => rfl
  | succ n ih =>
    unfold run
    split
    · rfl
    · rw [Progress.stepAt_projects h]
      exact ih _ _

end Batch

namespace Pass

variable {config : PassConfig} {cond : Conditions} {key : Key}

theorem runBatch_projects (h : C.Projects f B) (cond : Conditions) (kind : Batch.Kind)
    (ops : List Batch.Operation) (t : τ) :
    runBatch B cond kind ops (f t) = Prod.map id f (runBatch C cond kind ops t) := by
  unfold runBatch
  cases cond.halt with
  | none =>
    dsimp only [Batch.finish]
    rw [Batch.run_projects h]
    rfl
  | some halt =>
    dsimp only
    rw [Batch.run_projects h]
    generalize Batch.run C cond.plan _ _ t = r
    obtain ⟨p, t₁⟩ := r
    dsimp only [Prod.map, id]
    split <;> rfl

theorem manage_projects (h : C.Projects f B) (config : PassConfig) (cond : Conditions)
    (w : Workload) (active : List Instance) (d : Adjustment) (t : τ) :
    manage B config cond w active d (f t) = Prod.map id f (manage C config cond w active d t) := by
  unfold manage
  cases d.kind with
  | none => rfl
  | create =>
    dsimp only
    cases Stamp.ofWorkload w with
    | error e => rfl
    | ok stamp => exact runBatch_projects h cond _ _ t
  | delete => exact runBatch_projects h cond _ _ t

theorem observe_projects (h : C.Projects f B) (w : Workload) (selector : Selector)
    (d : Adjustment) (active : List Instance) (t : τ) :
    observe B w selector d active (f t) = Prod.map id f (observe C w selector d active t) := by
  unfold observe
  split
  · rfl
  · rw [h.listInstances]
    generalize C.listInstances w.ns selector t = r
    obtain ⟨answer, t₁⟩ := r
    cases answer <;> rfl

theorem commit_projects (h : C.Projects f B) (w : Workload) (counts : Counts) (t : τ) :
    commit B w counts (f t) = Prod.map id f (commit C w counts t) := by
  unfold commit
  split
  · rw [h.updateStatus]
    generalize C.updateStatus _ t = r
    obtain ⟨answer, t₁⟩ := r
    cases answer <;> rfl
  · rfl

theorem conclude_projects (h : C.Projects f B) (key : Key) (w : Workload) (selector : Selector)
    (d : Adjustment) (active : List Instance) (error : Option ReplicaError)
    (events : List Event) (t : τ) :
    conclude B key w selector d active error events (f t) =
      Prod.map id f (conclude C key w selector d active error events t) := by
  rw [conclude_eq, conclude_eq, observe_projects h]
  simp only [Prod.map_fst, Prod.map_snd, id_eq, h.now, commit_projects h]
  rfl

theorem act_projects (h : C.Projects f B) (config : PassConfig) (cond : Conditions) (key : Key)
    (w : Workload) (selector : Selector) (listed : List Instance) (t : τ) :
    act B config cond key w selector listed (f t) =
      Prod.map id f (act C config cond key w selector listed t) := by
  unfold act
  dsimp only
  rw [manage_projects h]
  generalize manage C config cond w _ _ t = r
  obtain ⟨action, t₁⟩ := r
  cases action with
  | applied error events => exact conclude_projects h key w selector _ _ error events t₁
  | cancelled events leftover => rfl

/-- A pass comes to the same wherever its calls are answered alike. -/
theorem run_projects (h : C.Projects f B) (config : PassConfig) (cond : Conditions) (key : Key)
    (t : τ) : run B config cond key (f t) = Prod.map id f (run C config cond key t) := by
  unfold run
  rw [h.getWorkload]
  generalize C.getWorkload key t = r
  obtain ⟨answer, t₁⟩ := r
  cases answer with
  | error e =>
    dsimp only [Prod.map, id]
    split <;> rfl
  | ok w =>
    dsimp only [Prod.map, id]
    cases w.spec.selector.parse with
    | error e => rfl
    | ok selector =>
      dsimp only
      rw [h.listInstances]
      generalize C.listInstances w.ns selector t₁ = r
      obtain ⟨answer, t₂⟩ := r
      cases answer with
      | error e => rfl
      | ok listed => exact act_projects h config cond key w selector listed t₂

end Pass

end ReplicaController

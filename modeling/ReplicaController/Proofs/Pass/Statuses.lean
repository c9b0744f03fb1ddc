import ReplicaController.Proofs.Pass.Contested
import ReplicaController.Proofs.Workload.Counts

/-!
# Statuses in order

A status is in order if no more instances are available than ready, and no more are ready than there
are. The counts of any instances are in order, if there are fewer than a counter can hold. A stored
status is one that was put, or one that a pass has counted. So all stored statuses stay in order
over a run of passes, whatever other actors do before each of its calls, as long as they put no
status that is not.
-/

namespace ReplicaController

structure WorkloadStatus.Ordered (status : WorkloadStatus) : Prop where
  available_le : status.availableReplicas ≤ status.readyReplicas
  ready_le : status.readyReplicas ≤ status.replicas

def Cluster.StatusesOrdered (c : Cluster) : Prop :=
  ∀ key w, c.workload? key = some w → w.status.Ordered

theorem Counts.ordered_ofActive {active : List Instance} (h : active.length < UInt32.size)
    (m : UInt32) (t : Instant) (generation : Int64) :
    ((ofActive active m t).toStatus generation).Ordered :=
  ⟨available_le_ready h m t, ready_le_replicas h m t⟩

namespace Store

/-- If the request puts a status, that is in order. -/
def Request.PutsOrdered : Request → Prop
  | .putWorkload w | .updateStatus w => w.status.Ordered
  | _ => True

theorem status_after {s : Store} {r : Request} {key : Key} {w : Workload}
    (h : (s.after r).cluster.workload? key = some w) :
    (∃ v, s.cluster.workload? key = some v ∧ v.status = w.status) ∨ r = .putWorkload w ∨
      ∃ copy, r = .updateStatus copy ∧ w.status = copy.status := by
  rcases workload?_after h with hw | hput | ⟨copy, v, rfl, hv, -⟩
  · exact .inl ⟨w, hw, rfl⟩
  · exact .inr (.inl hput)
  · rcases updateStatus_cases copy s with ⟨e, -, hc⟩ | ⟨stored, -, -, -, hc⟩
    · have hw : s.cluster.workload? key = some w := hc ▸ h
      exact .inl ⟨w, hw, rfl⟩
    · have hw : (s.cluster.workloads.insert copy.key (stored.withStatus copy.status)).find? key =
          some w := by
        rw [← h, Cluster.workload?]
        exact congrArg (fun c : Cluster => c.workloads.find? key) hc.symm
      by_cases hkey : key = copy.key
      · subst hkey
        rw [SortedMap.find?_insert_self, Option.some.injEq] at hw
        exact .inr (.inr ⟨copy, rfl, hw ▸ rfl⟩)
      · rw [SortedMap.find?_insert_of_ne _ _ hkey] at hw
        exact .inl ⟨w, hw, rfl⟩

theorem statusesOrdered_after {s : Store} (h : s.cluster.StatusesOrdered) {r : Request}
    (hr : r.PutsOrdered) : (s.after r).cluster.StatusesOrdered := by
  intro key w hw
  rcases status_after hw with ⟨v, hv, hstatus⟩ | rfl | ⟨copy, rfl, hstatus⟩
  · exact hstatus ▸ h key v hv
  · exact hr
  · exact hstatus ▸ hr

end Store

namespace Pass

variable {σ : Type} {B : Backend σ} {config : PassConfig} {cond : Conditions} {key : Key} {s : σ}

theorem act_eq_manage (B : Backend σ) (config : PassConfig) (cond : Conditions) (key : Key)
    (r : Readings) (s : σ) :
    act B config cond key r.workload r.selector r.listed s =
      let d := adjustmentOf config r.workload r.active
      match manage B config cond r.workload r.active d s with
      | (.cancelled events leftover, s) =>
        (⟨.error (.cancelled r.workload.key), events, leftover⟩, s)
      | (.applied error events, s) =>
        conclude B key r.workload r.selector d r.active error events s := rfl

def counted? (B : Backend σ) (config : PassConfig) (cond : Conditions) (key : Key) (s : σ) :
    Option (List Instance) :=
  match readings B key s with
  | (.error _, _) => none
  | (.ok r, s) =>
    let d := adjustmentOf config r.workload r.active
    match manage B config cond r.workload r.active d s with
    | (.cancelled _ _, _) => none
    | (.applied _ _, s) => some (observe B r.workload r.selector d r.active s).1

/-- All calls of a pass keep the property, if the status that is written is in order. -/
structure KeepsOrdered (B : Backend σ) (P : σ → Prop) : Prop where
  batch : Batch.CallsKeep B P
  getWorkload : ∀ key s, P s → P (B.getWorkload key s).2
  listInstances : ∀ ns selector s, P s → P (B.listInstances ns selector s).2
  updateStatus : ∀ w s, w.status.Ordered → P s → P (B.updateStatus w s).2
  now : ∀ s, P s → P (B.now s).2

namespace KeepsOrdered

variable {P : σ → Prop}

theorem readings (keeps : KeepsOrdered B P) (h : P s) (key : Key) :
    P (Pass.readings B key s).2 := by
  rcases readings_snd B key s with heq | ⟨ns, selector, heq⟩
  · exact heq ▸ keeps.getWorkload key s h
  · exact heq ▸ keeps.listInstances ns selector _ (keeps.getWorkload key s h)

theorem manage (keeps : KeepsOrdered B P) (h : P s) (config : PassConfig) (cond : Conditions)
    (w : Workload) (active : List Instance) :
    P (Pass.manage B config cond w active (adjustmentOf config w active) s).2 := by
  have hbatch : P (runOperations B cond (operations config w active) s).2 :=
    Batch.run_keeps keeps.batch _ _ _ h
  rcases manage_cases B config cond w active s with ⟨error, heq, -⟩ | heq
  · exact heq ▸ hbatch
  · exact heq ▸ hbatch

theorem conclude (keeps : KeepsOrdered B P) (h : P s) {w : Workload} {selector : Selector}
    {d : Adjustment} {active : List Instance}
    (small : (observe B w selector d active s).1.length < UInt32.size) (key : Key)
    (error : Option ReplicaError) (events : List Event) :
    P (Pass.conclude B key w selector d active error events s).2 := by
  have hobserved : P (observe B w selector d active s).2 := by
    rcases observe_cases B w selector d active s with ⟨-, ho⟩ | ⟨-, listed, -, ho⟩ | ⟨-, e, -, ho⟩
    · exact ho ▸ h
    · exact ho ▸ keeps.listInstances w.ns selector s h
    · exact ho ▸ keeps.listInstances w.ns selector s h
  have hready := keeps.now _ hobserved
  rw [conclude_eq]
  change P (commit B w _ _).2
  rw [commit_snd]
  split
  · exact keeps.updateStatus _ _ (Counts.ordered_ofActive small _ _ _) hready
  · exact hready

theorem run (keeps : KeepsOrdered B P) (h : P s)
    (small : ∀ is, counted? B config cond key s = some is → is.length < UInt32.size) :
    P (Pass.run B config cond key s).2 := by
  have hread := keeps.readings h key
  unfold counted? at small
  rw [run_eq_readings]
  generalize Pass.readings B key s = a at hread small
  obtain ⟨answer, s₁⟩ := a
  cases answer with
  | error result => exact hread
  | ok r =>
    have hmanage := keeps.manage hread config cond r.workload r.active
    dsimp only at small ⊢
    rw [act_eq_manage]
    dsimp only
    generalize Pass.manage B config cond r.workload r.active
      (adjustmentOf config r.workload r.active) s₁ = b at hmanage small
    obtain ⟨action, s₂⟩ := b
    cases action with
    | cancelled events leftover => exact hmanage
    | applied error events => exact keeps.conclude hmanage (small _ rfl) _ _ _

end KeepsOrdered

end Pass

/-- A pass that is to be made. -/
structure Errand where
  key : Key
  config : PassConfig
  cond : Pass.Conditions

namespace Contested

variable {others : Nat → List Store.Request} {x : Contested}

def passes (others : Nat → List Store.Request) (x : Contested) (es : List Errand) : Contested :=
  es.foldl (fun x e => (Pass.run (backend others) e.config e.cond e.key x).2) x

def counted? (others : Nat → List Store.Request) (x : Contested) (e : Errand) :
    Option (List Instance) :=
  Pass.counted? (backend others) e.config e.cond e.key x

/-- Each of the passes counts fewer instances than a counter can hold, if it comes to count. -/
def CountsFit (others : Nat → List Store.Request) (x : Contested) (es : List Errand) : Prop :=
  ∀ (n : Nat) (e : Errand), es[n]? = some e →
    ∀ is, counted? others (passes others x (es.take n)) e = some is → is.length < UInt32.size

theorem countsFit_nil : CountsFit others x [] := fun _ _ he => by cases he

theorem countsFit_cons {e : Errand} {es : List Errand} :
    CountsFit others x (e :: es) ↔
      (∀ is, counted? others x e = some is → is.length < UInt32.size) ∧
        CountsFit others (passes others x [e]) es := by
  refine ⟨fun h => ⟨h 0 e rfl, fun n e' he' => h (n + 1) e' he'⟩, ?_⟩
  rintro ⟨hfirst, hrest⟩ n e' he'
  cases n with
  | zero =>
    rw [List.getElem?_cons_zero, Option.some.injEq] at he'
    exact he' ▸ hfirst
  | succ n => exact hrest n e' he'

theorem CountsFit.take {es : List Errand} (h : CountsFit others x es) (n : Nat) :
    CountsFit others x (es.take n) := by
  intro m e he
  have hm : m < n := by
    by_contra hle
    rw [List.getElem?_take, if_neg hle] at he
    cases he
  rw [List.getElem?_take_of_lt hm] at he
  rw [List.take_take, Nat.min_eq_left (Nat.le_of_lt hm)]
  exact h m e he

section Ordered

variable (hothers : ∀ n, ∀ r ∈ others n, r.PutsOrdered)

include hothers

theorem statusesOrdered_interfere (h : x.cluster.StatusesOrdered) :
    (x.interfere others).cluster.StatusesOrdered := by
  have hsuffered : ((others x.calls).foldl suffer x).cluster.StatusesOrdered :=
    List.foldlRecOn (motive := fun y => y.cluster.StatusesOrdered) (others x.calls) suffer h
      fun _ hy r hr => Store.statusesOrdered_after hy (hothers x.calls r hr)
  exact hsuffered

theorem statusesOrdered_call (h : x.cluster.StatusesOrdered) {r : Store.Request}
    (hr : r.PutsOrdered) : ((x.interfere others).world.store.after r).cluster.StatusesOrdered :=
  Store.statusesOrdered_after (statusesOrdered_interfere hothers h) hr

theorem keepsOrdered :
    Pass.KeepsOrdered (backend others) fun x => x.cluster.StatusesOrdered where
  batch := {
    enter := fun call x h => by
      cases call with
      | create i => exact statusesOrdered_call hothers h (r := .enterCreate) trivial
      | delete key => exact statusesOrdered_call hothers h (r := .enterDelete) trivial
    leave := fun call x h => by
      cases call with
      | create i => exact statusesOrdered_call hothers h (r := .leaveCreate i) trivial
      | delete key => exact statusesOrdered_call hothers h (r := .leaveDelete key) trivial
    draw := fun _ h => h }
  getWorkload key _ h := statusesOrdered_call hothers h (r := .getWorkload key) trivial
  listInstances ns selector _ h :=
    statusesOrdered_call hothers h (r := .listInstances ns selector) trivial
  updateStatus w _ hw h := statusesOrdered_call hothers h (r := .updateStatus w) hw
  now _ h := h

theorem statusesOrdered_passes {es : List Errand} (h : x.cluster.StatusesOrdered)
    (fit : CountsFit others x es) : (passes others x es).cluster.StatusesOrdered := by
  induction es generalizing x with
  | nil => exact h
  | cons e es ih =>
    obtain ⟨hfirst, hrest⟩ := countsFit_cons.mp fit
    exact ih ((keepsOrdered hothers).run h hfirst) hrest

end Ordered

/-- The counts of instances are lawful, and so all stored statuses stay in order over a run of
passes, whatever others do meanwhile. -/
theorem statuses_stay_ordered :
    (∀ (active : List Instance) (m : UInt32) (t : Instant), active.length < UInt32.size →
      Counts.Lawful active m t) ∧
    ∀ (others : Nat → List Store.Request) (x : Contested) (es : List Errand),
      (∀ n, ∀ r ∈ others n, r.PutsOrdered) → x.cluster.StatusesOrdered → CountsFit others x es →
      ∀ n, (passes others x (es.take n)).cluster.StatusesOrdered := by
  constructor
  · intro active m t hlength
    exact Counts.lawful hlength m t
  · intro others x es hothers h fit n
    exact statusesOrdered_passes hothers h (fit.take n)

/-- Before the second call, the instance becomes ready. -/
def readying : Nat → List Store.Request := fun n =>
  if n = 1 then [.setReady ⟨"shop", "a"⟩ true .epoch] else []

theorem statuses_stay_ordered_readying :
    let w := Specimen.plain "web" 0 2
    let a := Specimen.running w "a" .epoch
    let x : Contested := ⟨Specimen.world (Specimen.crowd w ["a"]), 0, []⟩
    let e : Errand := ⟨w.key, ⟨5, .observed⟩, ⟨.inOrder, none⟩⟩
    [a].length < UInt32.size ∧ (∀ n, ∀ r ∈ readying n, r.PutsOrdered) ∧
      x.cluster.StatusesOrdered ∧ CountsFit readying x [e, e] ∧ Counts.Lawful [a] 0 .epoch ∧
      ∀ n, (passes readying x ([e, e].take n)).cluster.StatusesOrdered := by
  intro w a x e
  have hlength : [a].length < UInt32.size := by decide
  have hothers : ∀ n, ∀ r ∈ readying n, r.PutsOrdered := by
    intro n r hr
    unfold readying at hr
    split at hr
    · cases List.mem_singleton.mp hr
      trivial
    · cases hr
  have hordered : x.cluster.StatusesOrdered := by
    intro key v hv
    obtain ⟨-, rfl⟩ := Specimen.workload?_crowd_iff.mp hv
    exact ⟨by decide, by decide⟩
  have hfirst : (counted? readying x e).all (fun is => is.length < UInt32.size) = true := by
    decide +kernel
  have hsecond : (counted? readying (passes readying x [e]) e).all
      (fun is => is.length < UInt32.size) = true := by decide +kernel
  have fit : CountsFit readying x [e, e] := by
    rw [countsFit_cons, countsFit_cons]
    rw [Option.all_eq_true] at hfirst hsecond
    exact ⟨fun is his => of_decide_eq_true (hfirst is his),
      fun is his => of_decide_eq_true (hsecond is his), countsFit_nil⟩
  exact ⟨hlength, hothers, hordered, fit, statuses_stay_ordered.1 [a] 0 .epoch hlength,
    statuses_stay_ordered.2 readying x [e, e] hothers hordered fit⟩

end Contested

end ReplicaController

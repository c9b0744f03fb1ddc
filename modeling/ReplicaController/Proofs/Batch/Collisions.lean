import Mathlib.Algebra.Order.BigOperators.Group.List
import Mathlib.Algebra.Order.Group.Nat
import Mathlib.Data.Nat.Cast.Basic
import ReplicaController.Proofs.Batch.Effect
import ReplicaController.Proofs.Batch.Trace
import ReplicaController.Proofs.Specimen

/-!
# Creations that collide

The store in memory may reject so many creations as if their names were taken, and leaves it to the
order of events which ones. A creation that is rejected five times fails. So a batch of creations
has as many failures as the rejections suffice for at most, it fails as a whole if they suffice for
all of it, and every call was either rejected or added an instance.
-/

namespace ReplicaController

namespace Store

theorem leaveCreate_of_free {s : Store} {i : Instance} (hfailing : s.faults.failingCreates = 0)
    (hopen : i.ns ∉ s.faults.terminatingNamespaces) (hfree : s.cluster.hasInstance i.key = false) :
    (0 < s.faults.conflictingCreates ∧
      (s.leaveCreate i).1 = .error (.alreadyExists .unit i.key) ∧
      (s.leaveCreate i).2.faults =
        { s.faults with conflictingCreates := s.faults.conflictingCreates - 1 }) ∨
    (s.faults.conflictingCreates = 0 ∧ (s.leaveCreate i).1 = .ok () ∧
      (s.leaveCreate i).2.faults = s.faults) := by
  have hopen' : s.faults.terminatingNamespaces.contains i.ns = false := by simpa using hopen
  unfold leaveCreate faultOfCreate
  by_cases hleft : 0 < s.faults.conflictingCreates
  · simp [hopen, hleft]
  · simp [hopen, hfailing, hfree, Nat.eq_zero_of_not_pos hleft]

end Store

namespace Batch

def Slot.isFailed : Slot → Bool
  | .finished (.error _) => true
  | _ => false

def Reply.Rejected {σ : Type} (r : Reply σ) : Prop :=
  ∃ i, r.call = .create i ∧ r.answer = .error (.alreadyExists .unit i.key)

/-- Nothing stood under the key of the call when it was answered. -/
def Reply.Free (r : Reply World) : Prop := r.found.cluster.hasInstance r.call.key = false

theorem Reply.Rejected.collides {σ : Type} {r : Reply σ} (h : r.Rejected) : r.collides = true := by
  obtain ⟨i, hcall, hanswer⟩ := h
  rw [Reply.collides, hcall, hanswer]
  rfl

theorem Slot.isDone_answered {σ : Type} (r : Reply σ) :
    (answered r.op r.attempt r.call r.answer).1.isDone = r.answer.isOk := by
  rw [answered_eq]
  cases hanswer : r.answer with
  | ok =>
    have hlast : r.retried = false := by simp [Reply.retried, Reply.collides_of_ok hanswer]
    rw [hlast]
    rfl
  | error e => cases r.retried <;> rfl

theorem Slot.isInside_answered {σ : Type} (r : Reply σ) :
    (answered r.op r.attempt r.call r.answer).1.isInside = false := by
  rw [answered_eq]
  cases r.retried <;> rfl

/-- How the rejections planned in `base` were used up by the calls so far. -/
structure Rationed (base : World) (told : List (Reply World)) (slots : List Slot) (s : World) :
    Prop where
  failing : s.store.faults.failingCreates = 0
  terminating : s.store.faults.terminatingNamespaces = base.store.faults.terminatingNamespaces
  answers : ∀ r ∈ told, r.answer = .ok () ∨ r.Rejected
  consumed : told.countP (·.collides) + s.store.faults.conflictingCreates =
    base.store.faults.conflictingCreates
  spent : ∀ r ∈ told, r.answer = .ok () → s.store.faults.conflictingCreates = 0
  done : told.countP (·.answer.isOk) = slots.countP Slot.isDone
  entered : s.store.tally.creates =
    base.store.tally.creates + told.length + slots.countP Slot.isInside

namespace Rationed

variable {base s : World} {told : List (Reply World)} {before after : List Slot} {slot : Slot}

theorem start (hfailing : s.store.faults.failingCreates = 0) (ops : List Operation) :
    Rationed s [] (Progress.start ops).slots s where
  failing := hfailing
  terminating := rfl
  answers := by simp
  consumed := Nat.zero_add _
  spent := by simp
  done := by
    rw [List.countP_nil, eq_comm, List.countP_eq_zero]
    intro slot hslot
    obtain ⟨op, -, rfl⟩ := List.mem_map.mp hslot
    exact Bool.false_ne_true
  entered := by
    rw [List.length_nil, Nat.add_zero, List.countP_eq_zero.mpr, Nat.add_zero]
    intro slot hslot
    obtain ⟨op, -, rfl⟩ := List.mem_map.mp hslot
    exact Bool.false_ne_true

theorem answered {s' : World} {r : Reply World} {new : Slot}
    (h : Rationed base told (before ++ slot :: after) s) (hinside : slot.isInside = true)
    (hdone : new.isDone = r.answer.isOk) (houtside : new.isInside = false)
    (hanswer : r.answer = .ok () ∨ r.Rejected)
    (hfailing : s'.store.faults.failingCreates = s.store.faults.failingCreates)
    (hterminating : s'.store.faults.terminatingNamespaces = s.store.faults.terminatingNamespaces)
    (hused : s'.store.faults.conflictingCreates + (if r.collides then 1 else 0) =
      s.store.faults.conflictingCreates)
    (hspent : r.answer = .ok () → s'.store.faults.conflictingCreates = 0)
    (hcreates : s'.store.tally.creates = s.store.tally.creates) :
    Rationed base (told ++ [r]) (before ++ new :: after) s' := by
  have hpending : slot.isDone = false := by
    cases slot with
    | inside op n call => rfl
    | calling op n => rfl
    | finished outcome => contradiction
  have hcount := h.done
  have hentered := h.entered
  simp only [List.countP_append, List.countP_cons, hpending, hinside, Bool.false_eq_true, if_false,
    if_true] at hcount hentered
  refine ⟨hfailing.trans h.failing, hterminating.trans h.terminating, ?_, ?_, ?_, ?_, ?_⟩
  · intro t ht
    rcases List.mem_append.mp ht with ht | ht
    · exact h.answers t ht
    · exact List.mem_singleton.mp ht ▸ hanswer
  · have hconsumed := h.consumed
    rw [List.countP_append, List.countP_singleton]
    omega
  · intro t ht hok
    rcases List.mem_append.mp ht with ht | ht
    · have hnone := h.spent t ht hok
      omega
    · exact hspent (List.mem_singleton.mp ht ▸ hok)
  · simp only [List.countP_append, List.countP_cons, List.countP_nil, hdone]
    omega
  · simp only [List.countP_append, List.countP_cons, List.length_append, List.length_singleton,
      houtside, hcreates, Bool.false_eq_true, if_false]
    omega

theorem step {stamp : Stamp} (h : Rationed base told (before ++ slot :: after) s)
    (hopen : stamp.ns ∉ base.store.faults.terminatingNamespaces) (hstamps : slot.Stamps stamp)
    (hf : slot.isFinished = false) (place : Nat)
    (hfree : ∀ r ∈ (slot.reply? World.backend place s).toList, r.Free) :
    Rationed base (told ++ (slot.reply? World.backend place s).toList)
      (before ++ (slot.step World.backend s).1.1 :: after) (slot.step World.backend s).2 := by
  cases slot with
  | calling op n =>
    obtain rfl : op = .create stamp := hstamps
    have hnone : (Slot.calling (.create stamp) n).reply? World.backend place s = none := rfl
    obtain ⟨i, hstep⟩ : ∃ i, (Slot.calling (.create stamp) n).step World.backend s =
        ((.inside (.create stamp) n (.create i), []),
          { s with drawn := s.drawn + 1, store := s.store.enterCreate }) := ⟨_, rfl⟩
    obtain ⟨hfailing, hterminating, hanswers, hconsumed, hspent, hdone, hentered⟩ := h
    rw [hnone, hstep, Option.toList_none, List.append_nil]
    refine ⟨hfailing, hterminating, hanswers, hconsumed, hspent, ?_, ?_⟩
    · simpa [List.countP_append, List.countP_cons, Slot.isDone] using hdone
    · have hcreates : s.store.enterCreate.tally.creates = s.store.tally.creates + 1 := rfl
      simp only [List.countP_append, List.countP_cons, Slot.isInside, hcreates, if_true,
        Bool.false_eq_true, if_false] at hentered ⊢
      omega
  | inside op n call =>
    obtain ⟨rfl, d, rfl⟩ : op = .create stamp ∧ ∃ d, call = .create (stamp.build d) := hstamps
    let r : Reply World := ⟨place, .create stamp, n, .create (stamp.build d),
      (s.store.leaveCreate (stamp.build d)).1, s⟩
    have hreply : (Slot.inside (.create stamp) n (.create (stamp.build d))).reply? World.backend
        place s = some r := rfl
    have hleft := Store.leaveCreate_of_free (i := stamp.build d) h.failing
      (h.terminating ▸ hopen) (hfree r (by simp [hreply]))
    have hcreates : (s.store.leaveCreate (stamp.build d)).2.tally.creates = s.store.tally.creates :=
      (congrArg CallTally.creates (Store.tally_leaveCreate (stamp.build d) s.store)).trans rfl
    rw [hreply, Option.toList_some]
    rcases hleft with ⟨hpos, hanswer, hfaults⟩ | ⟨hzero, hanswer, hfaults⟩
    · have hrejected : r.Rejected := ⟨_, rfl, hanswer⟩
      have hfailing := (congrArg Faults.failingCreates hfaults).trans rfl
      have hterminating := (congrArg Faults.terminatingNamespaces hfaults).trans rfl
      refine h.answered rfl (Slot.isDone_answered r) (Slot.isInside_answered r) (.inr hrejected)
        hfailing hterminating ?_ (fun hok => ?_) hcreates
      · have hless := congrArg Faults.conflictingCreates hfaults
        rw [hrejected.collides, if_pos rfl]
        exact (congrArg (· + 1) hless).trans (Nat.sub_add_cancel hpos)
      · cases hok.symm.trans hanswer
    · have hsame := congrArg Faults.conflictingCreates hfaults
      refine h.answered rfl (Slot.isDone_answered r) (Slot.isInside_answered r) (.inl hanswer)
        (congrArg Faults.failingCreates hfaults) (congrArg Faults.terminatingNamespaces hfaults) ?_
        (fun _ => hsame.trans hzero) hcreates
      rw [Reply.collides_of_ok hanswer]
      exact hsame
  | finished outcome => contradiction

end Rationed

def creations (stamp : Stamp) (n : Nat) : Progress := .start (.replicate n (.create stamp))

/-- The calls of such a batch that makes all its steps. -/
def creationCalls (plan : Schedule) (stamp : Stamp) (n : Nat) (s : World) : List (Reply World) :=
  trace World.backend plan (creations stamp n).work (creations stamp n) s

theorem Rationed.rejected {base s : World} {told : List (Reply World)} {slots : List Slot}
    (h : Rationed base told slots s) {r : Reply World} (hr : r ∈ told) (hc : r.collides = true) :
    r.Rejected := by
  rcases h.answers r hr with hok | hrejected
  · rw [Reply.collides_of_ok hok] at hc
    contradiction
  · exact hrejected

theorem Rationed.length_eq {base s : World} {told : List (Reply World)} {slots : List Slot}
    (h : Rationed base told slots s) :
    told.length = told.countP (·.collides) + told.countP (·.answer.isOk) := by
  rw [List.length_eq_countP_add_countP (fun r : Reply World => r.collides)]
  congr 1
  refine List.countP_congr fun r hr => ?_
  rcases h.answers r hr with hok | hrejected
  · simp [Reply.collides_of_ok hok, hok, Except.isOk, Except.toBool]
  · have hcollides := hrejected.collides
    obtain ⟨i, -, hanswer⟩ := hrejected
    simp [hcollides, hanswer, Except.isOk, Except.toBool]

/-- The calls of a creation that has come to its end: the last one was done, or is the fifth one
that was rejected. -/
theorem Rationed.exists_calls {base s : World} {told : List (Reply World)} {p : Progress}
    {ops : List Operation} (h : Rationed base told p.slots s) (haccounted : Accounted ops told p)
    (hfin : p.isFinished = true) {k : Nat} (hk : k < ops.length) :
    ∃ earlier last, callsOf k told = earlier ++ [last] ∧ earlier.length < 5 ∧
      (∀ q ∈ earlier, q.Rejected) ∧ p.slots[k]? = some (.finished last.answer) ∧
      (last.answer = .ok () ∨ last.Rejected ∧ earlier.length = 4) := by
  obtain ⟨earlier, last, hcalls, going, -, -, hattempt, hlast, hslot⟩ :=
    haccounted.exists_last hfin (List.getElem?_eq_getElem hk)
  have hsub : ∀ q ∈ earlier ++ [last], q ∈ told := fun q hq =>
    (List.mem_filter.mp (hcalls ▸ hq : q ∈ callsOf k told)).1
  have hlt : earlier.length < 5 := going.length_lt
  refine ⟨earlier, last, hcalls, hlt, fun q hq => ?_, hslot, ?_⟩
  · exact h.rejected (hsub q (List.mem_append_left _ hq)) (going.collides q hq)
  · refine (h.answers last (hsub last (by simp))).imp_right fun hrejected => ⟨hrejected, ?_⟩
    rw [Reply.retried, hrejected.collides, Bool.true_and, decide_eq_false_iff_not,
      hattempt] at hlast
    have hge : ¬ earlier.length + 1 < 5 := hlast
    omega

theorem mul_countP_le_sum {m : Nat} {f : Nat → Nat} {p : Nat → Bool} {ks : List Nat}
    (h : ∀ k ∈ ks, p k = true → m ≤ f k) : m * ks.countP p ≤ (ks.map f).sum := by
  induction ks with
  | nil => exact Nat.le_refl 0
  | cons k ks ih =>
    have hks := ih fun l hl => h l (List.mem_cons_of_mem k hl)
    rw [List.map_cons, List.sum_cons]
    by_cases hp : p k = true
    · have hk := h k List.mem_cons_self hp
      rw [List.countP_cons_of_pos hp, Nat.mul_succ]
      omega
    · rw [List.countP_cons_of_neg hp]
      omega

theorem countP_places {α : Type} (p : α → Bool) (l : List α) :
    ((List.range l.length).countP fun k => (l[k]?).any p) = l.countP p := by
  conv_rhs => rw [← filterMap_places l, List.countP_filterMap]
  refine List.countP_congr fun k _ => ?_
  cases l[k]? <;> simp

theorem Rationed.failed_le {base s : World} {told : List (Reply World)} {p : Progress}
    {ops : List Operation} (h : Rationed base told p.slots s) (haccounted : Accounted ops told p)
    (hfin : p.isFinished = true) : 5 * p.slots.countP Slot.isFailed ≤ told.countP (·.collides) := by
  rw [haccounted.perm.countP_eq, List.countP_flatMap, ← countP_places, haccounted.length_eq]
  refine mul_countP_le_sum fun k hk hfailed => ?_
  obtain ⟨earlier, last, hcalls, -, hearlier, hslot, hlast⟩ :=
    h.exists_calls haccounted hfin (List.mem_range.mp hk)
  rw [hslot] at hfailed
  rcases hlast with hok | ⟨hrejected, hfour⟩
  · rw [hok] at hfailed
    contradiction
  · have hall : (earlier ++ [last]).countP (·.collides) = (earlier ++ [last]).length := by
      refine List.countP_eq_length.mpr fun q hq => ?_
      rcases List.mem_append.mp hq with hq | hq
      · exact (hearlier q hq).collides
      · exact List.mem_singleton.mp hq ▸ hrejected.collides
    simp only [Function.comp_apply, hcalls, hall]
    simp [hfour]

theorem Rationed.length_le {base s : World} {told : List (Reply World)} {p : Progress}
    {ops : List Operation} (h : Rationed base told p.slots s) (haccounted : Accounted ops told p)
    (hfin : p.isFinished = true) : told.length ≤ 5 * ops.length := by
  rw [haccounted.perm.length_eq, List.length_flatMap]
  have hle : ∀ m ∈ (List.range ops.length).map fun k => (callsOf k told).length, m ≤ 5 := by
    intro m hm
    obtain ⟨k, hk, rfl⟩ := List.mem_map.mp hm
    obtain ⟨earlier, last, hcalls, hlt, -⟩ := h.exists_calls haccounted hfin (List.mem_range.mp hk)
    rw [hcalls, List.length_append, List.length_singleton]
    exact hlt
  have hsum := List.sum_le_card_nsmul _ 5 hle
  simpa [Nat.mul_comm] using hsum

theorem done_add_failed {p : Progress} (hfin : p.isFinished = true) :
    p.slots.countP Slot.isDone + p.slots.countP Slot.isFailed = p.slots.length := by
  rw [List.length_eq_countP_add_countP Slot.isDone]
  congr 1
  refine List.countP_congr fun slot hslot => ?_
  have hend := List.all_eq_true.mp hfin slot hslot
  cases slot with
  | finished outcome => cases outcome <;> simp [Slot.isDone, Slot.isFailed]
  | calling | inside => contradiction

theorem creating_of_finish {s : World} (reachable : s.store.Reachable) {stamp : Stamp}
    (hfailing : s.store.faults.failingCreates = 0)
    (hopen : stamp.ns ∉ s.store.faults.terminatingNamespaces) (plan : Schedule) (n : Nat)
    (hfree : ∀ r ∈ creationCalls plan stamp n s, r.Free) :
    let r := finish World.backend plan (creations stamp n) s
    Rationed s (creationCalls plan stamp n s) r.1.slots r.2 ∧
      Creating stamp n s.cluster r.1 r.2.cluster := by
  revert hfree
  refine trace_induction (P := fun told p t => (∀ r ∈ told, r.Free) →
    Rationed s told p.slots t ∧ Creating stamp n s.cluster p t.cluster) ?_ plan _ ?_
  · intro told before slot after events t hf ih hfree
    obtain ⟨hrationed, hcreating⟩ := ih fun r hr => hfree r (List.mem_append_left _ hr)
    have hstamps := hcreating.stamps slot (by simp)
    exact ⟨hrationed.step hopen hstamps hf before.length
      fun r hr => hfree r (List.mem_append_right _ hr), hcreating.step World.backend_serves hf⟩
  · exact fun _ => ⟨.start hfailing _, .start reachable.sound stamp n⟩

/-- What a batch of `n` creations from `s` comes to, of which some calls were rejected: a creation
calls again only after a rejection, it fails exactly if its five calls were rejected, and the calls
are as many as the instances that were added and the rejections that were used up. -/
structure Apportioned (n : Nat) (s : World) (calls : List (Reply World)) (p : Progress)
    (s' : World) : Prop where
  finished : p.isFinished = true ∧ p.slots.length = n ∧ ∀ r ∈ calls, r.slot < n
  calls_le : ∀ k < n, callsOf k calls ≠ [] ∧ (callsOf k calls).length ≤ 5
  again : ∀ k < n, ∀ r ∈ (callsOf k calls).dropLast, r.Rejected
  fails_iff : ∀ k < n, (∃ e, p.slots[k]? = some (.finished (.error e))) ↔
    (callsOf k calls).length = 5 ∧ ∀ r ∈ callsOf k calls, r.Rejected
  failed_le : p.slots.countP Slot.isFailed ≤ s.store.faults.conflictingCreates / 5
  failed_all : 5 * n ≤ s.store.faults.conflictingCreates → p.slots.countP Slot.isFailed = n
  added : ∃ added, s'.cluster = s.cluster.grow added ∧
    added.length + p.slots.countP Slot.isFailed = n ∧ (added.map Instance.key).Nodup ∧
    calls.length = added.length +
      (s.store.faults.conflictingCreates - s'.store.faults.conflictingCreates)
  entered : s'.store.faults.conflictingCreates ≤ s.store.faults.conflictingCreates ∧
    s'.store.tally.creates = s.store.tally.creates + calls.length

theorem Rationed.apportioned {s s' : World} {calls : List (Reply World)} {p : Progress} {n : Nat}
    {ops : List Operation} {stamp : Stamp} (h : Rationed s calls p.slots s')
    (haccounted : Accounted ops calls p) (hfin : p.isFinished = true) (hops : ops.length = n)
    (hcreating : Creating stamp n s.cluster p s'.cluster) : Apportioned n s calls p s' := by
  subst hops
  obtain ⟨hlength, -, hsound, added, hcluster, hadded, -⟩ := hcreating
  have hfailed := h.failed_le haccounted hfin
  have hmost := h.length_le haccounted hfin
  have hends := done_add_failed hfin
  have hconsumed := h.consumed
  have hsplit := h.length_eq
  have hdone := h.done
  refine ⟨⟨hfin, hlength, haccounted.slot_lt⟩, ?_, ?_, ?_, ?_, fun hmany => ?_, ?_, ?_⟩
  · intro k hk
    obtain ⟨earlier, last, hcalls, hlt, -⟩ := h.exists_calls haccounted hfin hk
    rw [hcalls, List.length_append, List.length_singleton]
    exact ⟨by simp, hlt⟩
  · intro k hk q hq
    obtain ⟨earlier, last, hcalls, -, hearlier, -⟩ := h.exists_calls haccounted hfin hk
    rw [hcalls, List.dropLast_concat] at hq
    exact hearlier q hq
  · intro k hk
    obtain ⟨earlier, last, hcalls, -, hearlier, hslot, hlast⟩ := h.exists_calls haccounted hfin hk
    rw [hslot, hcalls, List.length_append, List.length_singleton]
    rcases hlast with hok | ⟨hrejected, hfour⟩
    · rw [hok]
      constructor
      · rintro ⟨e, he⟩
        cases he
      · rintro ⟨-, hall⟩
        obtain ⟨i, -, hanswer⟩ := hall last (by simp)
        rw [hok] at hanswer
        cases hanswer
    · constructor
      · refine fun _ => ⟨by rw [hfour], fun q hq => ?_⟩
        rcases List.mem_append.mp hq with hq | hq
        · exact hearlier q hq
        · exact List.mem_singleton.mp hq ▸ hrejected
      · obtain ⟨i, -, hanswer⟩ := hrejected
        exact fun _ => ⟨_, by rw [hanswer]⟩
  · rw [Nat.le_div_iff_mul_le (by decide)]
    omega
  · -- A creation that is done found no rejection left, so all of them went to the other calls.
    by_contra hsome
    have hpos : 0 < calls.countP (·.answer.isOk) := by omega
    obtain ⟨q, hq, hok⟩ := List.countP_pos_iff.mp hpos
    have hspent : s'.store.faults.conflictingCreates = 0 := by
      apply h.spent q hq
      cases hanswer : q.answer with
      | ok => rfl
      | error e =>
        rw [hanswer] at hok
        contradiction
    omega
  · refine ⟨added, hcluster, by omega, ?_, by omega⟩
    have hnodup := hsound.nodup
    rw [hcluster, Cluster.grow, List.map_append] at hnodup
    exact (List.nodup_append.mp hnodup).2.1
  · have hinside : p.slots.countP Slot.isInside = 0 := by
      refine List.countP_eq_zero.mpr fun slot hslot => ?_
      have hend := List.all_eq_true.mp hfin slot hslot
      cases slot with
      | finished outcome => exact Bool.false_ne_true
      | calling | inside => contradiction
    have hentered := h.entered
    omega

/-- However the calls of a batch of creations interleave, nothing but planned rejections decides
which of them fail, and none is lost count of. -/
theorem apportioned_of_finish {s : World} (reachable : s.store.Reachable) {stamp : Stamp}
    (hfailing : s.store.faults.failingCreates = 0)
    (hopen : stamp.ns ∉ s.store.faults.terminatingNamespaces) (plan : Schedule) (n : Nat)
    (hfree : ∀ r ∈ creationCalls plan stamp n s, r.Free) :
    let r := finish World.backend plan (creations stamp n) s
    Apportioned n s (creationCalls plan stamp n s) r.1 r.2 := by
  obtain ⟨hrationed, hcreating⟩ := creating_of_finish reachable hfailing hopen plan n hfree
  exact hrationed.apportioned (.of_trace World.backend plan _ _ s)
    (finish_isFinished World.backend plan _ s) List.length_replicate hcreating

/-- Seven rejections for two creations one after the other: the first one fails, and the second one
gets its third name. -/
theorem apportioned_of_finish_seven :
    let w := Specimen.plain "web" 0 2
    let stamp : Stamp := ⟨"shop", "web-", Specimen.labels, .null, w.controllerRef⟩
    let s := Specimen.world
      ((Specimen.crowd w []).after (.setFaults { Faults.none with conflictingCreates := 7 }))
    let r := finish World.backend .inOrder (creations stamp 2) s
    let calls := creationCalls .inOrder stamp 2 s
    s.store.Reachable ∧ (∀ q ∈ calls, q.Free) ∧
      calls.map (·.slot) = [0, 0, 0, 0, 0, 1, 1, 1] ∧ r.1.slots.countP Slot.isFailed = 1 ∧
      Apportioned 2 s calls r.1 r.2 := by
  intro w stamp s r calls
  have reachable : s.store.Reachable := Store.Reachable.after
    (.setFaults { Faults.none with conflictingCreates := 7 }) (Specimen.reachable_crowd w [])
  have hopen : stamp.ns ∉ s.store.faults.terminatingNamespaces := List.not_mem_nil
  have hfree : ∀ q ∈ calls, q.Free := by
    unfold Reply.Free
    decide +kernel
  exact ⟨reachable, hfree, by decide +kernel, by decide +kernel,
    apportioned_of_finish reachable rfl hopen .inOrder 2 hfree⟩

end Batch

end ReplicaController

import Mathlib.Data.List.FinRange
import Mathlib.Data.List.Perm.Subperm
import ReplicaController.Proofs.Scaling.DrainOrder

/-!
# The ranked choice of victims

The ranked policy takes positions of the list from the front of one order of all of them: by rank,
then the newest first, then as the list has them. So no instance that is spared goes before one that
is taken, and as few ready instances are taken as there can be.
-/

namespace ReplicaController

theorem DrainRank.rank_inj {a b : DrainRank} : a.rank = b.rank ↔ a = b := by
  cases a <;> cases b <;> decide

namespace Instance

/-- It has the lower rank, or it is the newer of two of one rank. -/
def GoesBefore (i j : Instance) : Prop :=
  (DrainRank.ofInstance i).rank < (DrainRank.ofInstance j).rank ∨
    DrainRank.ofInstance i = DrainRank.ofInstance j ∧ j.created.before i.created = true

def GoesWith (i j : Instance) : Prop :=
  DrainRank.ofInstance i = DrainRank.ofInstance j ∧ i.created = j.created

theorem GoesWith.symm {i j : Instance} (h : i.GoesWith j) : j.GoesWith i :=
  ⟨h.1.symm, h.2.symm⟩

theorem GoesBefore.not_goesWith {i j : Instance} (h : i.GoesBefore j) : ¬ j.GoesWith i := by
  rintro ⟨hrank, hcreated⟩
  rcases h with hlt | ⟨-, hnewer⟩
  · rw [hrank] at hlt
    exact Nat.lt_irrefl _ hlt
  · rw [hcreated, Instant.before, beq_iff_eq] at hnewer
    have hself : compare i.created i.created = .eq := Std.ReflCmp.compare_self
    rw [hself] at hnewer
    contradiction

theorem GoesBefore.asymm {i j : Instance} (hij : i.GoesBefore j) : ¬ j.GoesBefore i := by
  intro hji
  rcases hij with hij | ⟨hrank, hij⟩
  · rcases hji with hji | ⟨hrank, -⟩
    · exact Nat.lt_asymm hij hji
    · rw [hrank] at hij
      exact Nat.lt_irrefl _ hij
  · rcases hji with hji | ⟨-, hji⟩
    · rw [hrank] at hji
      exact Nat.lt_irrefl _ hji
    · rw [Instant.before, beq_iff_eq] at hij hji
      have hswap : compare j.created i.created = (compare i.created j.created).swap :=
        Std.OrientedCmp.eq_swap
      rw [hij, hji] at hswap
      contradiction

theorem drainsBefore_iff_goes {i j : Instance} :
    drainsBefore i j = true ↔ i.GoesBefore j ∨ i.GoesWith j := by
  rw [drainsBefore_iff, GoesBefore, GoesWith, or_assoc, ← and_or_left, DrainRank.rank_inj]
  refine or_congr_right (and_congr_right fun _ => ?_)
  rw [Instant.notAfter_eq_isLE, Instant.before, beq_iff_eq, Ordering.isLE_iff_eq_lt_or_eq_eq,
    Std.LawfulEqCmp.compare_eq_iff_eq, eq_comm (a := i.created)]

end Instance

section Turn

variable {α : Type} {p : α → Bool} {l : List α}

/-- Where those with `p` stand in front, a beginning has as many of them as it can. -/
theorem countP_take_of_turn (h : l.Pairwise fun a b => p b = true → p a = true) (count : Nat) :
    (l.take count).countP p = min count (l.countP p) := by
  induction l generalizing count with
  | nil => simp
  | cons a l ih =>
    obtain ⟨hhead, htail⟩ := List.pairwise_cons.mp h
    cases count with
    | zero => simp
    | succ count =>
      rw [List.take_succ_cons, List.countP_cons, List.countP_cons, ih htail]
      by_cases ha : p a = true
      · rw [if_pos ha]
        omega
      · have hnone : l.countP p = 0 :=
          List.countP_eq_zero.mpr fun b hb hp => ha (hhead b hb hp)
        rw [if_neg ha, hnone]
        omega

end Turn

namespace VictimPolicy

variable {active : List Instance}

/-- The order of the positions of a list: that of its instances, and of the list for equals. -/
def Ahead (active : List Instance) (p q : Fin active.length) : Prop :=
  active[p].GoesBefore active[q] ∨ active[p].GoesWith active[q] ∧ p < q

/-- All positions of a list in the order in which the ranked policy takes them. -/
def turns (active : List Instance) : List (Fin active.length) :=
  (List.finRange active.length).mergeSort fun p q =>
    List.zipIdxLE drainsBefore (active[p], p.val) (active[q], q.val)

theorem turns_perm (active : List Instance) : (turns active).Perm (List.finRange active.length) :=
  List.mergeSort_perm ..

theorem nodup_turns (active : List Instance) : (turns active).Nodup :=
  (turns_perm active).nodup_iff.mpr (List.nodup_finRange _)

theorem map_turns (active : List Instance) :
    (turns active).map active.get = ranked.order active := by
  have hzip : (List.finRange active.length).map (fun p => (active[p], p.val)) = active.zipIdx := by
    apply List.ext_getElem
    · simp
    · simp
  have hsorted : (turns active).map (fun p => (active[p], p.val)) =
      active.zipIdx.mergeSort (List.zipIdxLE drainsBefore) := by
    rw [turns, ← hzip]
    exact List.map_mergeSort fun _ _ _ _ => rfl
  calc (turns active).map active.get
      = ((turns active).map fun p => (active[p], p.val)).map (·.1) := by simp
    _ = active.mergeSort drainsBefore := by rw [hsorted, List.mergeSort_zipIdx]

theorem pairwise_turns (active : List Instance) : (turns active).Pairwise (Ahead active) := by
  have hsorted := List.pairwise_mergeSort
    (fun p q r => List.zipIdxLE_trans drainsBefore_trans (active[p], p.val) (active[q], q.val)
      (active[r], r.val))
    (fun p q => List.zipIdxLE_total drainsBefore_total (active[p], p.val) (active[q], q.val))
    (List.finRange active.length)
  refine (hsorted.and (nodup_turns active)).imp fun {p q} ⟨hle, hne⟩ => ?_
  rw [List.zipIdxLE] at hle
  split at hle
  · rename_i hpq
    rcases Instance.drainsBefore_iff_goes.mp hpq with hbefore | hwith
    · exact .inl hbefore
    · have hqp : drainsBefore active[q] active[p] = true :=
        Instance.drainsBefore_iff_goes.mpr (.inr hwith.symm)
      rw [if_pos hqp, decide_eq_true_eq] at hle
      exact .inr ⟨hwith, lt_of_le_of_ne hle hne⟩
  · contradiction

/-- The instance at the position is of lower rank than the ready ones. -/
def isLow (active : List Instance) (p : Fin active.length) : Bool :=
  (DrainRank.ofInstance active[p]).rank < DrainRank.ready.rank

def isServing (active : List Instance) (p : Fin active.length) : Bool :=
  DrainRank.ofInstance active[p] = .ready

theorem isServing_eq (p : Fin active.length) : isServing active p = !isLow active p := by
  unfold isServing isLow
  cases DrainRank.ofInstance active[p] <;> rfl

theorem isLow_of_ahead {p q : Fin active.length} (h : Ahead active p q)
    (hq : isLow active q = true) : isLow active p = true := by
  unfold isLow at hq ⊢
  rw [decide_eq_true_eq] at hq ⊢
  rcases h with (hlt | ⟨heq, -⟩) | ⟨⟨heq, -⟩, -⟩
  · exact hlt.trans hq
  · rw [heq]
    exact hq
  · rw [heq]
    exact hq

theorem length_eq_add (ps : List (Fin active.length)) :
    ps.length = ps.countP (isServing active) + ps.countP (isLow active) := by
  rw [List.length_eq_countP_add_countP (isLow active), Nat.add_comm]
  congr 1
  exact List.countP_congr fun p _ => by simp [isServing_eq]

theorem countP_isLow_turns (active : List Instance) :
    (turns active).countP (isLow active) =
      active.countP fun i => (DrainRank.ofInstance i).rank < DrainRank.ready.rank := by
  rw [← ((ranked.order_perm active).countP_eq _), ← map_turns, List.countP_map]
  rfl

/-- What one choice of the ranked policy is: positions in their order, none of them behind one that
is spared, and as few ready instances among them as there are in any choice of that many. -/
structure Ranked (active : List Instance) (count : Nat) (victims : List (Fin active.length)) :
    Prop where
  nodup : victims.Nodup
  length_eq : victims.length = min count active.length
  ordered : victims.Pairwise (Ahead active)
  spared : ∀ p ∈ victims, ∀ q ∉ victims, ¬ active[q].GoesBefore active[p]
  ties : ∀ p ∈ victims, ∀ q ∉ victims, active[q].GoesWith active[p] → p < q
  serving : victims.countP (isServing active) = min count active.length -
    active.countP fun i => (DrainRank.ofInstance i).rank < DrainRank.ready.rank
  least : ∀ choice : List (Fin active.length), choice.Nodup →
    choice.length = min count active.length →
    victims.countP (isServing active) ≤ choice.countP (isServing active)

theorem ahead_of_take {count : Nat} {p q : Fin active.length} (hp : p ∈ (turns active).take count)
    (hq : q ∉ (turns active).take count) : Ahead active p q := by
  have hall : q ∈ turns active := (turns_perm active).mem_iff.mpr (List.mem_finRange q)
  have hordered := pairwise_turns active
  rw [← List.take_append_drop count (turns active)] at hall hordered
  exact (List.pairwise_append.mp hordered).2.2 p hp q ((List.mem_append.mp hall).resolve_left hq)

theorem countP_serving_take (active : List Instance) (count : Nat) :
    ((turns active).take count).countP (isServing active) = min count active.length -
      active.countP fun i => (DrainRank.ofInstance i).rank < DrainRank.ready.rank := by
  have hlow := countP_take_of_turn ((pairwise_turns active).imp isLow_of_ahead) count
  have hlength := length_eq_add ((turns active).take count)
  have hle : (turns active).countP (isLow active) ≤ (turns active).length := List.countP_le_length
  rw [List.length_take, (turns_perm active).length_eq, List.length_finRange] at hlength
  rw [(turns_perm active).length_eq, List.length_finRange] at hle
  rw [← countP_isLow_turns]
  omega

theorem ranked_turns (active : List Instance) (count : Nat) :
    Ranked active count ((turns active).take count) where
  nodup := (nodup_turns active).sublist (List.take_sublist ..)
  length_eq := by rw [List.length_take, (turns_perm active).length_eq, List.length_finRange]
  ordered := (pairwise_turns active).sublist (List.take_sublist ..)
  spared p hp q hq hqp := by
    rcases ahead_of_take hp hq with hpq | ⟨hpq, -⟩
    · exact hpq.asymm hqp
    · exact hqp.not_goesWith hpq
  ties p hp q hq hqp := by
    rcases ahead_of_take hp hq with hpq | ⟨-, hlt⟩
    · exact absurd hqp hpq.not_goesWith
    · exact hlt
  serving := countP_serving_take active count
  least choice hnodup hlength := by
    have hsub : choice.Subperm (turns active) :=
      hnodup.subperm fun p _ => (turns_perm active).mem_iff.mpr (List.mem_finRange p)
    have hlow := hsub.countP_le (isLow active)
    have hsum := length_eq_add choice
    rw [countP_isLow_turns] at hlow
    rw [countP_serving_take]
    omega

/-- The ranked policy takes its victims from the front of one order of the positions. -/
theorem select_ranked_least (active : List Instance) :
    ∃ turn : List (Fin active.length), ∀ count,
      Ranked active count (turn.take count) ∧
      ranked.select active count = (turn.take count).map active.get ∧
      ranked.select active count <+: ranked.select active (count + 1) := by
  refine ⟨turns active, fun count => ⟨ranked_turns active count, ?_, ?_⟩⟩
  · rw [List.map_take, map_turns]
    rfl
  · exact List.take_prefix_take_left (Nat.le_succ count)

end VictimPolicy

end ReplicaController

import Mathlib.Algebra.Ring.Nat
import Mathlib.Data.List.Induction
import ReplicaController.Proofs.SortedMap
import ReplicaController.Proofs.Text.Bytes
import ReplicaController.Worker.Backoff

/-!
# The law of the delays

What is recorded of a key tells how often it failed since it was last cleared or dropped, and when
it failed last. The delay of the failure that makes `n` of them is the base doubled `n - 1` times,
or the ceiling: that the doublings are limited and the count is saturated never shows, as long as
the base is not below a millisecond.
-/

namespace ReplicaController

namespace Span

theorem ext {a b : Span} (h : a.nanos = b.nanos) : a = b := by
  cases a
  cases b
  simp_all

@[simp]
theorem nanos_min (a b : Span) : (min a b).nanos = min a.nanos b.nanos := rfl

@[simp]
theorem nanos_max (a b : Span) : (max a b).nanos = max a.nanos b.nanos := rfl

@[simp]
theorem nanos_scale (a : Span) (n : Nat) : (a.scale n).nanos = a.nanos * n := rfl

theorem le_iff {a b : Span} : a ≤ b ↔ a.nanos ≤ b.nanos := Iff.rfl

end Span

namespace Backoff

/-- The count of a record; no record counts nothing. -/
def countOf (f : Option Failure) : UInt32 := (f.map Failure.count).getD 0

theorem failureCount_eq (b : Backoff) (key : String) :
    b.failureCount key = countOf (b.failures.find? key) := by
  unfold failureCount countOf
  cases b.failures.find? key <;> rfl

theorem toNat_nextCount (n : UInt32) :
    (nextCount n).toNat = min (n.toNat + 1) (2 ^ 32 - 1) := by
  unfold nextCount
  split
  · rename_i h
    rw [h]
    rfl
  · rename_i h
    have hlt := n.toNat_lt
    have hne : n.toNat ≠ 2 ^ 32 - 1 := fun heq => h (UInt32.toNat_inj.mp heq)
    rw [UInt32.toNat_add, UInt32.toNat_one]
    omega

/-- The count of `n` failures, or the largest count there is. -/
def countAt (n : Nat) : UInt32 := .ofNat (min n (2 ^ 32 - 1))

@[simp]
theorem toNat_countAt (n : Nat) : (countAt n).toNat = min n (2 ^ 32 - 1) := by
  have hsize : UInt32.size = 2 ^ 32 := rfl
  exact UInt32.toNat_ofNat_of_lt' (by omega)

theorem nextCount_countAt (n : Nat) : nextCount (countAt n) = countAt (n + 1) := by
  rw [← UInt32.toNat_inj, toNat_nextCount, toNat_countAt, toNat_countAt]
  omega

theorem mem_due_iff {b : Backoff} {now : Span} {text : String} :
    text ∈ b.due now ↔ ∃ f, b.failures.find? text = some f ∧ f.due ≤ now := by
  unfold due
  rw [SortedMap.mem_keys_iff]
  simp only [SortedMap.find?_filter_eq_some_iff, decide_eq_true_eq]

theorem pairwise_due (b : Backoff) (now : Span) : (b.due now).Pairwise (· < ·) := by
  unfold due SortedMap.keys
  rw [List.pairwise_map]
  exact (SortedMap.rising _).imp Text.compare_eq_lt_iff.mp

/-- A use that is made of the records. -/
inductive Use
  | recordFailure (key : String) (now : Span)
  | clear (key : String)
  | retain (keep : String → Bool)
  | due (now : Span)

namespace Use

def after (b : Backoff) : Use → Backoff
  | .recordFailure key now => (b.recordFailure key now).2
  | .clear key => b.clear key
  | .retain keep => b.retain keep
  | .due _ => b

/-- The moment at which the use records a failure of the key. -/
def failedAt? (key : String) : Use → Option Span
  | .recordFailure k now => if k = key then some now else none
  | _ => none

def drops (key : String) : Use → Bool
  | .clear k => k == key
  | .retain keep => !keep key
  | _ => false

theorem base_after (b : Backoff) (u : Use) : (u.after b).base = b.base := by cases u <;> rfl

theorem ceiling_after (b : Backoff) (u : Use) : (u.after b).ceiling = b.ceiling := by
  cases u <;> rfl

theorem find?_after (b : Backoff) (u : Use) (key : String) :
    (u.after b).failures.find? key =
      if u.drops key then none
      else match u.failedAt? key with
        | none => b.failures.find? key
        | some now =>
          let count := nextCount (countOf (b.failures.find? key))
          some ⟨count, now + b.delay count⟩ := by
  cases u with
  | recordFailure k now =>
    by_cases h : k = key
    · subst h
      simp [after, drops, failedAt?, Backoff.recordFailure, failureCount_eq,
        SortedMap.find?_insert_self]
    · simp [after, drops, failedAt?, Backoff.recordFailure, h,
        SortedMap.find?_insert_of_ne _ _ (Ne.symm h)]
  | clear k =>
    by_cases h : k = key
    · subst h
      simp [after, drops, Backoff.clear, SortedMap.find?_erase_self]
    · simp [after, drops, failedAt?, Backoff.clear, h, SortedMap.find?_erase_of_ne _ (Ne.symm h)]
  | retain keep =>
    cases h : keep key <;> simp [after, drops, failedAt?, Backoff.retain, SortedMap.find?_filter, h]
  | due now => rfl

end Use

def afterUses (b : Backoff) (uses : List Use) : Backoff := uses.foldl Use.after b

/-- The moments at which the key failed since it was last cleared or dropped, the last one first. -/
def moments (key : String) (uses : List Use) : List Span :=
  (uses.reverse.takeWhile fun u => !u.drops key).filterMap (Use.failedAt? key)

/-- How often the key failed since it was last cleared or dropped. -/
def streak (key : String) (uses : List Use) : Nat := (moments key uses).length

/-- The delay of the `n`th failure in a row: the base doubled `n - 1` times, up to the ceiling. -/
def nthDelay (base ceiling : Span) (n : Nat) : Span :=
  let b := min base longest
  let m := max b (min ceiling longest)
  min (b.scale (2 ^ (n - 1))) m

section Delays

variable {base ceiling : Span}

theorem nthDelay_mono {n n' : Nat} (h : n ≤ n') :
    nthDelay base ceiling n ≤ nthDelay base ceiling n' := by
  have hpow : 2 ^ (n - 1) ≤ 2 ^ (n' - 1) := Nat.pow_le_pow_right Nat.two_pos (by omega)
  have hscale := Nat.mul_le_mul_left (min base.nanos longest.nanos) hpow
  simp only [nthDelay, Span.le_iff, Span.nanos_min, Span.nanos_scale]
  omega

theorem nthDelay_le_longest (n : Nat) : nthDelay base ceiling n ≤ longest := by
  simp only [nthDelay, Span.le_iff, Span.nanos_min, Span.nanos_max]
  omega

theorem new_base_le : (new base ceiling).base ≤ longest := Nat.min_le_right _ _

theorem factor_lt (count : UInt32) :
    Nat.pow 2 (min (count.toNat - 1) maxDoublings) < 2 ^ 32 := by
  have hle : min (count.toNat - 1) maxDoublings ≤ 31 := Nat.min_le_right _ _
  exact Nat.pow_lt_pow_right (by decide) (by omega)

theorem wholeSecs_scale_lt {b : Span} (h : b ≤ longest) {factor : Nat} (hfactor : factor < 2 ^ 32) :
    (b.scale factor).wholeSecs < 2 ^ 64 := by
  have hle : b.nanos * factor ≤ longest.nanos * 2 ^ 32 :=
    Nat.mul_le_mul h (Nat.le_of_lt hfactor)
  have hlongest : longest.nanos * 2 ^ 32 < 2 ^ 64 * 1000000000 := by decide
  exact (Nat.div_lt_iff_lt_mul (by decide)).mpr (Nat.lt_of_le_of_lt hle hlongest)

/-- The limit on the doublings and the largest count are both out of sight: 31 doublings of a
millisecond are more than a day. -/
theorem delay_eq_nthDelay {b : Backoff} (hb : b.base = (new base ceiling).base)
    (hceiling : b.ceiling = (new base ceiling).ceiling)
    (hbase : base = .zero ∨ .ofMillis 1 ≤ base) (n : Nat) :
    b.delay (countAt n) = nthDelay base ceiling n := by
  have hm : min (max ceiling.nanos (min base.nanos longest.nanos)) longest.nanos =
      max (min base.nanos longest.nanos) (min ceiling.nanos longest.nanos) := by omega
  apply Span.ext
  simp only [delay, nthDelay, hb, hceiling, new, Span.nanos_min, Span.nanos_max, Span.nanos_scale,
    toNat_countAt, hm, maxDoublings, Nat.pow_eq]
  by_cases hn : n - 1 ≤ 31
  · have hsame : min (min n (2 ^ 32 - 1) - 1) 31 = n - 1 := by omega
    rw [hsame]
  · have hfull : min (min n (2 ^ 32 - 1) - 1) 31 = 31 := by omega
    rw [hfull]
    obtain rfl | hbase := hbase
    · have hzero : min Span.zero.nanos longest.nanos = 0 := rfl
      rw [hzero, Nat.zero_mul, Nat.zero_mul]
    · have hpow : 2 ^ 31 ≤ 2 ^ (n - 1) := Nat.pow_le_pow_right Nat.two_pos (by omega)
      have hscale := Nat.mul_le_mul_left (min base.nanos longest.nanos) hpow
      have hday : longest.nanos ≤ min base.nanos longest.nanos * 2 ^ 31 := by
        have hmilli : 1000000 ≤ base.nanos := hbase
        have hlongest : longest.nanos = 86400000000000 := rfl
        omega
      have htop : max (min base.nanos longest.nanos) (min ceiling.nanos longest.nanos) ≤
          longest.nanos := by omega
      have hlow := Nat.le_trans htop hday
      rw [Nat.min_eq_right hlow, Nat.min_eq_right (Nat.le_trans hlow hscale)]

end Delays

theorem afterUses_append (b : Backoff) (uses uses' : List Use) :
    b.afterUses (uses ++ uses') = (b.afterUses uses).afterUses uses' := List.foldl_append

theorem base_afterUses (b : Backoff) (uses : List Use) : (b.afterUses uses).base = b.base := by
  induction uses generalizing b with
  | nil => rfl
  | cons u uses ih => exact (ih (u.after b)).trans (u.base_after b)

theorem ceiling_afterUses (b : Backoff) (uses : List Use) :
    (b.afterUses uses).ceiling = b.ceiling := by
  induction uses generalizing b with
  | nil => rfl
  | cons u uses ih => exact (ih (u.after b)).trans (u.ceiling_after b)

section Moments

variable {key : String}

theorem moments_append_singleton (uses : List Use) (u : Use) :
    moments key (uses ++ [u]) =
      if u.drops key then [] else (u.failedAt? key).toList ++ moments key uses := by
  unfold moments
  rw [List.reverse_append, List.reverse_singleton, List.singleton_append, List.takeWhile_cons]
  by_cases h : u.drops key = true
  · simp [h]
  · cases hfailed : u.failedAt? key <;> simp [h, hfailed]

theorem streak_append_recordFailure (uses : List Use) (now : Span) :
    streak key (uses ++ [.recordFailure key now]) = streak key uses + 1 := by
  rw [streak, moments_append_singleton]
  simp [Use.drops, Use.failedAt?, streak, Nat.add_comm]

theorem streak_le_append (uses : List Use) {later : List Use}
    (h : ∀ u ∈ later, u.drops key = false) : streak key uses ≤ streak key (uses ++ later) := by
  induction later using List.reverseRecOn with
  | nil => simp
  | append_singleton later u ih =>
    have hu := h u (by simp)
    refine Nat.le_trans (ih fun v hv => h v (List.mem_append_left _ hv)) ?_
    rw [← List.append_assoc, streak, streak, moments_append_singleton, hu]
    simp

end Moments

/-- The record of the `n`th failure in a row, at `t`. -/
def nthFailure (base ceiling : Span) (n : Nat) (t : Span) : Failure :=
  ⟨countAt n, t + nthDelay base ceiling n⟩

/-- What ought to be recorded of the key. -/
def recordOf (base ceiling : Span) (key : String) (uses : List Use) : Option Failure :=
  (moments key uses).head?.map (nthFailure base ceiling (streak key uses))

theorem recordOf_append_singleton (base ceiling : Span) (key : String) (uses : List Use) (u : Use) :
    recordOf base ceiling key (uses ++ [u]) =
      if u.drops key then none
      else match u.failedAt? key with
        | none => recordOf base ceiling key uses
        | some now => some (nthFailure base ceiling (streak key uses + 1) now) := by
  rw [recordOf, streak, moments_append_singleton]
  split
  · rfl
  · cases u.failedAt? key <;> rfl

theorem countOf_recordOf (base ceiling : Span) (key : String) (uses : List Use) :
    countOf (recordOf base ceiling key uses) = countAt (streak key uses) := by
  unfold recordOf streak
  cases moments key uses <;> rfl

section Runs

variable {base ceiling : Span} (hbase : base = .zero ∨ .ofMillis 1 ≤ base)

include hbase

theorem delay_afterUses (uses : List Use) (n : Nat) :
    ((new base ceiling).afterUses uses).delay (countAt n) = nthDelay base ceiling n :=
  delay_eq_nthDelay (base_afterUses _ uses) (ceiling_afterUses _ uses) hbase n

theorem find?_afterUses (key : String) (uses : List Use) :
    ((new base ceiling).afterUses uses).failures.find? key = recordOf base ceiling key uses := by
  -- From the end: the newest use decides alone, or makes one more of what the older ones come to.
  induction uses using List.reverseRecOn with
  | nil => rfl
  | append_singleton uses u ih =>
    rw [afterUses_append, recordOf_append_singleton]
    change (u.after _).failures.find? key = _
    rw [Use.find?_after, ih, countOf_recordOf, nextCount_countAt]
    split
    · rfl
    · cases u.failedAt? key with
      | none => rfl
      | some now => simp only [delay_afterUses hbase, nthFailure]

theorem delay_recordFailure (key : String) (now : Span) (uses : List Use) :
    (((new base ceiling).afterUses uses).recordFailure key now).1 =
      nthDelay base ceiling (streak key uses + 1) := by
  unfold recordFailure
  rw [failureCount_eq, find?_afterUses hbase, countOf_recordOf, nextCount_countAt]
  exact delay_afterUses hbase uses _

/-- What the uses of the records, from new ones on, ought to have made of them. -/
structure Lawful (base ceiling : Span) (uses : List Use) (b : Backoff) : Prop where
  /-- The delay of a failure depends on the failures in a row alone. -/
  delay : ∀ key now, (b.recordFailure key now).1 = nthDelay base ceiling (streak key uses + 1)
  /-- No delay is shorter than an earlier one of the same streak. -/
  grows : ∀ key now now' later, (∀ u ∈ later, Use.drops key u = false) →
    (b.recordFailure key now).1 ≤
      (((b.recordFailure key now).2.afterUses later).recordFailure key now').1
  bounded : ∀ key now, (b.recordFailure key now).1 ≤ longest
  /-- Nothing overflows: the factor fits 32 bits, and the whole seconds of the product fit 64. -/
  fits : b.base ≤ longest ∧ ∀ count : UInt32,
    let factor := Nat.pow 2 (min (count.toNat - 1) maxDoublings)
    factor < 2 ^ 32 ∧ (b.base.scale factor).wholeSecs < 2 ^ 64
  count : ∀ key, (b.failureCount key).toNat = min (streak key uses) (2 ^ 32 - 1)
  rising : ∀ now, (b.due now).Pairwise (· < ·)
  /-- A key is due once its last failure lies the delay of that failure back. -/
  due : ∀ key now, key ∈ b.due now ↔ ∃ t, (moments key uses).head? = some t ∧
    t + nthDelay base ceiling (streak key uses) ≤ now
  /-- A use that neither records a failure of the key nor drops it leaves its record alone. -/
  apart : ∀ key u, Use.failedAt? key u = none → u.drops key = false →
    (u.after b).failures.find? key = b.failures.find? key

theorem mem_due_afterUses_iff {key : String} {now : Span} {uses : List Use} :
    key ∈ ((new base ceiling).afterUses uses).due now ↔ ∃ t, (moments key uses).head? = some t ∧
      t + nthDelay base ceiling (streak key uses) ≤ now := by
  rw [mem_due_iff, find?_afterUses hbase, recordOf]
  simp only [Option.map_eq_some_iff]
  constructor
  · rintro ⟨_, ⟨t, ht, rfl⟩, hdue⟩
    exact ⟨t, ht, hdue⟩
  · rintro ⟨t, ht, hdue⟩
    exact ⟨_, ⟨t, ht, rfl⟩, hdue⟩

/-- From new records on, every use keeps the law. -/
theorem lawful_afterUses (uses : List Use) :
    Lawful base ceiling uses ((new base ceiling).afterUses uses) where
  delay key now := delay_recordFailure hbase key now uses
  grows key now now' later hkept := by
    have happend : (((new base ceiling).afterUses uses).recordFailure key now).2.afterUses later =
        (new base ceiling).afterUses (uses ++ .recordFailure key now :: later) :=
      (afterUses_append (new base ceiling) uses (.recordFailure key now :: later)).symm
    have hstreak : streak key uses + 1 ≤
        streak key (uses ++ .recordFailure key now :: later) := by
      rw [List.append_cons, ← streak_append_recordFailure]
      exact streak_le_append _ hkept
    rw [happend, delay_recordFailure hbase, delay_recordFailure hbase]
    exact nthDelay_mono (by omega)
  bounded key now := by
    rw [delay_recordFailure hbase]
    exact nthDelay_le_longest _
  fits := by
    rw [base_afterUses]
    exact ⟨new_base_le, fun count =>
      ⟨factor_lt count, wholeSecs_scale_lt new_base_le (factor_lt count)⟩⟩
  count key := by rw [failureCount_eq, find?_afterUses hbase, countOf_recordOf, toNat_countAt]
  rising now := pairwise_due _ now
  due key now := mem_due_afterUses_iff hbase
  apart key u hfailed hdrops := by
    rw [u.find?_after, hfailed, hdrops]
    rfl

end Runs

/-- The third failure of one key, with a failure of another and a sweep in between, meets a ceiling
of 350 milliseconds. -/
theorem lawful_afterUses_third_failure :
    Span.ofMillis 1 ≤ .ofMillis 100 ∧
    (((new (.ofMillis 100) (.ofMillis 350)).afterUses
      [.recordFailure "default/a" .zero, .recordFailure "default/b" .zero,
        .recordFailure "default/a" (.ofMillis 100), .retain (· == "default/a")]).recordFailure
        "default/a" (.ofMillis 300)).1 = .ofMillis 350 :=
  have hbase : Span.ofMillis 1 ≤ .ofMillis 100 := by decide
  ⟨hbase, ((lawful_afterUses (.inr hbase) _).delay "default/a" _).trans (by decide)⟩

end Backoff

end ReplicaController

import ReplicaController.Proofs.Text.Numeral
import ReplicaController.Proofs.Worker.Backoff
import ReplicaController.Settings

/-!
# When the settings are accepted

The variables are checked in a fixed order, and what the first check that fails finds is reported.
If none fails, every setting is what its variable says or the default, and the worker takes the
delays as they were accepted: the ceiling that it works with is cut to a day, and never raised.
-/

namespace ReplicaController

namespace VictimPolicy

variable {raw : String}

theorem parse_text (p : VictimPolicy) : parse p.text = .ok p := by cases p <;> rfl

theorem parse_of_ne (hobserved : raw ≠ "observed") (hranked : raw ≠ "ranked") :
    parse raw = .error ⟨raw⟩ := by
  rw [parse, if_neg hobserved, if_neg hranked]

theorem text_eq_or_ne (raw : String) :
    (∃ p : VictimPolicy, raw = p.text) ∨ raw ≠ "observed" ∧ raw ≠ "ranked" := by
  by_cases hobserved : raw = "observed"
  · exact .inl ⟨.observed, hobserved⟩
  · by_cases hranked : raw = "ranked"
    · exact .inl ⟨.ranked, hranked⟩
    · exact .inr ⟨hobserved, hranked⟩

end VictimPolicy

namespace Settings

variable {lookup : String → Option String} {name : String} {default n : Nat} {e : Error}
  {s : Settings}

/-- The number that a variable stands for, which is the default if it is not set. -/
inductive HasNumber (lookup : String → Option String) (name : String) (default : Nat) : Nat → Prop
  | unset : lookup name = none → HasNumber lookup name default default
  | set {raw : String} {n : Nat} : lookup name = some raw → Text.Spells raw n → n < 2 ^ 64 →
      HasNumber lookup name default n

/-- A variable is set to what is no number, or to one that is too large. -/
inductive Misspelt (lookup : String → Option String) (name : String) : Error → Prop
  | set {raw : String} {cause : Text.NumeralError} : lookup name = some raw →
      Text.FirstFault (2 ^ 64) (Text.trim raw.toList) cause →
      Misspelt lookup name (.invalidNumber name raw cause)

theorem number_eq_ok_iff :
    number lookup name default = .ok n ↔ HasNumber lookup name default n := by
  constructor
  · intro h
    unfold number at h
    split at h
    · rename_i hunset
      cases h
      exact .unset hunset
    · rename_i raw hset
      split at h
      · rename_i hread
        cases h
        obtain ⟨hspells, hlt⟩ := (Text.readNumeral_eq_ok_iff (by decide)).mp hread
        exact .set hset (Text.denotes_trim_iff.mp hspells) hlt
      · contradiction
  · intro h
    unfold number
    cases h with
    | unset hunset => rw [hunset]
    | @set raw _ hset hspells hlt =>
      have hread : Text.readNumeral numberLimit (Text.trim raw.toList) = .ok n :=
        (Text.readNumeral_eq_ok_iff (by decide)).mpr ⟨Text.denotes_trim_iff.mpr hspells, hlt⟩
      simp only [hset, hread]

theorem number_eq_error_iff (default : Nat) :
    number lookup name default = .error e ↔ Misspelt lookup name e := by
  constructor
  · intro h
    unfold number at h
    split at h
    · contradiction
    · rename_i raw hset
      split at h
      · contradiction
      · rename_i hread
        cases h
        exact .set hset ((Text.readNumeral_eq_error_iff (by decide)).mp hread)
  · intro h
    unfold number
    cases h with
    | @set raw cause hset hfault =>
      have hread : Text.readNumeral numberLimit (Text.trim raw.toList) = .error cause :=
        (Text.readNumeral_eq_error_iff (by decide)).mpr hfault
      simp only [hset, hread]

inductive HasPolicy (lookup : String → Option String) : VictimPolicy → Prop
  | unset : lookup policyName = none → HasPolicy lookup .observed
  | set {p : VictimPolicy} : lookup policyName = some p.text → HasPolicy lookup p

inductive Check
  | resync
  | base
  | ceiling
  | delays
  | burst
  | policy
  deriving DecidableEq, Repr

def Check.inOrder : List Check := [.resync, .base, .ceiling, .delays, .burst, .policy]

/-- What a check finds wrong. -/
def Check.Fails (lookup : String → Option String) (e : Error) : Check → Prop
  | .resync =>
    Misspelt lookup resyncName e ∨ HasNumber lookup resyncName 30 0 ∧ e = .zero resyncName
  | .base => Misspelt lookup baseName e
  | .ceiling => Misspelt lookup ceilingName e
  | .delays => ∃ base ceiling, HasNumber lookup baseName 500 base ∧
      HasNumber lookup ceilingName 300 ceiling ∧ 1000 * ceiling < base ∧
      e = .ceilingBelowBase (.ofSecs ceiling) (.ofMillis base)
  | .burst =>
    Misspelt lookup burstName e ∨ HasNumber lookup burstName 500 0 ∧ e = .zero burstName
  | .policy => ∃ raw, lookup policyName = some raw ∧ raw ≠ "observed" ∧ raw ≠ "ranked" ∧
      e = .invalidPolicy ⟨raw⟩

/-- What is wrong with a number that may not be zero. -/
def zeroFault? (lookup : String → Option String) (name : String) (default : Nat) : Option Error :=
  match number lookup name default with
  | .error e => some e
  | .ok n => if n = 0 then some (.zero name) else none

def numberFault? (lookup : String → Option String) (name : String) (default : Nat) : Option Error :=
  match number lookup name default with
  | .error e => some e
  | .ok _ => none

/-- What the check finds, as a computation. -/
def Check.fault? (lookup : String → Option String) : Check → Option Error
  | .resync => zeroFault? lookup resyncName 30
  | .base => numberFault? lookup baseName 500
  | .ceiling => numberFault? lookup ceilingName 300
  | .delays =>
    match number lookup baseName 500, number lookup ceilingName 300 with
    | .ok baseMillis, .ok ceilingSecs =>
      if 1000 * ceilingSecs < baseMillis then
        some (.ceilingBelowBase (.ofSecs ceilingSecs) (.ofMillis baseMillis))
      else none
    | _, _ => none
  | .burst => zeroFault? lookup burstName 500
  | .policy =>
    match policyOf lookup with
    | .error e => some e
    | .ok _ => none

theorem zeroFault?_eq_some_iff : zeroFault? lookup name default = some e ↔
    Misspelt lookup name e ∨ HasNumber lookup name default 0 ∧ e = .zero name := by
  rw [← number_eq_error_iff default, ← number_eq_ok_iff, zeroFault?]
  cases number lookup name default with
  | error e' => simp
  | ok n =>
    by_cases hzero : n = 0
    · simp [hzero, eq_comm]
    · simp [hzero]

theorem numberFault?_eq_some_iff :
    numberFault? lookup name default = some e ↔ Misspelt lookup name e := by
  rw [← number_eq_error_iff default, numberFault?]
  cases number lookup name default <;> simp

theorem policyOf_cases (lookup : String → Option String) :
    (∃ p, HasPolicy lookup p ∧ policyOf lookup = .ok p) ∨
      ∃ raw, lookup policyName = some raw ∧ raw ≠ "observed" ∧ raw ≠ "ranked" ∧
        policyOf lookup = .error (.invalidPolicy ⟨raw⟩) := by
  cases hraw : lookup policyName with
  | none =>
    refine .inl ⟨.observed, .unset hraw, ?_⟩
    rw [policyOf, hraw]
    rfl
  | some raw =>
    rcases VictimPolicy.text_eq_or_ne raw with ⟨p, rfl⟩ | ⟨hobserved, hranked⟩
    · refine .inl ⟨p, .set hraw, ?_⟩
      simp only [policyOf, hraw, VictimPolicy.parse_text]
    · refine .inr ⟨raw, rfl, hobserved, hranked, ?_⟩
      simp only [policyOf, hraw, VictimPolicy.parse_of_ne hobserved hranked]

theorem hasPolicy_of_policyOf {p : VictimPolicy} (h : policyOf lookup = .ok p) :
    HasPolicy lookup p := by
  rcases policyOf_cases lookup with ⟨q, hq, heq⟩ | ⟨raw, -, -, -, heq⟩
  · rw [heq] at h
    cases h
    exact hq
  · rw [heq] at h
    contradiction

theorem policyOf_eq_error_iff : policyOf lookup = .error e ↔ ∃ raw, lookup policyName = some raw ∧
    raw ≠ "observed" ∧ raw ≠ "ranked" ∧ e = .invalidPolicy ⟨raw⟩ := by
  rcases policyOf_cases lookup with ⟨p, hp, heq⟩ | ⟨raw, hraw, hobserved, hranked, heq⟩
  · simp only [heq, reduceCtorEq, false_iff]
    rintro ⟨raw, hraw, hobserved, hranked, -⟩
    cases hp with
    | unset hunset => simp [hunset] at hraw
    | set hset => cases p <;> simp_all [VictimPolicy.text]
  · simp [heq, hraw, hobserved, hranked, eq_comm]

theorem Check.fault?_eq_some_iff (c : Check) : c.fault? lookup = some e ↔ c.Fails lookup e := by
  cases c with
  | resync => exact zeroFault?_eq_some_iff
  | base => exact numberFault?_eq_some_iff
  | ceiling => exact numberFault?_eq_some_iff
  | delays =>
    simp only [fault?, Fails, ← number_eq_ok_iff]
    cases number lookup baseName 500 with
    | error e' => simp
    | ok base =>
      cases number lookup ceilingName 300 with
      | error e' => simp
      | ok ceiling => simp [eq_comm]
  | burst => exact zeroFault?_eq_some_iff
  | policy =>
    simp only [fault?, Fails, ← policyOf_eq_error_iff]
    cases policyOf lookup <;> simp

/-- The first check that fails finds this. -/
def FirstFault (lookup : String → Option String) (e : Error) : Prop :=
  ∃ before c after, Check.inOrder = before ++ c :: after ∧
    (∀ d ∈ before, ∀ e', ¬ d.Fails lookup e') ∧ c.Fails lookup e

theorem firstFault_iff :
    FirstFault lookup e ↔ Check.inOrder.findSome? (Check.fault? lookup) = some e := by
  simp only [FirstFault, List.findSome?_eq_some_iff, ← Check.fault?_eq_some_iff,
    Option.eq_none_iff_forall_ne_some]
  constructor
  · rintro ⟨before, c, after, hsplit, hbefore, hc⟩
    exact ⟨before, c, after, hsplit, hc, hbefore⟩
  · rintro ⟨before, c, after, hsplit, hc, hbefore⟩
    exact ⟨before, c, after, hsplit, hbefore, hc⟩

/-- Every setting is what its variable says, or the default. -/
structure Configured (lookup : String → Option String) (s : Settings) : Prop where
  logLevel : s.logLevel = (lookup logLevelName).getD "info"
  resync : ∃ n, HasNumber lookup resyncName 30 n ∧ s.resyncInterval = .ofSecs n
  base : ∃ n, HasNumber lookup baseName 500 n ∧ s.requeueBase = .ofMillis n
  ceiling : ∃ n, HasNumber lookup ceilingName 300 n ∧ s.requeueCeiling = .ofSecs n
  burst : HasNumber lookup burstName 500 s.burst
  policy : HasPolicy lookup s.policy
  seedFile : ∀ file, s.seedFile = some file ↔ lookup seedFileName = some file ∧ file ≠ ""

theorem ofSecs_lt_ofMillis_iff {secs millis : Nat} :
    Span.ofSecs secs < Span.ofMillis millis ↔ 1000 * secs < millis := by
  change secs * 1000000000 < millis * 1000000 ↔ _
  omega

theorem seedFileOf_eq_some_iff {file : String} :
    seedFileOf lookup = some file ↔ lookup seedFileName = some file ∧ file ≠ "" := by
  unfold seedFileOf
  rw [Option.filter_eq_some_iff, bne_iff_ne]

/-- Either a check fails and what the first one finds is reported, or all settings are as wanted. -/
theorem ofLookup_cases (lookup : String → Option String) :
    (∃ e, ofLookup lookup = .error e ∧ Check.inOrder.findSome? (Check.fault? lookup) = some e) ∨
      ∃ s, ofLookup lookup = .ok s ∧ Check.inOrder.findSome? (Check.fault? lookup) = none ∧
        Configured lookup s := by
  have hresyncSecs : Worker.defaultResync.nanos / 1000000000 = 30 := rfl
  have hbaseMillis : Backoff.defaultBase.nanos / 1000000 = 500 := rfl
  have hceilingSecs : Backoff.defaultCeiling.nanos / 1000000000 = 300 := rfl
  have hdefaultBurst : Adjustment.defaultBurst = 500 := rfl
  simp only [ofLookup, bind, Except.bind, hresyncSecs, hbaseMillis, hceilingSecs, hdefaultBurst,
    ofSecs_lt_ofMillis_iff, Check.inOrder, List.findSome?_cons, Check.fault?, zeroFault?,
    numberFault?]
  cases hresync : number lookup resyncName 30 with
  | error e => exact .inl ⟨e, rfl, rfl⟩
  | ok resync =>
    by_cases hresyncZero : resync = 0
    · subst hresyncZero
      exact .inl ⟨_, rfl, rfl⟩
    simp only [if_neg hresyncZero]
    cases hbase : number lookup baseName 500 with
    | error e => exact .inl ⟨e, rfl, rfl⟩
    | ok base =>
      cases hceiling : number lookup ceilingName 300 with
      | error e => exact .inl ⟨e, rfl, rfl⟩
      | ok ceiling =>
        by_cases hdelays : 1000 * ceiling < base
        · simp only [if_pos hdelays]
          exact .inl ⟨_, rfl, rfl⟩
        simp only [if_neg hdelays]
        cases hburst : number lookup burstName 500 with
        | error e => exact .inl ⟨e, rfl, rfl⟩
        | ok burst =>
          by_cases hburstZero : burst = 0
          · subst hburstZero
            exact .inl ⟨_, rfl, rfl⟩
          simp only [if_neg hburstZero]
          cases hpolicy : policyOf lookup with
          | error e => exact .inl ⟨e, rfl, rfl⟩
          | ok policy =>
            refine .inr ⟨_, rfl, rfl, ?_⟩
            exact {
              logLevel := rfl
              resync := ⟨resync, number_eq_ok_iff.mp hresync, rfl⟩
              base := ⟨base, number_eq_ok_iff.mp hbase, rfl⟩
              ceiling := ⟨ceiling, number_eq_ok_iff.mp hceiling, rfl⟩
              burst := number_eq_ok_iff.mp hburst
              policy := hasPolicy_of_policyOf hpolicy
              seedFile := fun file => seedFileOf_eq_some_iff }

theorem ofLookup_eq_error_iff : ofLookup lookup = .error e ↔ FirstFault lookup e := by
  rw [firstFault_iff]
  rcases ofLookup_cases lookup with ⟨e', heq, hfault⟩ | ⟨s, heq, hfault, -⟩
  · simp only [heq, hfault, Except.error.injEq, Option.some.injEq]
  · simp [heq, hfault]

theorem configured_of_ofLookup (h : ofLookup lookup = .ok s) : Configured lookup s := by
  rcases ofLookup_cases lookup with ⟨e', heq, -⟩ | ⟨t, heq, -, ht⟩
  · rw [heq] at h
    contradiction
  · rw [heq] at h
    cases h
    exact ht

theorem Check.mem_inOrder (c : Check) : c ∈ inOrder := by cases c <;> decide

theorem exists_ofLookup_iff_passes :
    (∃ s, ofLookup lookup = .ok s) ↔ ∀ (c : Check) (e : Error), ¬ c.Fails lookup e := by
  have hnone : Check.inOrder.findSome? (Check.fault? lookup) = none ↔
      ∀ (c : Check) (e : Error), ¬ c.Fails lookup e := by
    rw [List.findSome?_eq_none_iff]
    simp only [Check.mem_inOrder, forall_const, Option.eq_none_iff_forall_ne_some, ne_eq,
      Check.fault?_eq_some_iff]
  rw [← hnone]
  rcases ofLookup_cases lookup with ⟨e', heq, hfault⟩ | ⟨s, heq, hfault, -⟩
  · simp [heq, hfault]
  · simp [heq, hfault]

/-- If the variable is set then it is a number. -/
def Spelt (lookup : String → Option String) (name : String) : Prop :=
  ∀ raw, lookup name = some raw → ∃ n, Text.Spells raw n ∧ n < 2 ^ 64

theorem spelt_iff : Spelt lookup name ↔ ∀ e, ¬ Misspelt lookup name e := by
  simp only [← number_eq_error_iff 0]
  constructor
  · intro h e he
    cases hraw : lookup name with
    | none => simp [number, hraw] at he
    | some raw =>
      obtain ⟨n, hn, hlt⟩ := h raw hraw
      rw [number_eq_ok_iff.mpr (.set hraw hn hlt)] at he
      contradiction
  · intro h raw hraw
    cases hnumber : number lookup name 0 with
    | error e => exact absurd hnumber (h e)
    | ok n =>
      cases number_eq_ok_iff.mp hnumber with
      | unset hunset => simp [hunset] at hraw
      | set hset hn hlt =>
        rw [hraw] at hset
        cases hset
        exact ⟨n, hn, hlt⟩

/-- What makes the variables usable. -/
structure Usable (lookup : String → Option String) : Prop where
  spelt : ∀ name ∈ [resyncName, baseName, ceilingName, burstName], Spelt lookup name
  resync_ne_zero : ¬ HasNumber lookup resyncName 30 0
  burst_ne_zero : ¬ HasNumber lookup burstName 500 0
  base_le_ceiling : ∀ base ceiling, HasNumber lookup baseName 500 base →
    HasNumber lookup ceilingName 300 ceiling → base ≤ 1000 * ceiling
  policy : ∀ raw, lookup policyName = some raw → raw = "observed" ∨ raw = "ranked"

theorem Usable.passes (h : Usable lookup) (c : Check) (e : Error) : ¬ c.Fails lookup e := by
  have hspelt {name : String} (hname : name ∈ [resyncName, baseName, ceilingName, burstName]) :
      ¬ Misspelt lookup name e := spelt_iff.mp (h.spelt name hname) e
  intro hfails
  cases c with
  | resync =>
    rcases hfails with hmisspelt | ⟨hzero, -⟩
    · exact hspelt (by simp) hmisspelt
    · exact h.resync_ne_zero hzero
  | base => exact hspelt (by simp) hfails
  | ceiling => exact hspelt (by simp) hfails
  | delays =>
    obtain ⟨base, ceiling, hbase, hceiling, hlt, -⟩ := hfails
    exact Nat.not_lt.mpr (h.base_le_ceiling base ceiling hbase hceiling) hlt
  | burst =>
    rcases hfails with hmisspelt | ⟨hzero, -⟩
    · exact hspelt (by simp) hmisspelt
    · exact h.burst_ne_zero hzero
  | policy =>
    obtain ⟨raw, hraw, hobserved, hranked, -⟩ := hfails
    rcases h.policy raw hraw with heq | heq
    · exact hobserved heq
    · exact hranked heq

theorem usable_of_passes (h : ∀ (c : Check) (e : Error), ¬ c.Fails lookup e) : Usable lookup where
  spelt := by
    simp only [List.forall_mem_cons, spelt_iff]
    exact ⟨fun e he => h .resync e (.inl he), h .base, h .ceiling,
      fun e he => h .burst e (.inl he), by simp⟩
  resync_ne_zero := fun hzero => h .resync _ (.inr ⟨hzero, rfl⟩)
  burst_ne_zero := fun hzero => h .burst _ (.inr ⟨hzero, rfl⟩)
  base_le_ceiling := fun base ceiling hbase hceiling =>
    Nat.le_of_not_lt fun hlt => h .delays _ ⟨base, ceiling, hbase, hceiling, hlt, rfl⟩
  policy := by
    intro raw hraw
    by_contra hne
    rw [not_or] at hne
    exact h .policy _ ⟨raw, hraw, hne.1, hne.2, rfl⟩

theorem exists_ofLookup_iff : (∃ s, ofLookup lookup = .ok s) ↔ Usable lookup := by
  rw [exists_ofLookup_iff_passes]
  exact ⟨usable_of_passes, Usable.passes⟩

/-- The worker rests between its rounds, and the delays that it starts with are those that were set,
or a day. -/
structure Paced (s : Settings) : Prop where
  resync_ne_zero : s.workerPace.resyncInterval ≠ .zero
  tick_ne_zero : s.workerPace.requeueTick ≠ .zero
  base {σ : Type} (clock : Nat → Span) (inner : σ) :
    (Worker.start s.workerPace clock inner).backoff.base =
      min s.requeueBase (.ofSecs (24 * 60 * 60))
  ceiling {σ : Type} (clock : Nat → Span) (inner : σ) :
    (Worker.start s.workerPace clock inner).backoff.ceiling =
      min s.requeueCeiling (.ofSecs (24 * 60 * 60))

theorem ceiling_new {base ceiling : Span} (h : base ≤ ceiling) :
    (Backoff.new base ceiling).ceiling = min ceiling Backoff.longest := by
  rw [Span.le_iff] at h
  apply Span.ext
  simp only [Backoff.new, Span.nanos_min, Span.nanos_max]
  omega

theorem Configured.paced (hs : Configured lookup s) (h : Usable lookup) : Paced s := by
  obtain ⟨resync, hresync, hinterval⟩ := hs.resync
  obtain ⟨base, hbase, hbaseSpan⟩ := hs.base
  obtain ⟨ceiling, hceiling, hceilingSpan⟩ := hs.ceiling
  have hle : s.requeueBase ≤ s.requeueCeiling := by
    have := h.base_le_ceiling base ceiling hbase hceiling
    rw [hbaseSpan, hceilingSpan, Span.le_iff]
    simp only [Span.ofMillis, Span.ofSecs]
    omega
  exact {
    resync_ne_zero := by
      intro hzero
      have hnanos : s.resyncInterval.nanos = 0 := congrArg Span.nanos hzero
      rw [hinterval, Span.ofSecs] at hnanos
      have hresyncZero : resync = 0 := by simpa using hnanos
      exact h.resync_ne_zero (hresyncZero ▸ hresync)
    tick_ne_zero := by
      change Span.ofMillis 250 ≠ .zero
      decide
    base := fun _ _ => rfl
    ceiling := fun _ _ => ceiling_new hle }

/-- Which variables are accepted, what the settings are then, and which fault is reported
otherwise. -/
theorem ofLookup_accepts_usable (lookup : String → Option String) :
    ((∃ s, ofLookup lookup = .ok s) ↔ Usable lookup) ∧
      (∀ s, ofLookup lookup = .ok s → Configured lookup s ∧ Paced s) ∧
      ∀ e, ofLookup lookup = .error e ↔ FirstFault lookup e := by
  refine ⟨exists_ofLookup_iff, fun s hs => ?_, fun e => ofLookup_eq_error_iff⟩
  have hconfigured := configured_of_ofLookup hs
  exact ⟨hconfigured, hconfigured.paced (exists_ofLookup_iff.mp ⟨s, hs⟩)⟩

/-- With two variables set, and an empty name for the file. -/
theorem ofLookup_accepts_usable_two :
    let lookup name := if name = resyncName then some "\t+0045 " else
      if name = baseName then some "300000" else if name = seedFileName then some "" else none
    let s : Settings := ⟨"info", .ofSecs 45, .ofSecs 300, .ofSecs 300, 500, .observed, none⟩
    ofLookup lookup = .ok s ∧ Configured lookup s ∧ Paced s := by
  intro lookup s
  have hs : ofLookup lookup = .ok s := by decide +kernel
  exact ⟨hs, (ofLookup_accepts_usable lookup).2.1 s hs⟩

/-- Two variables are at fault, and the ceiling is below the base by default. -/
example : ofLookup (fun name => if name = baseName then some "300001" else
      if name = burstName then some "0" else none) =
    .error (.ceilingBelowBase (.ofSecs 300) (.ofMillis 300001)) := by decide +kernel

end Settings

end ReplicaController

import Mathlib.Data.List.GetD
import Mathlib.Data.Nat.Digits.Defs
import Mathlib.Data.Nat.ModEq
import ReplicaController.Proofs.Uid
import ReplicaController.Stamp

/-!
# Stamped instances and their names

A stamp is made for every valid controller reference, and for no other. What it builds belongs to
that reference alone. The suffix of a name spells the remainder that the drawn number leaves: five
digits in base twenty-seven, the lowest first. So two draws share a name just if they leave the same
remainder, and random uids reach every suffix.
-/

namespace ReplicaController.Stamp

section Letters

variable {c : Char}

theorem length_alphabet : alphabet.length = 27 := rfl

theorem nodup_alphabet : alphabet.Nodup := by decide

theorem letter_eq (n : Nat) : ∃ h : n % 27 < alphabet.length, letter n = alphabet[n % 27] := by
  have hlt : n % 27 < alphabet.length := Nat.mod_lt n (by decide)
  exact ⟨hlt, List.getD_eq_getElem alphabet 'b' hlt⟩

theorem letter_mem (n : Nat) : letter n ∈ alphabet := by
  obtain ⟨hlt, hletter⟩ := letter_eq n
  rw [hletter]
  exact List.getElem_mem hlt

theorem idxOf_letter (n : Nat) : alphabet.idxOf (letter n) = n % 27 := by
  obtain ⟨hlt, hletter⟩ := letter_eq n
  rw [hletter]
  exact nodup_alphabet.idxOf_getElem _ hlt

theorem letter_idxOf_add (h : c ∈ alphabet) (n : Nat) :
    letter (alphabet.idxOf c + 27 * n) = c := by
  have hidx : alphabet.idxOf c < 27 := List.idxOf_lt_length_iff.mpr h
  have hmod : (alphabet.idxOf c + 27 * n) % 27 = alphabet.idxOf c := by omega
  obtain ⟨hlt, hletter⟩ := letter_eq (alphabet.idxOf c + 27 * n)
  simp only [hletter, hmod, List.getElem_idxOf (List.idxOf_lt_length_iff.mpr h)]

end Letters

section Suffixes

variable {m n count : Nat} {cs : List Char} {t : String}

theorem length_suffixDigits (count n : Nat) : (suffixDigits count n).length = count := by
  induction count generalizing n with
  | zero => rfl
  | succ count ih => rw [suffixDigits, List.length_cons, ih]

theorem mem_alphabet_of_mem_suffixDigits {c : Char} (h : c ∈ suffixDigits count n) :
    c ∈ alphabet := by
  induction count generalizing n with
  | zero => contradiction
  | succ count ih =>
    rcases List.mem_cons.mp h with rfl | h
    · exact letter_mem n
    · exact ih h

/-- The number that letters spell as digits, the lowest first. -/
def numberOf (cs : List Char) : Nat := Nat.ofDigits 27 (cs.map alphabet.idxOf)

theorem numberOf_cons (c : Char) (cs : List Char) :
    numberOf (c :: cs) = alphabet.idxOf c + 27 * numberOf cs := Nat.ofDigits_cons

theorem numberOf_suffixDigits (count n : Nat) :
    numberOf (suffixDigits count n) = n % 27 ^ count := by
  induction count generalizing n with
  | zero => rw [Nat.pow_zero, Nat.mod_one]; rfl
  | succ count ih =>
    rw [suffixDigits, numberOf_cons, ih, idxOf_letter, length_alphabet, Nat.pow_succ',
      Nat.mod_mul]

/-- The lowest digit comes first. -/
example : suffix 27 = "bcbbb" := rfl

theorem suffixDigits_numberOf (h : ∀ c ∈ cs, c ∈ alphabet) :
    suffixDigits cs.length (numberOf cs) = cs := by
  induction cs with
  | nil => rfl
  | cons c cs ih =>
    obtain ⟨hc, hcs⟩ := List.forall_mem_cons.mp h
    have hlt : alphabet.idxOf c < 27 := List.idxOf_lt_length_iff.mpr hc
    have hrest : (alphabet.idxOf c + 27 * numberOf cs) / 27 = numberOf cs := by omega
    rw [List.length_cons, suffixDigits, numberOf_cons, letter_idxOf_add hc, length_alphabet, hrest,
      ih hcs]

theorem suffixDigits_mod (count n : Nat) :
    suffixDigits count (n % 27 ^ count) = suffixDigits count n := by
  have hletters : ∀ c ∈ suffixDigits count n, c ∈ alphabet := fun _ =>
    mem_alphabet_of_mem_suffixDigits
  have hspelt := suffixDigits_numberOf hletters
  rwa [numberOf_suffixDigits, length_suffixDigits] at hspelt

theorem suffixDigits_inj :
    suffixDigits count m = suffixDigits count n ↔ m ≡ n [MOD 27 ^ count] := by
  constructor
  · intro h
    have hm := numberOf_suffixDigits count m
    rw [h, numberOf_suffixDigits] at hm
    exact hm.symm
  · intro h
    rw [← suffixDigits_mod count m, h, suffixDigits_mod]

def suffixes : Set String := {t | t.length = 5 ∧ ∀ c ∈ t.toList, c ∈ alphabet}

@[simp]
theorem toList_suffix (n : Nat) : (suffix n).toList = suffixDigits 5 n := String.toList_ofList

theorem suffix_mem (n : Nat) : suffix n ∈ suffixes := by
  refine ⟨?_, fun c hc => ?_⟩
  · rw [← String.length_toList, toList_suffix, length_suffixDigits]
  · rw [toList_suffix] at hc
    exact mem_alphabet_of_mem_suffixDigits hc

theorem suffix_inj : suffix m = suffix n ↔ m ≡ n [MOD 27 ^ 5] := by
  rw [← String.toList_inj, toList_suffix, toList_suffix, suffixDigits_inj]

theorem suffix_numberOf (h : t ∈ suffixes) : suffix (numberOf t.toList) = t := by
  obtain ⟨hlength, hletters⟩ := h
  have hspelt := suffixDigits_numberOf hletters
  rw [String.length_toList, hlength] at hspelt
  rw [← String.toList_inj, toList_suffix, hspelt]

theorem bijOn_suffix : Set.BijOn suffix (Set.Iio (27 ^ 5)) suffixes := by
  refine ⟨fun n _ => suffix_mem n, ?_, ?_⟩
  · intro m hm n hn h
    exact (suffix_inj.mp h).eq_of_lt_of_lt hm hn
  · intro t ht
    refine ⟨numberOf t.toList % 27 ^ 5, Nat.mod_lt _ (by decide), ?_⟩
    rw [suffix_inj.mpr (Nat.mod_modEq _ _), suffix_numberOf ht]

theorem exists_random_suffix (h : t ∈ suffixes) :
    ∃ bits, suffix (Uid.ofRandom bits).bits.toNat = t := by
  obtain ⟨r, hr, rfl⟩ := bijOn_suffix.surjOn h
  obtain ⟨bits, hbits⟩ := Uid.exists_toNat_ofRandom_mod (by decide : 27 ^ 5 ≤ 2 ^ 62) hr
  refine ⟨bits, suffix_inj.mpr ?_⟩
  rw [Nat.ModEq, hbits, Nat.mod_eq_of_lt hr]

end Suffixes

section Instances

variable {ns : String} {template : InstanceTemplate} {selectorLabels : Labels}
  {owner : OwnerReference} {s : Stamp}

theorem new_eq_ok_iff : new ns template selectorLabels owner = .ok s ↔
    owner.fault? = none ∧
      s = ⟨ns, baseOf owner.name, labelsOf template selectorLabels, template.spec, owner⟩ := by
  unfold new
  cases owner.fault? with
  | none => simp [eq_comm]
  | some e => simp

theorem exists_new_iff : (∃ s, new ns template selectorLabels owner = .ok s) ↔
    owner.apiVersion ≠ "" ∧ owner.kind ≠ "" ∧ owner.name ≠ "" ∧ owner.uid ≠ .nil ∧
      owner.controller = true ∧ owner.blockOwnerDeletion = true := by
  rw [← OwnerReference.fault?_eq_none_iff]
  simp only [new_eq_ok_iff, exists_and_left, exists_eq, and_true]

theorem isOwnedBy_build_iff (h : s.owner.controller = true) (d : Draw) (uid : Uid) :
    (s.build d).isOwnedBy uid = true ↔ uid = s.owner.uid := by
  have href : (s.build d).controllerRef? = some s.owner := by
    simp [build, Instance.controllerRef?, h]
  simp only [Instance.isOwnedBy, href, beq_iff_eq]
  exact eq_comm

theorem baseOf_eq (name : String) :
    baseOf name = String.ofList (name.toList.take (min 57 name.length)) ++ "-" := by
  rw [← String.toList_inj, ← String.length_toList, ← List.take_eq_take_min]
  simp [baseOf, maxNameBase]

theorem name_build_inj (s : Stamp) (d e : Draw) :
    (s.build d).name = (s.build e).name ↔ d.suffix ≡ e.suffix [MOD 27 ^ 5] := by
  rw [← suffix_inj]
  exact String.append_right_inj _

/-- What a stamp for an owner builds of a draw: a pending instance of that owner only, with a name
that is cut to its length and ends in the digits of the number that was drawn. -/
structure Stamped (ns : String) (owner : OwnerReference) (d : Draw) (i : Instance) : Prop where
  ns_eq : i.ns = ns
  phase_eq : i.phase = .pending
  isActive : i.isActive = true
  ownerReferences_eq : i.ownerReferences = [owner]
  isOwnedBy_iff : ∀ uid, i.isOwnedBy uid = true ↔ uid = owner.uid
  name_eq : i.name = String.ofList (owner.name.toList.take (min 57 owner.name.length)) ++ "-" ++
    suffix d.suffix
  length_name_le : i.name.length ≤ 63
  suffix_mem : suffix d.suffix ∈ suffixes
  numberOf_suffix : numberOf (suffix d.suffix).toList = d.suffix % 27 ^ 5

theorem length_baseOf (name : String) : (baseOf name).length = min 57 name.length + 1 := by
  rw [baseOf_eq, String.length_append, String.length_ofList, List.length_take,
    String.length_toList, Nat.min_assoc, Nat.min_self]
  rfl

theorem stamped_build (h : new ns template selectorLabels owner = .ok s) (d : Draw) :
    Stamped ns owner d (s.build d) := by
  obtain ⟨hvalid, rfl⟩ := new_eq_ok_iff.mp h
  have hcontroller := (OwnerReference.fault?_eq_none_iff.mp hvalid).2.2.2.2.1
  refine ⟨rfl, rfl, rfl, rfl, isOwnedBy_build_iff hcontroller d, ?_, ?_, suffix_mem _, ?_⟩
  · rw [← baseOf_eq]
    rfl
  · have hlength : (suffix d.suffix).length = 5 := (suffix_mem d.suffix).1
    rw [build, String.length_append, length_baseOf, hlength]
    omega
  · rw [toList_suffix, numberOf_suffixDigits]

/-- When a stamp is made, what it builds, and which names it gives. -/
theorem new_stamps (ns : String) (template : InstanceTemplate) (selectorLabels : Labels)
    (owner : OwnerReference) :
    ((∃ s, new ns template selectorLabels owner = .ok s) ↔
      owner.apiVersion ≠ "" ∧ owner.kind ≠ "" ∧ owner.name ≠ "" ∧ owner.uid ≠ .nil ∧
        owner.controller = true ∧ owner.blockOwnerDeletion = true) ∧
    (∀ s, new ns template selectorLabels owner = .ok s →
      (∀ d, Stamped ns owner d (s.build d)) ∧
      ∀ d e, (s.build d).name = (s.build e).name ↔ d.suffix ≡ e.suffix [MOD 27 ^ 5]) ∧
    Set.BijOn suffix (Set.Iio (27 ^ 5)) suffixes ∧
    ∀ t ∈ suffixes, ∃ bits, suffix (Uid.ofRandom bits).bits.toNat = t := by
  refine ⟨exists_new_iff, fun s hs => ⟨stamped_build hs, name_build_inj s⟩, bijOn_suffix, ?_⟩
  exact fun t ht => exists_random_suffix ht

/-- An owner with a name of sixty characters. -/
def longNamed : OwnerReference where
  apiVersion := "v1"
  kind := "PodSet"
  name := String.ofList (List.replicate 60 'é')
  uid := ⟨1⟩
  controller := true
  blockOwnerDeletion := true

/-- Of a long name fifty-seven characters are kept. Numbers that are as far apart as there are
suffixes give the same name, and the last of the suffixes is reached too. -/
theorem new_stamps_longNamed : ∃ s, new "prod" ⟨.empty, .null⟩ .empty longNamed = .ok s ∧
    (s.build ⟨.nil, 27, .epoch⟩).name.toList = List.replicate 57 'é' ++ "-bcbbb".toList ∧
    (s.build ⟨.nil, 27, .epoch⟩).name = (s.build ⟨.nil, 27 + 27 ^ 5, .epoch⟩).name ∧
    ∃ bits, suffix (Uid.ofRandom bits).bits.toNat = "99999" := by
  obtain ⟨hexists, hstamps, -, hreached⟩ := new_stamps "prod" ⟨.empty, .null⟩ .empty longNamed
  obtain ⟨s, hs⟩ := hexists.mpr (by simp [longNamed, Uid.nil])
  obtain ⟨hstamped, hnames⟩ := hstamps s hs
  have hlast : "99999" ∈ suffixes := ⟨rfl, by simp [alphabet]⟩
  refine ⟨s, hs, ?_, (hnames _ _).mpr rfl, hreached "99999" hlast⟩
  have hlength : longNamed.name.length = 60 := by
    rw [longNamed, String.length_ofList, List.length_replicate]
  have hname : longNamed.name.toList = List.replicate 60 'é' := String.toList_ofList
  rw [(hstamped _).name_eq, hlength, hname, List.take_replicate, String.toList_append,
    String.toList_append, String.toList_ofList, toList_suffix]
  rfl

end Instances

end ReplicaController.Stamp

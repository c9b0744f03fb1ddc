import Mathlib.Algebra.Ring.Nat
import ReplicaController.Text.Blank
import ReplicaController.Text.Numeral

/-!
# Numerals and their values

The digits of a number have the number for their value, also behind zeros, and a numeral of a fixed
width ends where the width does. A numeral of a limited size is read just if it is one, and what is
wrong first is told otherwise. White space around a numeral is not part of it.
-/

namespace ReplicaController.Text

theorem decimalValue_eq_ofDigitChars (cs : List Char) :
    decimalValue cs = Nat.ofDigitChars 10 cs 0 :=
  Nat.ofDigitChars_eq_foldl.symm

theorem isDigit_iff {c : Char} : isDigit c = true ↔ c.isDigit = true := by
  simp only [isDigit, Char.isDigit, Bool.and_eq_true, decide_eq_true_eq]
  rfl

theorem isDigit_of_mem_natDigits {c : Char} {n : Nat} (h : c ∈ natDigits n) : isDigit c = true :=
  isDigit_iff.mpr (Nat.isDigit_of_mem_toDigits (by decide) (by decide) h)

theorem isDigit_of_mem_padded {c : Char} {width n : Nat} (h : c ∈ padded width n) :
    isDigit c = true := by
  rcases List.mem_append.mp h with h | h
  · rw [List.eq_of_mem_replicate h]
    decide
  · exact isDigit_of_mem_natDigits h

theorem decimalValue_padded (width n : Nat) : decimalValue (padded width n) = n := by
  rw [decimalValue_eq_ofDigitChars, padded, zeros, Nat.ofDigitChars_append,
    Nat.ofDigitChars_replicate_zero, Nat.mul_zero]
  exact Nat.ofDigitChars_ten_toDigits

theorem padded_ne_nil (width n : Nat) : padded width n ≠ [] :=
  List.append_ne_nil_of_right_ne_nil _ Nat.toDigits_ne_nil

theorem length_padded {width n : Nat} (hwidth : 0 < width) (h : n < 10 ^ width) :
    (padded width n).length = width := by
  have hlen : (natDigits n).length ≤ width :=
    (Nat.length_toDigits_le_iff (by decide) hwidth).mpr h
  rw [padded, List.length_append, zeros, List.length_replicate]
  omega

theorem isBlank_eq_false_of_isDigit {c : Char} (h : isDigit c = true) : isBlank c = false := by
  simp only [isDigit, Bool.and_eq_true, decide_eq_true_eq, Char.le_def, UInt32.le_iff_toNat_le] at h
  have hlow : 48 ≤ c.toNat := h.1
  have hhigh : c.toNat ≤ 57 := h.2
  simp [isBlank]
  omega

theorem trimStart_cons {c : Char} (h : isBlank c = false) (cs : List Char) :
    trimStart (c :: cs) = c :: cs :=
  List.dropWhile_cons_of_neg (by simp [h])

theorem exists_padded_eq_cons (width n : Nat) :
    ∃ c cs, isDigit c = true ∧ padded width n = c :: cs := by
  obtain ⟨c, cs, h⟩ := List.exists_cons_of_ne_nil (padded_ne_nil width n)
  exact ⟨c, cs, isDigit_of_mem_padded (h ▸ List.mem_cons_self), h⟩

theorem trimStart_padded (width n : Nat) (cs : List Char) :
    trimStart (padded width n ++ cs) = padded width n ++ cs := by
  obtain ⟨c, ds, hc, h⟩ := exists_padded_eq_cons width n
  rw [h, List.cons_append, trimStart_cons (isBlank_eq_false_of_isDigit hc)]

theorem decimalValue_append_singleton (cs : List Char) (c : Char) :
    decimalValue (cs ++ [c]) = 10 * decimalValue cs + digitValue c := by
  simp [decimalValue]

theorem decimalValue_le_append (cs ds : List Char) :
    decimalValue cs ≤ decimalValue (cs ++ ds) := by
  induction ds generalizing cs with
  | nil => simp
  | cons d ds ih =>
    have hstep := ih (cs ++ [d])
    rw [decimalValue_append_singleton, ← List.append_cons] at hstep
    omega

/-- An optional plus sign, and then digits of that value. -/
def Denotes (cs : List Char) (n : Nat) : Prop :=
  ∃ digits, (cs = digits ∨ cs = '+' :: digits) ∧ digits ≠ [] ∧
    (∀ c ∈ digits, isDigit c = true) ∧ decimalValue digits = n

/-- Why a character behind digits cannot be read. -/
inductive StopsAt (limit : Nat) (digits : List Char) (c : Char) : NumeralError → Prop
  | digit : isDigit c = false → StopsAt limit digits c .invalidDigit
  | size : isDigit c = true → limit ≤ decimalValue (digits ++ [c]) →
      StopsAt limit digits c .tooLarge

/-- What is wrong first with a numeral of a limited size. -/
inductive FirstFault (limit : Nat) (cs : List Char) : NumeralError → Prop
  | empty : cs = [] → FirstFault limit cs .empty
  | bare : cs = ['+'] → FirstFault limit cs .invalidDigit
  | stop {before after : List Char} {c : Char} {e : NumeralError} :
      dropPlus cs = before ++ c :: after → (∀ d ∈ before, isDigit d = true) →
      decimalValue before < limit → StopsAt limit before c e → FirstFault limit cs e

section Scan

variable {limit n : Nat} {seen cs : List Char} {e : NumeralError}

theorem scanDigits_eq_ok_iff (h : decimalValue seen < limit) :
    scanDigits limit (decimalValue seen) cs = .ok n ↔
      (∀ c ∈ cs, isDigit c = true) ∧ decimalValue (seen ++ cs) = n ∧ n < limit := by
  induction cs generalizing seen with
  | nil =>
    simp only [scanDigits, Except.ok.injEq, List.not_mem_nil, false_implies, implies_true,
      List.append_nil, true_and]
    exact ⟨fun heq => ⟨heq, heq ▸ h⟩, And.left⟩
  | cons c cs ih =>
    rw [scanDigits, List.forall_mem_cons, List.append_cons, ← decimalValue_append_singleton]
    by_cases hdigit : isDigit c = true
    · by_cases hlt : decimalValue (seen ++ [c]) < limit
      · simp only [hdigit, hlt, if_true, ih hlt, true_and]
      · have hle := decimalValue_le_append (seen ++ [c]) cs
        simp only [hdigit, hlt, if_true, if_false, reduceCtorEq, false_iff]
        rintro ⟨-, rfl, hn⟩
        omega
    · simp [hdigit]

theorem scanDigits_eq_error_iff (h : decimalValue seen < limit) :
    scanDigits limit (decimalValue seen) cs = .error e ↔
      ∃ before c after, cs = before ++ c :: after ∧ (∀ d ∈ before, isDigit d = true) ∧
        decimalValue (seen ++ before) < limit ∧ StopsAt limit (seen ++ before) c e := by
  induction cs generalizing seen with
  | nil => simp [scanDigits]
  | cons c cs ih =>
    rw [scanDigits, ← decimalValue_append_singleton]
    constructor
    · intro hscan
      by_cases hdigit : isDigit c = true
      · by_cases hlt : decimalValue (seen ++ [c]) < limit
        · simp only [hdigit, hlt, if_true, ih hlt] at hscan
          obtain ⟨before, d, after, rfl, hbefore, hd⟩ := hscan
          rw [← List.append_cons] at hd
          exact ⟨c :: before, d, after, rfl, List.forall_mem_cons.mpr ⟨hdigit, hbefore⟩, hd⟩
        · simp only [hdigit, hlt, if_true, if_false, Except.error.injEq] at hscan
          subst hscan
          rw [Nat.not_lt] at hlt
          refine ⟨[], c, cs, rfl, by simp, ?_⟩
          rw [List.append_nil]
          exact ⟨h, .size hdigit hlt⟩
      · simp only [hdigit, Bool.false_eq_true, if_false, Except.error.injEq] at hscan
        subst hscan
        rw [Bool.not_eq_true] at hdigit
        refine ⟨[], c, cs, rfl, by simp, ?_⟩
        rw [List.append_nil]
        exact ⟨h, .digit hdigit⟩
    · rintro ⟨before, d, after, hsplit, hbefore, hsmall, hstop⟩
      cases before with
      | nil =>
        obtain ⟨rfl, rfl⟩ := List.cons.inj hsplit
        rw [List.append_nil] at hstop
        cases hstop with
        | digit hdigit => simp [hdigit]
        | size hdigit hlarge => simp [hdigit, Nat.not_lt.mpr hlarge]
      | cons b before =>
        obtain ⟨rfl, rfl⟩ := List.cons.inj hsplit
        obtain ⟨hdigit, hbefore⟩ := List.forall_mem_cons.mp hbefore
        rw [List.append_cons] at hsmall hstop
        have hlt := Nat.lt_of_le_of_lt (decimalValue_le_append (seen ++ [c]) before) hsmall
        simp only [hdigit, hlt, if_true, ih hlt]
        exact ⟨before, d, after, rfl, hbefore, hsmall, hstop⟩

theorem dropPlus_cases (cs : List Char) : cs = dropPlus cs ∨ cs = '+' :: dropPlus cs := by
  unfold dropPlus
  split
  · exact .inr rfl
  · exact .inl rfl

theorem dropPlus_digits (h : ∀ c ∈ cs, isDigit c = true) : dropPlus cs = cs := by
  unfold dropPlus
  split
  · exact absurd (h '+' List.mem_cons_self) (by decide)
  · rfl

theorem denotes_iff : Denotes cs n ↔
    dropPlus cs ≠ [] ∧ (∀ c ∈ dropPlus cs, isDigit c = true) ∧ decimalValue (dropPlus cs) = n := by
  constructor
  · rintro ⟨digits, rfl | rfl, hne, hdigits, hvalue⟩
    · rw [dropPlus_digits hdigits]
      exact ⟨hne, hdigits, hvalue⟩
    · exact ⟨hne, hdigits, hvalue⟩
  · rintro ⟨hne, hdigits, hvalue⟩
    exact ⟨dropPlus cs, dropPlus_cases cs, hne, hdigits, hvalue⟩

theorem readNumeral_eq (limit : Nat) (cs : List Char) :
    readNumeral limit cs =
      if cs = [] then .error .empty
      else if dropPlus cs = [] then .error .invalidDigit
      else scanDigits limit (decimalValue []) (dropPlus cs) := by
  unfold readNumeral
  split
  · rfl
  · split
    · rename_i h
      simp [h]
    · rename_i h
      simp only [reduceCtorEq, if_false, if_neg h]
      rfl

theorem readNumeral_eq_ok_iff (hlimit : 0 < limit) :
    readNumeral limit cs = .ok n ↔ Denotes cs n ∧ n < limit := by
  rw [readNumeral_eq, denotes_iff]
  by_cases hnil : cs = []
  · simp [hnil, dropPlus]
  · by_cases hbare : dropPlus cs = []
    · simp [hnil, hbare]
    · rw [if_neg hnil, if_neg hbare, scanDigits_eq_ok_iff hlimit, List.nil_append, and_assoc,
        and_assoc, and_iff_right hbare]

theorem readNumeral_eq_error_iff (hlimit : 0 < limit) :
    readNumeral limit cs = .error e ↔ FirstFault limit cs e := by
  rw [readNumeral_eq]
  constructor
  · intro h
    split at h
    · rename_i hnil
      cases h
      exact .empty hnil
    · rename_i hnil
      split at h
      · rename_i hbare
        cases h
        rcases dropPlus_cases cs with hcs | hcs
        · exact absurd (hcs.trans hbare) hnil
        · exact .bare (hbare ▸ hcs)
      · obtain ⟨before, c, after, hsplit, hbefore, hsmall, hstop⟩ :=
          (scanDigits_eq_error_iff hlimit).mp h
        exact .stop hsplit hbefore hsmall hstop
  · intro h
    cases h with
    | empty hnil => rw [if_pos hnil]
    | bare hbare =>
      subst hbare
      rfl
    | @stop before after c _ hsplit hbefore hsmall hstop =>
      have hbare : dropPlus cs ≠ [] := by
        rw [hsplit]
        simp
      have hnil : cs ≠ [] := by
        rintro rfl
        exact hbare rfl
      rw [if_neg hnil, if_neg hbare, scanDigits_eq_error_iff hlimit]
      exact ⟨before, c, after, hsplit, hbefore, hsmall, hstop⟩

end Scan

section Trim

variable {n : Nat} {cs before core after : List Char}

theorem takeWhile_append_trimStart (cs : List Char) :
    cs.takeWhile isBlank ++ trimStart cs = cs := List.takeWhile_append_dropWhile

theorem isBlank_of_mem_takeWhile {c : Char} (h : c ∈ cs.takeWhile isBlank) : isBlank c = true :=
  List.all_eq_true.mp List.all_takeWhile c h

theorem exists_trim (cs : List Char) : ∃ before after, cs = before ++ trim cs ++ after ∧
    ∀ c ∈ before ++ after, isBlank c = true := by
  have hstart := takeWhile_append_trimStart cs
  have hend := takeWhile_append_trimStart (trimStart cs).reverse
  refine ⟨cs.takeWhile isBlank, ((trimStart cs).reverse.takeWhile isBlank).reverse, ?_, ?_⟩
  · rw [trim, List.append_assoc, ← List.reverse_append, hend, List.reverse_reverse, hstart]
  · intro c hc
    rcases List.mem_append.mp hc with hc | hc
    · exact isBlank_of_mem_takeWhile hc
    · exact isBlank_of_mem_takeWhile (List.mem_reverse.mp hc)

theorem trimStart_blank_append (h : ∀ c ∈ before, isBlank c = true) (cs : List Char) :
    trimStart (before ++ cs) = trimStart cs := List.dropWhile_append_of_pos h

theorem trimStart_eq_self (h : ∀ c ∈ cs, isBlank c = false) : trimStart cs = cs := by
  cases cs with
  | nil => rfl
  | cons c cs => exact trimStart_cons (h c List.mem_cons_self) cs

theorem trim_surrounded (hcore : ∀ c ∈ core, isBlank c = false)
    (hblank : ∀ c ∈ before ++ after, isBlank c = true) : trim (before ++ core ++ after) = core := by
  obtain ⟨hbefore, hafter⟩ := List.forall_mem_append.mp hblank
  unfold trim
  rw [List.append_assoc, trimStart_blank_append hbefore]
  cases core with
  | nil =>
    rw [List.nil_append, trimStart_blank hafter]
    rfl
  | cons c cs =>
    have hfirst := hcore c List.mem_cons_self
    have hreverse : ∀ d ∈ (c :: cs).reverse, isBlank d = false :=
      fun d hd => hcore d (List.mem_reverse.mp hd)
    have hafter' : ∀ d ∈ after.reverse, isBlank d = true :=
      fun d hd => hafter d (List.mem_reverse.mp hd)
    rw [List.cons_append, trimStart_cons hfirst, ← List.cons_append, List.reverse_append,
      trimStart_blank_append hafter', trimStart_eq_self hreverse, List.reverse_reverse]

theorem Denotes.isBlank_eq_false (h : Denotes cs n) : ∀ c ∈ cs, isBlank c = false := by
  obtain ⟨digits, rfl | rfl, -, hdigits, -⟩ := h
  · exact fun c hc => isBlank_eq_false_of_isDigit (hdigits c hc)
  · exact List.forall_mem_cons.mpr
      ⟨by decide, fun c hc => isBlank_eq_false_of_isDigit (hdigits c hc)⟩

/-- A numeral of that value, with nothing but white space around it. -/
def Spells (s : String) (n : Nat) : Prop :=
  ∃ before numeral after, s.toList = before ++ numeral ++ after ∧
    (∀ c ∈ before ++ after, isBlank c = true) ∧ Denotes numeral n

theorem denotes_trim_iff {s : String} : Denotes (trim s.toList) n ↔ Spells s n := by
  constructor
  · intro h
    obtain ⟨before, after, hsplit, hblank⟩ := exists_trim s.toList
    exact ⟨before, _, after, hsplit, hblank, h⟩
  · rintro ⟨before, numeral, after, hsplit, hblank, h⟩
    rw [hsplit, trim_surrounded h.isBlank_eq_false hblank]
    exact h

end Trim

end ReplicaController.Text

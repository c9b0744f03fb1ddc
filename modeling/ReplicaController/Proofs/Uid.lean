import Mathlib.Algebra.Ring.Nat
import ReplicaController.Uid

/-!
# Unique identifiers and their text

A uid is read back from its text: as many digits as a hundred and twenty-eight bits take hold the
number, and the hyphens between them are found where they were put. The bits that a random uid has
fixed are high ones, so that its number can leave any remainder.
-/

namespace ReplicaController.Uid

theorem length_hexText (count n : Nat) : (hexText count n).length = count := by
  induction count generalizing n with
  | zero => rfl
  | succ count ih => rw [hexText, List.length_append, ih, List.length_singleton]

theorem hexDigit_ne_hyphen : ∀ {n : Nat}, n < 16 → Text.hexDigit n ≠ '-' := by
  decide

theorem ne_hyphen_of_mem_hexText {count n : Nat} {c : Char} (h : c ∈ hexText count n) :
    c ≠ '-' := by
  induction count generalizing n with
  | zero => simp [hexText] at h
  | succ count ih =>
    rcases List.mem_append.mp h with h | h
    · exact ih h
    · rw [List.mem_singleton.mp h]
      exact hexDigit_ne_hyphen (Nat.mod_lt n (by decide))

theorem hexValueOf?_append_hexDigit {cs : List Char} {n d : Nat} (hcs : hexValueOf? cs = some n)
    (hd : d < 16) : hexValueOf? (cs ++ [Text.hexDigit d]) = some (16 * n + d) := by
  unfold hexValueOf? at hcs ⊢
  rw [List.foldlM_append, hcs]
  simp [Text.hexValue?_hexDigit hd]

theorem hexValueOf?_hexText {count n : Nat} (h : n < 16 ^ count) :
    hexValueOf? (hexText count n) = some n := by
  induction count generalizing n with
  | zero =>
    obtain rfl : n = 0 := by simpa using h
    rfl
  | succ count ih =>
    have hdiv : n / 16 < 16 ^ count :=
      Nat.div_lt_of_lt_mul (by rwa [Nat.pow_succ, Nat.mul_comm] at h)
    rw [hexText, hexValueOf?_append_hexDigit (ih hdiv) (Nat.mod_lt n (by decide)),
      Nat.div_add_mod]

theorem ofDigits?_hexText (u : Uid) : ofDigits? (hexText 32 u.bits.toNat) = some u := by
  have hvalue : hexValueOf? (hexText 32 u.bits.toNat) = some u.bits.toNat :=
    hexValueOf?_hexText u.bits.isLt
  simp [ofDigits?, length_hexText, hvalue]

theorem filter_hyphenate {cs : List Char} (h : ∀ c ∈ cs, c ≠ '-') :
    (hyphenate cs).filter (· != '-') = cs := by
  have keep : ∀ n m, ((cs.drop n).take m).filter (· != '-') = (cs.drop n).take m := fun n m =>
    List.filter_eq_self.mpr fun c hc => by
      simpa using h c (List.mem_of_mem_drop (List.mem_of_mem_take hc))
  have keepLast : (cs.drop 20).filter (· != '-') = cs.drop 20 :=
    List.filter_eq_self.mpr fun c hc => by simpa using h c (List.mem_of_mem_drop hc)
  have join : ∀ n m, (cs.drop n).take m ++ cs.drop (n + m) = cs.drop n := fun n m => by
    rw [← List.drop_drop, List.take_append_drop]
  calc (hyphenate cs).filter (· != '-')
      = (cs.drop 0).take 8 ++ ((cs.drop 8).take 4 ++ ((cs.drop 12).take 4 ++
          ((cs.drop 16).take 4 ++ cs.drop 20))) := by
        rw [← keep 0 8, ← keep 8 4, ← keep 12 4, ← keep 16 4, ← keepLast]
        simp [hyphenate]
    _ = cs := by rw [join 16 4, join 12 4, join 8 4, join 0 8, List.drop_zero]

theorem length_hyphenate {cs : List Char} (h : cs.length = 32) : (hyphenate cs).length = 36 := by
  simp [hyphenate, h]

theorem ofText?_text (u : Uid) : ofText? u.text = some u := by
  have hfilter : (hyphenate (hexText 32 u.bits.toNat)).filter (· != '-') =
      hexText 32 u.bits.toNat := filter_hyphenate fun _ => ne_hyphen_of_mem_hexText
  have hlength := length_hyphenate (length_hexText 32 u.bits.toNat)
  simp [ofText?, text, hlength, ofHyphenated?, hfilter, ofDigits?_hexText]

theorem toNat_ofRandom_of_lt {m : Nat} (h : m < 2 ^ 62) :
    (ofRandom (.ofNat 128 m)).bits.toNat = 0x40008000000000000000 + m := by
  have hlow : m &&& (2 ^ 62 - 1) = m := Nat.and_two_pow_sub_one_of_lt_two_pow h
  have hkeep : m &&& 0xFFFFFFFFFFFF0FFF3FFFFFFFFFFFFFFF = m := by
    rw [← hlow, Nat.and_assoc]
    rfl
  have hsize : m % 2 ^ 128 = m := Nat.mod_eq_of_lt (by omega)
  calc (ofRandom (.ofNat 128 m)).bits.toNat
      = (m % 2 ^ 128 &&& 0xFFFFFFFFFFFF0FFF3FFFFFFFFFFFFFFF) ||| 0x40008000000000000000 := rfl
    _ = 2 ^ 62 * 0x10002 ||| m := by
      rw [hsize, hkeep, Nat.or_comm]
      rfl
    _ = 0x40008000000000000000 + m := (Nat.two_pow_add_eq_or_of_lt h 0x10002).symm

theorem exists_toNat_ofRandom_mod {k r : Nat} (hk : k ≤ 2 ^ 62) (hr : r < k) :
    ∃ bits, (ofRandom bits).bits.toNat % k = r := by
  have hfixed : 0x40008000000000000000 % k < k := Nat.mod_lt _ (by omega)
  have hfree : (r + (k - 0x40008000000000000000 % k)) % k < k := Nat.mod_lt _ (by omega)
  refine ⟨.ofNat 128 ((r + (k - 0x40008000000000000000 % k)) % k), ?_⟩
  rw [toNat_ofRandom_of_lt (by omega), Nat.add_mod, Nat.mod_mod, ← Nat.add_mod,
    ← Nat.mod_add_mod]
  have hsum : 0x40008000000000000000 % k + (r + (k - 0x40008000000000000000 % k)) = r + k := by
    omega
  rw [hsum, Nat.add_mod_right, Nat.mod_eq_of_lt hr]

end ReplicaController.Uid

import Mathlib.Tactic.SplitIfs

/-!
# The bytes of a text

Texts are ordered by their characters. In UTF-8 the greater character has the greater bytes,
whatever follows it, so the order of two texts is that of their bytes.
-/

namespace ReplicaController.Text

def bytes (s : String) : List UInt8 := s.toUTF8.data.toList

theorem bytes_eq_flatMap (s : String) : bytes s = s.toList.flatMap String.utf8EncodeChar := by
  unfold bytes
  rw [String.toUTF8_eq_toByteArray, ← String.ofList_toList (s := s), String.toByteArray_ofList,
    List.utf8Encode, List.toList_data_toByteArray, String.toList_ofList]

theorem length_bytes (s : String) : (bytes s).length = s.utf8ByteSize := by
  unfold bytes
  rw [String.toUTF8_eq_toByteArray, Array.length_toList]
  exact String.size_toByteArray

theorem utf8ByteSize_eq_length {s : String} (h : ∀ c ∈ s.toList, c.utf8Size = 1) :
    s.utf8ByteSize = s.toList.length := by
  have hsizes : s.toList.map (fun c => (String.utf8EncodeChar c).length) =
      List.replicate s.toList.length 1 :=
    List.map_eq_replicate_iff.mpr fun c hc => (String.length_utf8EncodeChar c).trans (h c hc)
  rw [← length_bytes, bytes_eq_flatMap, List.length_flatMap, hsizes, List.sum_replicate_nat,
    Nat.mul_one]

theorem utf8EncodeChar_append_lt {c d : Char} (h : c < d) (xs ys : List UInt8) :
    String.utf8EncodeChar c ++ xs < String.utf8EncodeChar d ++ ys := by
  have hlt : c.val.toNat < d.val.toNat := h
  have hd : d.val.toNat < 0x110000 := by
    have hvalid := d.valid
    simp only [UInt32.isValidChar, Nat.isValidChar] at hvalid
    omega
  rw [String.utf8EncodeChar.eq_1, String.utf8EncodeChar.eq_1]
  generalize c.val.toNat = m at hlt
  generalize d.val.toNat = n at hlt hd
  -- The lead byte of the longer of two characters is greater; the bytes of two that are equally
  -- long are their digits of base 64.
  split_ifs <;>
    simp (disch := omega) only [List.cons_append, List.nil_append, List.cons_lt_cons_iff,
      UInt8.lt_iff_toNat_lt, ← UInt8.toNat_inj, UInt8.toNat_ofNat', Nat.mod_eq_of_lt] <;>
    omega

theorem flatMap_utf8EncodeChar_lt {cs ds : List Char} (h : cs < ds) :
    cs.flatMap String.utf8EncodeChar < ds.flatMap String.utf8EncodeChar := by
  induction cs generalizing ds with
  | nil =>
    cases ds with
    | nil => exact absurd h (List.not_lt_nil _)
    | cons d ds =>
      have hpos : 0 < (String.utf8EncodeChar d).length :=
        String.length_utf8EncodeChar d ▸ d.utf8Size_pos
      rw [List.flatMap_cons]
      obtain ⟨b, bs, hbytes⟩ := List.exists_cons_of_length_pos hpos
      rw [hbytes]
      exact List.nil_lt_cons ..
  | cons c cs ih =>
    cases ds with
    | nil => exact absurd h (List.not_lt_nil _)
    | cons d ds =>
      rw [List.flatMap_cons, List.flatMap_cons]
      rcases List.cons_lt_cons_iff.mp h with hcd | ⟨rfl, hcs⟩
      · exact utf8EncodeChar_append_lt hcd _ _
      · exact List.append_left_lt (ih hcs)

theorem bytes_lt_of_lt {s t : String} (h : s < t) : bytes s < bytes t := by
  rw [bytes_eq_flatMap, bytes_eq_flatMap]
  exact flatMap_utf8EncodeChar_lt (String.lt_iff.mp h)

theorem lt_iff_bytes_lt {s t : String} : s < t ↔ bytes s < bytes t := by
  refine ⟨bytes_lt_of_lt, fun h => ?_⟩
  apply Decidable.byContradiction
  intro hnot
  by_cases hts : t < s
  · exact List.lt_asymm h (bytes_lt_of_lt hts)
  · obtain rfl := String.le_antisymm (String.not_lt.mp hts) (String.not_lt.mp hnot)
    exact List.lt_irrefl _ h

theorem compare_eq_lt_iff {s t : String} : compare s t = .lt ↔ s < t := by
  change compareOfLessAndEq s t = .lt ↔ s < t
  unfold compareOfLessAndEq
  split_ifs <;> simp_all

end ReplicaController.Text

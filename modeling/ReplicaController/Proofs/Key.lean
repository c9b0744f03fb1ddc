import Mathlib.Data.Set.Function
import ReplicaController.Key
import ReplicaController.Proofs.Text.Bytes

/-!
# Keys and their text

A key is readable if its text reads back as the key itself: its namespace has no slash and is not
empty, and neither is its name. A text reads as a key just if it is the text of a readable key,
which is to say that there is something on both sides of its first slash. Only a slash in a
namespace lets two keys share a text.
-/

namespace ReplicaController.Key

structure Readable (k : Key) : Prop where
  ns_ne_empty : k.ns ≠ ""
  slash_notMem : '/' ∉ k.ns.toList
  name_ne_empty : k.name ≠ ""

instance (k : Key) : Decidable k.Readable :=
  decidable_of_iff (k.ns ≠ "" ∧ '/' ∉ k.ns.toList ∧ k.name ≠ "")
    ⟨fun ⟨hns, hslash, hname⟩ => ⟨hns, hslash, hname⟩,
      fun h => ⟨h.ns_ne_empty, h.slash_notMem, h.name_ne_empty⟩⟩

theorem compare_eq_lt_iff {k l : Key} :
    compare k l = .lt ↔ k.ns < l.ns ∨ k.ns = l.ns ∧ k.name < l.name := by
  rw [compare_eq_then, Ordering.then_eq_lt, Std.compare_eq_iff_eq, Text.compare_eq_lt_iff,
    Text.compare_eq_lt_iff]

theorem toList_text (k : Key) : k.text.toList = k.ns.toList ++ '/' :: k.name.toList := by
  simp [text]

theorem cutOnce_text {k : Key} (h : '/' ∉ k.ns.toList) :
    Text.cutOnce '/' k.text.toList = some (k.ns.toList, k.name.toList) := by
  rw [toList_text, Text.cutOnce_append _ h]

theorem parse_text {k : Key} (h : k.Readable) : parse k.text = .ok k := by
  have hns : k.ns.toList.isEmpty = false := by simpa using h.ns_ne_empty
  have hname : k.name.toList.isEmpty = false := by simpa using h.name_ne_empty
  unfold parse
  rw [cutOnce_text h.slash_notMem]
  simp only [hns, hname, Bool.or_self, Bool.false_eq_true, if_false, String.ofList_toList]

theorem readable_of_parse {s : String} {k : Key} (h : parse s = .ok k) :
    k.Readable ∧ k.text = s := by
  unfold parse at h
  split at h
  · rename_i ns name hcut
    obtain ⟨hs, hslash⟩ := Text.cutOnce_eq_some_iff.mp hcut
    split at h
    · contradiction
    · rename_i hne
      cases h
      rw [Bool.or_eq_true, not_or] at hne
      refine ⟨⟨by simpa using hne.1, by simpa using hslash, by simpa using hne.2⟩, ?_⟩
      apply String.toList_inj.mp
      rw [toList_text, String.toList_ofList, String.toList_ofList, hs]
  · contradiction

theorem parse_eq_ok_iff {s : String} {k : Key} : parse s = .ok k ↔ k.Readable ∧ k.text = s :=
  ⟨readable_of_parse, fun ⟨h, hs⟩ => hs ▸ parse_text h⟩

theorem text_injOn : Set.InjOn text {k | '/' ∉ k.ns.toList} := by
  intro k hk l hl h
  have hcut := cutOnce_text hk
  rw [h, cutOnce_text hl, Option.some.injEq, Prod.mk.injEq, String.toList_inj,
    String.toList_inj] at hcut
  cases k
  cases l
  simp_all

theorem eq_of_text {k l : Key} (hk : k.Readable) (hl : l.Readable) (h : k.text = l.text) :
    k = l :=
  text_injOn hk.slash_notMem hl.slash_notMem h

theorem exists_map_text {texts : List String}
    (h : ∀ text ∈ texts, ∃ k : Key, k.Readable ∧ k.text = text) :
    ∃ keys : List Key, (∀ k ∈ keys, k.Readable) ∧ keys.map text = texts := by
  induction texts with
  | nil => exact ⟨[], fun _ hk => (nomatch hk), rfl⟩
  | cons t texts ih =>
    obtain ⟨⟨k, hk, rfl⟩, htexts⟩ := List.forall_mem_cons.mp h
    obtain ⟨keys, hkeys, rfl⟩ := ih htexts
    exact ⟨k :: keys, List.forall_mem_cons.mpr ⟨hk, hkeys⟩, rfl⟩

/-- The text has a slash, and something on both sides of the first one. -/
def Splits (s : String) : Prop :=
  ∃ before after, s.toList = before ++ '/' :: after ∧ '/' ∉ before ∧ before ≠ [] ∧ after ≠ []

theorem splits_text {k : Key} (h : k.Readable) : Splits k.text := by
  refine ⟨k.ns.toList, k.name.toList, toList_text k, h.slash_notMem, ?_, ?_⟩
  · simpa using h.ns_ne_empty
  · simpa using h.name_ne_empty

theorem exists_text_of_splits {s : String} (h : Splits s) : ∃ k : Key, k.Readable ∧ k.text = s := by
  obtain ⟨before, after, hs, hslash, hbefore, hafter⟩ := h
  refine ⟨⟨String.ofList before, String.ofList after⟩, ⟨?_, ?_, ?_⟩, ?_⟩
  · simpa using hbefore
  · simpa using hslash
  · simpa using hafter
  · apply String.toList_inj.mp
    rw [toList_text, String.toList_ofList, String.toList_ofList, hs]

theorem exists_parse_iff {s : String} : (∃ k, parse s = .ok k) ↔ Splits s := by
  constructor
  · rintro ⟨k, hk⟩
    obtain ⟨hreadable, rfl⟩ := readable_of_parse hk
    exact splits_text hreadable
  · intro h
    obtain ⟨k, hreadable, rfl⟩ := exists_text_of_splits h
    exact ⟨k, parse_text hreadable⟩

theorem parse_eq_error {s : String} {e : ParseError} (h : parse s = .error e) : e = ⟨s⟩ := by
  unfold parse at h
  split at h
  · split at h
    · exact (Except.error.inj h).symm
    · contradiction
  · exact (Except.error.inj h).symm

theorem parse_eq_error_iff {s : String} {e : ParseError} :
    parse s = .error e ↔ ¬ Splits s ∧ e = ⟨s⟩ := by
  rw [← exists_parse_iff]
  constructor
  · intro h
    refine ⟨?_, parse_eq_error h⟩
    rintro ⟨k, hk⟩
    rw [hk] at h
    contradiction
  · rintro ⟨hnone, rfl⟩
    cases hparse : parse s with
    | ok k => exact absurd ⟨k, hparse⟩ hnone
    | error e => rw [parse_eq_error hparse]

/-- Which keys survive being written, which texts are read, and which keys have a text of their
own. -/
theorem text_roundTrips :
    (∀ k : Key, parse k.text = .ok k ↔ k.ns ≠ "" ∧ '/' ∉ k.ns.toList ∧ k.name ≠ "") ∧
      (∀ s : String, (∃ k, parse s = .ok k) ↔ Splits s) ∧
      (∀ (s : String) (k : Key), parse s = .ok k ↔ k.Readable ∧ k.text = s) ∧
      (∀ (s : String) (e : ParseError), parse s = .error e ↔ ¬ Splits s ∧ e = ⟨s⟩) ∧
      Set.InjOn text {k | '/' ∉ k.ns.toList} := by
  refine ⟨fun k => ?_, fun s => exists_parse_iff, fun s k => parse_eq_ok_iff,
    fun s e => parse_eq_error_iff, text_injOn⟩
  rw [parse_eq_ok_iff, and_iff_left rfl]
  exact ⟨fun h => ⟨h.ns_ne_empty, h.slash_notMem, h.name_ne_empty⟩,
    fun ⟨hns, hslash, hname⟩ => ⟨hns, hslash, hname⟩⟩

/-- With a slash in a namespace, two keys share a text. -/
example : text ⟨"a/b", "web"⟩ = text ⟨"a", "b/web"⟩ := rfl

end ReplicaController.Key

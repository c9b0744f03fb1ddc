import ReplicaController.Labels.Selector
import ReplicaController.Proofs.Text.Bytes
import ReplicaController.Proofs.Text.Numeral

/-!
# The grammar of selectors

A selector is proper if it has a label or an expression, all its keys are proper, and its
expressions have known operators with as many values as those ask for. Parsing accepts just the
proper selectors, and refuses every other one for its first fault: labels stand before expressions,
a label before another by the bytes of its key, and in an expression the key before the operator
and the operator before the values.
-/

namespace ReplicaController

section AllOk

variable {α β ε : Type} {f : α → Except ε β} {as : List α} {e : ε}

theorem exists_allOk_iff : (∃ bs, allOk f as = .ok bs) ↔ ∀ a ∈ as, ∃ b, f a = .ok b := by
  induction as with
  | nil => simp [allOk]
  | cons a as ih =>
    rw [List.forall_mem_cons, ← ih, allOk]
    cases f a with
    | error e => simp
    | ok b => cases allOk f as <;> simp

theorem forall_mem_allOk_iff {bs : List β} (h : allOk f as = .ok bs) {P : β → Prop} :
    (∀ b ∈ bs, P b) ↔ ∀ a ∈ as, ∃ b, f a = .ok b ∧ P b := by
  induction as generalizing bs with
  | nil =>
    cases h
    simp
  | cons a as ih =>
    rw [allOk] at h
    cases ha : f a with
    | error e => simp [ha] at h
    | ok b =>
      cases has : allOk f as with
      | error e => simp [ha, has] at h
      | ok bs' =>
        rw [ha, has] at h
        cases h
        rw [List.forall_mem_cons, List.forall_mem_cons, ih has]
        simp [ha]

theorem allOk_eq_error_iff : allOk f as = .error e ↔
    ∃ before a after, as = before ++ a :: after ∧ (∀ x ∈ before, ∃ b, f x = .ok b) ∧
      f a = .error e := by
  constructor
  · intro h
    induction as with
    | nil => simp [allOk] at h
    | cons a as ih =>
      rw [allOk] at h
      cases ha : f a with
      | error e' =>
        rw [ha] at h
        cases h
        exact ⟨[], a, as, rfl, fun _ hx => (nomatch hx), ha⟩
      | ok b =>
        cases has : allOk f as with
        | ok bs => simp [ha, has] at h
        | error e' =>
          rw [ha, has] at h
          cases h
          obtain ⟨before, a', after, rfl, hbefore, ha'⟩ := ih has
          exact ⟨a :: before, a', after, rfl, List.forall_mem_cons.mpr ⟨⟨b, ha⟩, hbefore⟩, ha'⟩
  · rintro ⟨before, a, after, rfl, hbefore, ha⟩
    induction before with
    | nil => simp [allOk, ha]
    | cons x before ih =>
      obtain ⟨⟨b, hb⟩, hbefore⟩ := List.forall_mem_cons.mp hbefore
      simp [allOk, hb, ih hbefore]

end AllOk

namespace LabelKey

/-- A name of 1 to 63 bytes, all of them letters, digits or marks, with a letter or digit at either
end. -/
structure ProperName (name : String) : Prop where
  one_le : 1 ≤ name.utf8ByteSize
  le_max : name.utf8ByteSize ≤ 63
  chars : ∀ c ∈ name.toList, c.isAlphanum = true ∨ c = '-' ∨ c = '_' ∨ c = '.'
  first : ∃ c cs, name.toList = c :: cs ∧ c.isAlphanum = true
  last : ∃ cs c, name.toList = cs ++ [c] ∧ c.isAlphanum = true

/-- A proper name, alone or behind a domain that ends at the first slash. -/
inductive Proper : String → Prop
  | alone {name : String} : ProperName name → Proper name
  | behind {domain name : String} : domain ≠ "" → '/' ∉ domain.toList → ProperName name →
      Proper (domain ++ "/" ++ name)

theorem isAlphanumeric_iff {c : Char} : isAlphanumeric c = true ↔ c.isAlphanum = true := by
  have hdigit : Text.isDigit c = c.isDigit := Bool.eq_iff_iff.mpr Text.isDigit_iff
  have hlower : ('a' ≤ c && c ≤ 'z') = c.isLower := rfl
  have hupper : ('A' ≤ c && c ≤ 'Z') = c.isUpper := (Bool.decide_and ..).symm
  change (Text.isDigit c || ('a' ≤ c && c ≤ 'z') || ('A' ≤ c && c ≤ 'Z')) = true ↔
    (c.isUpper || c.isLower || c.isDigit) = true
  rw [hdigit, hlower, hupper]
  cases c.isDigit <;> cases c.isLower <;> cases c.isUpper <;> rfl

theorem isNameChar_iff {c : Char} :
    isNameChar c = true ↔ c.isAlphanum = true ∨ c = '-' ∨ c = '_' ∨ c = '.' := by
  simp only [isNameChar, Bool.or_eq_true, isAlphanumeric_iff, beq_iff_eq, or_assoc]

theorem val_le_of_isAlphanum {c : Char} (h : c.isAlphanum = true) : c.val ≤ 127 := by
  rw [← isAlphanumeric_iff] at h
  simp only [isAlphanumeric, Text.isDigit, Bool.or_eq_true, Bool.and_eq_true,
    decide_eq_true_eq] at h
  rcases h with (h | h) | h
  all_goals exact UInt32.le_trans h.2 (by decide)

theorem utf8Size_of_isNameChar {c : Char} (h : isNameChar c = true) : c.utf8Size = 1 := by
  rcases isNameChar_iff.mp h with h | rfl | rfl | rfl
  · exact Char.utf8Size_eq_one_iff.mpr (val_le_of_isAlphanum h)
  all_goals rfl

theorem isName_iff {name : String} : isName name.toList = true ↔ ProperName name := by
  -- Characters are counted, but those of a name have one byte each.
  have hsize (h : ∀ c ∈ name.toList, isNameChar c = true) :
      name.utf8ByteSize = name.toList.length :=
    Text.utf8ByteSize_eq_length fun c hc => utf8Size_of_isNameChar (h c hc)
  have hfirst : name.toList.head?.any isAlphanumeric = true ↔
      ∃ c cs, name.toList = c :: cs ∧ c.isAlphanum = true := by
    cases name.toList with
    | nil => simp
    | cons c cs => simp [isAlphanumeric_iff]
  have hlast : name.toList.getLast?.any isAlphanumeric = true ↔
      ∃ cs c, name.toList = cs ++ [c] ∧ c.isAlphanum = true := by
    rw [Option.any_eq_true]
    constructor
    · rintro ⟨c, hc, hclass⟩
      obtain ⟨cs, hcs⟩ := List.getLast?_eq_some_iff.mp hc
      exact ⟨cs, c, hcs, isAlphanumeric_iff.mp hclass⟩
    · rintro ⟨cs, c, hcs, hclass⟩
      exact ⟨c, List.getLast?_eq_some_iff.mpr ⟨cs, hcs⟩, isAlphanumeric_iff.mpr hclass⟩
  simp only [isName, Bool.and_eq_true, List.all_eq_true, decide_eq_true_eq, hfirst, hlast]
  constructor
  · rintro ⟨⟨⟨hchars, c, cs, hcs, hc⟩, hl⟩, hmax⟩
    refine ⟨?_, ?_, fun c hc => isNameChar_iff.mp (hchars c hc), ⟨c, cs, hcs, hc⟩, hl⟩
    · rw [hsize hchars, hcs, List.length_cons]
      omega
    · rw [hsize hchars]
      exact hmax
  · intro h
    have hchars : ∀ c ∈ name.toList, isNameChar c = true :=
      fun c hc => isNameChar_iff.mpr (h.chars c hc)
    exact ⟨⟨⟨hchars, h.first⟩, h.last⟩, hsize hchars ▸ h.le_max⟩

theorem slash_notMem {name : String} (h : ProperName name) : '/' ∉ name.toList := by
  intro hm
  have hc := h.chars '/' hm
  revert hc
  decide

theorem isValid_iff {key : String} : isValid key = true ↔ Proper key := by
  unfold isValid
  constructor
  · intro h
    split at h
    · rename_i domain name hcut
      obtain ⟨hkey, hslash⟩ := Text.cutOnce_eq_some_iff.mp hcut
      rw [Bool.and_eq_true] at h
      have hdomain : String.ofList domain ≠ "" := by simpa using h.1
      have hname : ProperName (String.ofList name) := isName_iff.mp (by simpa using h.2)
      have heq : key = String.ofList domain ++ "/" ++ String.ofList name := by
        apply String.toList_inj.mp
        simp [hkey]
      rw [heq]
      exact .behind hdomain (by simpa using hslash) hname
    · exact .alone (isName_iff.mp h)
  · intro h
    cases h with
    | alone h =>
      rw [Text.cutOnce_eq_none_iff.mpr (slash_notMem h)]
      exact isName_iff.mpr h
    | @behind domain name hdomain hslash h =>
      have hcut : Text.cutOnce '/' (domain ++ "/" ++ name).toList =
          some (domain.toList, name.toList) :=
        Text.cutOnce_eq_some_iff.mpr ⟨by simp, hslash⟩
      rw [hcut]
      simp [hdomain, isName_iff.mpr h]

end LabelKey

namespace Expression

structure Proper (e : Expression) : Prop where
  key : LabelKey.Proper e.key
  operator : e.operator ∈ ["In", "NotIn", "Exists", "DoesNotExist"]
  values : e.operator ∈ ["In", "NotIn"] → e.values ≠ []
  no_values : e.operator ∈ ["Exists", "DoesNotExist"] → e.values = []

/-- What is wrong first in an expression. -/
inductive FirstFault (e : Expression) : SelectorError → Prop
  | key : ¬ LabelKey.Proper e.key → FirstFault e (.invalidKey e.key)
  | operator : LabelKey.Proper e.key →
      e.operator ∉ ["In", "NotIn", "Exists", "DoesNotExist"] →
      FirstFault e (.unknownOperator e.key e.operator)
  | missing {op : Operator} : LabelKey.Proper e.key → op.text = e.operator →
      e.operator ∈ ["In", "NotIn"] → e.values = [] → FirstFault e (.missingValues e.key op)
  | unexpected {op : Operator} : LabelKey.Proper e.key → op.text = e.operator →
      e.operator ∈ ["Exists", "DoesNotExist"] → e.values ≠ [] →
      FirstFault e (.unexpectedValues e.key op)

end Expression

namespace Operator

theorem ofText?_eq_some_iff {s : String} {op : Operator} : ofText? s = some op ↔ op.text = s := by
  constructor
  · intro h
    unfold ofText? at h
    split at h <;> cases h <;> rfl
  · rintro rfl
    cases op <;> rfl

theorem exists_text_iff {s : String} :
    (∃ op : Operator, op.text = s) ↔ s ∈ ["In", "NotIn", "Exists", "DoesNotExist"] := by
  constructor
  · rintro ⟨op, rfl⟩
    cases op <;> decide
  · intro h
    simp only [List.mem_cons, List.not_mem_nil, or_false] at h
    rcases h with rfl | rfl | rfl | rfl
    · exact ⟨.isIn, rfl⟩
    · exact ⟨.notIn, rfl⟩
    · exact ⟨.present, rfl⟩
    · exact ⟨.absent, rfl⟩

theorem takesValues_iff {op : Operator} :
    op.takesValues = true ↔ op.text ∈ ["In", "NotIn"] := by
  cases op <;> decide

theorem takesValues_eq_false_iff {op : Operator} :
    op.takesValues = false ↔ op.text ∈ ["Exists", "DoesNotExist"] := by
  cases op <;> decide

end Operator

theorem Expression.proper_or_firstFault (e : Expression) :
    e.Proper ∨ ∃ err, e.FirstFault err := by
  by_cases hkey : LabelKey.Proper e.key
  · by_cases hknown : e.operator ∈ ["In", "NotIn", "Exists", "DoesNotExist"]
    · obtain ⟨op, htext⟩ := Operator.exists_text_iff.mpr hknown
      by_cases hvalues : e.values = []
      · by_cases htakes : e.operator ∈ ["In", "NotIn"]
        · exact .inr ⟨_, .missing hkey htext htakes hvalues⟩
        · exact .inl ⟨hkey, hknown, fun h => absurd h htakes, fun _ => hvalues⟩
      · by_cases hrefuses : e.operator ∈ ["Exists", "DoesNotExist"]
        · exact .inr ⟨_, .unexpected hkey htext hrefuses hvalues⟩
        · exact .inl ⟨hkey, hknown, fun _ => hvalues, fun h => absurd h hrefuses⟩
    · exact .inr ⟨_, .operator hkey hknown⟩
  · exact .inr ⟨_, .key hkey⟩

namespace Requirement

theorem exists_ofLabel_iff {key value : String} :
    (∃ r, ofLabel key value = .ok r) ↔ LabelKey.Proper key := by
  unfold ofLabel
  rw [← LabelKey.isValid_iff]
  split <;> simp [*]

theorem ofLabel_eq_error_iff {key value : String} {err : SelectorError} :
    ofLabel key value = .error err ↔ ¬ LabelKey.Proper key ∧ err = .invalidKey key := by
  unfold ofLabel
  rw [← LabelKey.isValid_iff]
  split <;> simp [*, eq_comm]

variable {e : Expression} {err : SelectorError}

theorem ofExpression_of_proper (h : e.Proper) {op : Operator} (htext : op.text = e.operator) :
    ofExpression e = .ok ⟨e.key, op, .ofTexts e.values⟩ := by
  unfold ofExpression
  rw [if_pos (LabelKey.isValid_iff.mpr h.key), Operator.ofText?_eq_some_iff.mpr htext]
  cases htakes : op.takesValues with
  | true =>
    have hvalues := h.values (htext ▸ Operator.takesValues_iff.mp htakes)
    simp [htakes, hvalues]
  | false =>
    have hvalues := h.no_values (htext ▸ Operator.takesValues_eq_false_iff.mp htakes)
    simp [htakes, hvalues]

theorem ofExpression_of_firstFault (h : e.FirstFault err) : ofExpression e = .error err := by
  unfold ofExpression
  cases h with
  | key hkey => rw [if_neg fun hvalid => hkey (LabelKey.isValid_iff.mp hvalid)]
  | operator hkey hunknown =>
    have hop : Operator.ofText? e.operator = none := by
      apply Option.eq_none_iff_forall_ne_some.mpr
      intro op hop
      exact hunknown (Operator.exists_text_iff.mp ⟨op, Operator.ofText?_eq_some_iff.mp hop⟩)
    rw [if_pos (LabelKey.isValid_iff.mpr hkey), hop]
  | missing hkey htext htakes hvalues =>
    rw [if_pos (LabelKey.isValid_iff.mpr hkey), Operator.ofText?_eq_some_iff.mpr htext]
    simp [Operator.takesValues_iff.mpr (htext ▸ htakes), hvalues]
  | unexpected hkey htext hrefuses hvalues =>
    rw [if_pos (LabelKey.isValid_iff.mpr hkey), Operator.ofText?_eq_some_iff.mpr htext]
    simp [Operator.takesValues_eq_false_iff.mpr (htext ▸ hrefuses), hvalues]

theorem exists_ofExpression_iff : (∃ r, ofExpression e = .ok r) ↔ e.Proper := by
  constructor
  · rintro ⟨r, hr⟩
    rcases e.proper_or_firstFault with h | ⟨err, h⟩
    · exact h
    · rw [ofExpression_of_firstFault h] at hr
      contradiction
  · intro h
    obtain ⟨op, htext⟩ := Operator.exists_text_iff.mpr h.operator
    exact ⟨_, ofExpression_of_proper h htext⟩

theorem ofExpression_eq_error_iff : ofExpression e = .error err ↔ e.FirstFault err := by
  refine ⟨fun herr => ?_, ofExpression_of_firstFault⟩
  rcases e.proper_or_firstFault with h | ⟨err', h⟩
  · obtain ⟨r, hr⟩ := exists_ofExpression_iff.mpr h
    rw [hr] at herr
    contradiction
  · rw [ofExpression_of_firstFault h] at herr
    cases herr
    exact h

end Requirement

namespace LabelSelector

structure Proper (s : LabelSelector) : Prop where
  nonempty : s.matchLabels.keys ≠ [] ∨ s.matchExpressions ≠ []
  labels : ∀ key ∈ s.matchLabels.keys, LabelKey.Proper key
  expressions : ∀ e ∈ s.matchExpressions, e.Proper

/-- What is wrong first in a selector. -/
inductive FirstFault (s : LabelSelector) : SelectorError → Prop
  | empty : s.matchLabels.keys = [] → s.matchExpressions = [] → FirstFault s .empty
  | label {key : String} : key ∈ s.matchLabels.keys → ¬ LabelKey.Proper key →
      (∀ k ∈ s.matchLabels.keys, Text.bytes k < Text.bytes key → LabelKey.Proper k) →
      FirstFault s (.invalidKey key)
  | expression {before after : List Expression} {e : Expression} {err : SelectorError} :
      (∀ key ∈ s.matchLabels.keys, LabelKey.Proper key) →
      s.matchExpressions = before ++ e :: after → (∀ x ∈ before, x.Proper) → e.FirstFault err →
      FirstFault s err

variable {s : LabelSelector} {err : SelectorError}

/-- The labels are checked in the order of their keys, which is that of the bytes. -/
theorem labels_eq_error_iff :
    allOk (fun e => Requirement.ofLabel e.1 e.2) s.matchLabels.entries = .error err ↔
      ∃ key ∈ s.matchLabels.keys, ¬ LabelKey.Proper key ∧
        (∀ k ∈ s.matchLabels.keys, Text.bytes k < Text.bytes key → LabelKey.Proper k) ∧
        err = .invalidKey key := by
  have rising := s.matchLabels.rising
  unfold SortedMap.keys
  generalize s.matchLabels.entries = es at rising
  simp only [Text.compare_eq_lt_iff, Text.lt_iff_bytes_lt] at rising
  simp only [allOk_eq_error_iff, Requirement.exists_ofLabel_iff, Requirement.ofLabel_eq_error_iff]
  constructor
  · rintro ⟨before, a, after, rfl, hbefore, hkey, rfl⟩
    refine ⟨a.1, by simp, hkey, fun k hk hlt => ?_, rfl⟩
    obtain ⟨x, hx, rfl⟩ := List.mem_map.mp hk
    obtain ⟨-, hafter, -⟩ := List.pairwise_append.mp rising
    rcases List.mem_append.mp hx with hx | hx
    · exact hbefore x hx
    · rcases List.mem_cons.mp hx with rfl | hx
      · exact absurd hlt (List.lt_irrefl _)
      · exact absurd hlt (List.lt_asymm ((List.pairwise_cons.mp hafter).1 x hx))
  · rintro ⟨key, hmem, hkey, hbefore, rfl⟩
    obtain ⟨a, ha, rfl⟩ := List.mem_map.mp hmem
    obtain ⟨before, after, rfl⟩ := List.append_of_mem ha
    refine ⟨before, a, after, rfl, fun x hx => ?_, hkey, rfl⟩
    have hlt := (List.pairwise_append.mp rising).2.2 x hx a List.mem_cons_self
    exact hbefore x.1 (List.mem_map_of_mem (List.mem_append_left _ hx)) hlt

theorem labels_isOk_iff :
    (∃ rs, allOk (fun e => Requirement.ofLabel e.1 e.2) s.matchLabels.entries = .ok rs) ↔
      ∀ key ∈ s.matchLabels.keys, LabelKey.Proper key := by
  simp only [exists_allOk_iff, Requirement.exists_ofLabel_iff, SortedMap.keys, List.forall_mem_map]

theorem expressions_isOk_iff :
    (∃ rs, allOk Requirement.ofExpression s.matchExpressions = .ok rs) ↔
      ∀ e ∈ s.matchExpressions, e.Proper := by
  simp only [exists_allOk_iff, Requirement.exists_ofExpression_iff]

theorem expressions_eq_error_iff :
    allOk Requirement.ofExpression s.matchExpressions = .error err ↔
      ∃ before e after, s.matchExpressions = before ++ e :: after ∧ (∀ x ∈ before, x.Proper) ∧
        e.FirstFault err := by
  simp only [allOk_eq_error_iff, Requirement.exists_ofExpression_iff,
    Requirement.ofExpression_eq_error_iff]

theorem isEmpty_iff : (s.matchLabels.isEmpty && s.matchExpressions.isEmpty) = true ↔
    s.matchLabels.keys = [] ∧ s.matchExpressions = [] := by
  simp [SortedMap.isEmpty, SortedMap.keys]

theorem parse_eq_ok_iff {selector : Selector} : s.parse = .ok selector ↔
    (s.matchLabels.keys ≠ [] ∨ s.matchExpressions ≠ []) ∧
    ∃ rs es, allOk (fun e => Requirement.ofLabel e.1 e.2) s.matchLabels.entries = .ok rs ∧
      allOk Requirement.ofExpression s.matchExpressions = .ok es ∧ selector = ⟨rs ++ es⟩ := by
  rw [← not_and_or, ← isEmpty_iff]
  unfold parse
  by_cases hempty : (s.matchLabels.isEmpty && s.matchExpressions.isEmpty) = true
  · simp [hempty]
  · rw [if_neg hempty]
    cases allOk (fun e => Requirement.ofLabel e.1 e.2) s.matchLabels.entries with
    | error e => simp
    | ok rs =>
      cases allOk Requirement.ofExpression s.matchExpressions with
      | error e => simp
      | ok es => simpa [hempty] using eq_comm

theorem exists_parse_iff : (∃ selector, s.parse = .ok selector) ↔ s.Proper := by
  simp only [parse_eq_ok_iff]
  constructor
  · rintro ⟨-, hnonempty, rs, es, hrs, hes, -⟩
    exact ⟨hnonempty, labels_isOk_iff.mp ⟨rs, hrs⟩, expressions_isOk_iff.mp ⟨es, hes⟩⟩
  · intro h
    obtain ⟨rs, hrs⟩ := labels_isOk_iff.mpr h.labels
    obtain ⟨es, hes⟩ := expressions_isOk_iff.mpr h.expressions
    exact ⟨_, h.nonempty, rs, es, hrs, hes, rfl⟩

theorem parse_eq_error_iff : s.parse = .error err ↔ s.FirstFault err := by
  unfold parse
  constructor
  · intro h
    by_cases hempty : (s.matchLabels.isEmpty && s.matchExpressions.isEmpty) = true
    · rw [if_pos hempty] at h
      cases h
      exact .empty (isEmpty_iff.mp hempty).1 (isEmpty_iff.mp hempty).2
    · rw [if_neg hempty] at h
      cases hrs : allOk (fun e => Requirement.ofLabel e.1 e.2) s.matchLabels.entries with
      | error e =>
        rw [hrs] at h
        cases h
        obtain ⟨key, hmem, hkey, hbefore, rfl⟩ := labels_eq_error_iff.mp hrs
        exact .label hmem hkey hbefore
      | ok rs =>
        cases hes : allOk Requirement.ofExpression s.matchExpressions with
        | error e =>
          rw [hrs, hes] at h
          cases h
          obtain ⟨before, e, after, hsplit, hbefore, hfault⟩ := expressions_eq_error_iff.mp hes
          exact .expression (labels_isOk_iff.mp ⟨rs, hrs⟩) hsplit hbefore hfault
        | ok es =>
          rw [hrs, hes] at h
          cases h
  · intro h
    cases h with
    | empty hlabels hexpressions => rw [if_pos (isEmpty_iff.mpr ⟨hlabels, hexpressions⟩)]
    | label hmem hkey hbefore =>
      have hnonempty : ¬ (s.matchLabels.isEmpty && s.matchExpressions.isEmpty) = true :=
        fun hempty => List.ne_nil_of_mem hmem (isEmpty_iff.mp hempty).1
      rw [if_neg hnonempty, labels_eq_error_iff.mpr ⟨_, hmem, hkey, hbefore, rfl⟩]
    | expression hlabels hsplit hbefore hfault =>
      have hnonempty : ¬ (s.matchLabels.isEmpty && s.matchExpressions.isEmpty) = true := by
        intro hempty
        rw [(isEmpty_iff.mp hempty).2] at hsplit
        exact absurd hsplit.symm (by simp)
      obtain ⟨rs, hrs⟩ := labels_isOk_iff.mpr hlabels
      rw [if_neg hnonempty, hrs, expressions_eq_error_iff.mpr ⟨_, _, _, hsplit, hbefore, hfault⟩]

/-- Parsing accepts just the proper selectors, and refuses the others for their first fault. -/
theorem parse_exact (s : LabelSelector) :
    ((∃ selector, s.parse = .ok selector) ↔ s.Proper) ∧
      ∀ err, s.parse = .error err ↔ s.FirstFault err :=
  ⟨exists_parse_iff, fun _ => parse_eq_error_iff⟩

end LabelSelector

end ReplicaController

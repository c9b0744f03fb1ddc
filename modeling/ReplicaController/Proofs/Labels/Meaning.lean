import ReplicaController.Proofs.Labels.Grammar
import ReplicaController.Proofs.SortedMap
import ReplicaController.Stamp

/-!
# What a selector selects

A stored selector holds of labels if each of its own labels is among them and each of its
expressions holds of them. A selector that parses selects just the labels that it holds of, so
neither the order of its expressions and values nor their repetition tells, and more expressions
never select more.
-/

namespace ReplicaController

/-- The operator holds of a label that has that value, if any. -/
def Operator.Holds (value : Option String) (values : List String) : Operator → Prop
  | .isIn => ∃ v, value = some v ∧ v ∈ values
  | .notIn => value = none ∨ ∃ v, value = some v ∧ v ∉ values
  | .present => ∃ v, value = some v
  | .absent => value = none

def Expression.Holds (e : Expression) (labels : Labels) : Prop :=
  ∃ op : Operator, op.text = e.operator ∧ op.Holds (labels.find? e.key) e.values

structure LabelSelector.Holds (s : LabelSelector) (labels : Labels) : Prop where
  own : ∀ k v, s.matchLabels.find? k = some v → labels.find? k = some v
  expressions : ∀ e ∈ s.matchExpressions, e.Holds labels

theorem TextSet.contains_ofTexts {texts : List String} {v : String} :
    (TextSet.ofTexts texts).contains v = true ↔ v ∈ texts := by
  rw [SortedMap.contains_iff, ofTexts, SortedMap.mem_keys_ofList, List.map_map]
  simp

theorem Requirement.isMet_iff {key : String} {op : Operator} {values : List String}
    {labels : Labels} : (⟨key, op, .ofTexts values⟩ : Requirement).isMet labels = true ↔
      op.Holds (labels.find? key) values := by
  unfold isMet
  cases op <;> cases labels.find? key <;>
    simp [Operator.Holds, TextSet.contains_ofTexts, ← Bool.not_eq_true]

theorem Requirement.exists_ofLabel_isMet_iff {key value : String} {labels : Labels}
    (h : LabelKey.Proper key) :
    (∃ r, ofLabel key value = .ok r ∧ r.isMet labels = true) ↔ labels.find? key = some value := by
  have hlabel : ofLabel key value = .ok ⟨key, .isIn, .ofTexts [value]⟩ :=
    if_pos (LabelKey.isValid_iff.mpr h)
  simp [hlabel, isMet_iff, Operator.Holds]

theorem Requirement.exists_ofExpression_isMet_iff {e : Expression} {labels : Labels}
    (h : e.Proper) :
    (∃ r, ofExpression e = .ok r ∧ r.isMet labels = true) ↔ e.Holds labels := by
  constructor
  · rintro ⟨r, hr, hmet⟩
    obtain ⟨op, htext⟩ := Operator.exists_text_iff.mpr h.operator
    rw [ofExpression_of_proper h htext] at hr
    cases hr
    exact ⟨op, htext, isMet_iff.mp hmet⟩
  · rintro ⟨op, htext, hholds⟩
    exact ⟨_, ofExpression_of_proper h htext, isMet_iff.mpr hholds⟩

namespace LabelSelector

variable {s s' : LabelSelector} {selector : Selector} {labels : Labels}

theorem selects_iff (h : s.parse = .ok selector) :
    selector.selects labels = true ↔ s.Holds labels := by
  have hproper := exists_parse_iff.mp ⟨_, h⟩
  obtain ⟨-, rs, es, hrs, hes, rfl⟩ := parse_eq_ok_iff.mp h
  have hown : (∀ r ∈ rs, r.isMet labels = true) ↔
      ∀ k v, s.matchLabels.find? k = some v → labels.find? k = some v := by
    rw [forall_mem_allOk_iff hrs]
    simp only [SortedMap.find?_eq_some_iff (m := s.matchLabels), Prod.forall]
    refine forall₂_congr fun k v => imp_congr_right fun hm => ?_
    exact Requirement.exists_ofLabel_isMet_iff (hproper.labels k (List.mem_map_of_mem hm))
  have hexpressions : (∀ r ∈ es, r.isMet labels = true) ↔
      ∀ e ∈ s.matchExpressions, e.Holds labels := by
    rw [forall_mem_allOk_iff hes]
    exact forall₂_congr fun e hm =>
      Requirement.exists_ofExpression_isMet_iff (hproper.expressions e hm)
  rw [Selector.selects, List.all_eq_true]
  simp only [List.forall_mem_append, hown, hexpressions]
  exact ⟨fun ⟨ho, he⟩ => ⟨ho, he⟩, fun ⟨ho, he⟩ => ⟨ho, he⟩⟩

end LabelSelector

/-- The same expression up to the order and the repetition of its values. -/
structure Expression.Alike (e e' : Expression) : Prop where
  key : e'.key = e.key
  operator : e'.operator = e.operator
  values : ∀ v, v ∈ e'.values ↔ v ∈ e.values

/-- The same selector up to the order and the repetition of expressions and of their values. -/
structure LabelSelector.Alike (s s' : LabelSelector) : Prop where
  matchLabels : s'.matchLabels = s.matchLabels
  kept : ∀ e ∈ s.matchExpressions, ∃ e' ∈ s'.matchExpressions, e.Alike e'
  added : ∀ e' ∈ s'.matchExpressions, ∃ e ∈ s.matchExpressions, e.Alike e'

namespace Expression.Alike

variable {e e' : Expression}

theorem refl (e : Expression) : e.Alike e := ⟨rfl, rfl, fun _ => Iff.rfl⟩

theorem symm (h : e.Alike e') : e'.Alike e :=
  ⟨h.key.symm, h.operator.symm, fun v => (h.values v).symm⟩

theorem values_eq_nil_iff (h : e.Alike e') : e'.values = [] ↔ e.values = [] := by
  simp only [List.eq_nil_iff_forall_not_mem, h.values]

theorem proper (h : e.Alike e') (he : e.Proper) : e'.Proper where
  key := h.key ▸ he.key
  operator := h.operator ▸ he.operator
  values ho := fun hnil => he.values (h.operator ▸ ho) (h.values_eq_nil_iff.mp hnil)
  no_values ho := h.values_eq_nil_iff.mpr (he.no_values (h.operator ▸ ho))

theorem holds {labels : Labels} (h : e.Alike e') (he : e.Holds labels) : e'.Holds labels := by
  obtain ⟨op, htext, hop⟩ := he
  refine ⟨op, htext.trans h.operator.symm, ?_⟩
  rw [h.key]
  cases op <;> simpa only [Operator.Holds, h.values] using hop

end Expression.Alike

namespace LabelSelector

variable {s s' : LabelSelector} {selector selector' : Selector} {labels : Labels}

theorem Alike.symm (h : s.Alike s') : s'.Alike s where
  matchLabels := h.matchLabels.symm
  kept e' he' := (h.added e' he').imp fun _ ⟨he, halike⟩ => ⟨he, halike.symm⟩
  added e he := (h.kept e he).imp fun _ ⟨he', halike⟩ => ⟨he', halike.symm⟩

theorem Alike.proper (h : s.Alike s') (hs : s.Proper) : s'.Proper where
  nonempty := by
    rw [h.matchLabels]
    refine hs.nonempty.imp_right fun hne hnil => ?_
    obtain ⟨e, he⟩ := List.exists_mem_of_ne_nil _ hne
    obtain ⟨e', he', -⟩ := h.kept e he
    exact List.ne_nil_of_mem he' hnil
  labels := h.matchLabels ▸ hs.labels
  expressions e' he' := by
    obtain ⟨e, he, halike⟩ := h.added e' he'
    exact halike.proper (hs.expressions e he)

theorem Alike.holds (h : s.Alike s') (hs : s.Holds labels) : s'.Holds labels where
  own := h.matchLabels ▸ hs.own
  expressions e' he' := by
    obtain ⟨e, he, halike⟩ := h.added e' he'
    exact halike.holds (hs.expressions e he)

theorem Holds.of_subset (hs' : s'.Holds labels) (hlabels : s'.matchLabels = s.matchLabels)
    (hsub : s.matchExpressions ⊆ s'.matchExpressions) : s.Holds labels where
  own := hlabels ▸ hs'.own
  expressions e he := hs'.expressions e (hsub he)

/-- A selector that parses selects just the labels that it holds of. So it selects the same if its
expressions and their values stand in another order or more than once, it selects no more if it has
more expressions, and without expressions it selects whatever has its own labels, the labels that
are stamped for a template without labels among them. -/
theorem selects_as_stored (h : s.parse = .ok selector) :
    (∀ labels, selector.selects labels = true ↔ s.Holds labels) ∧
    (∀ s' : LabelSelector, s.Alike s' → ∃ selector', s'.parse = .ok selector' ∧
      selector'.selects = selector.selects) ∧
    (∀ (s' : LabelSelector) (selector' : Selector), s'.matchLabels = s.matchLabels →
      s.matchExpressions ⊆ s'.matchExpressions → s'.parse = .ok selector' →
      ∀ labels, selector'.selects labels = true → selector.selects labels = true) ∧
    (s.matchExpressions = [] →
      (∀ labels : Labels, (∀ k v, s.matchLabels.find? k = some v → labels.find? k = some v) →
        selector.selects labels = true) ∧
      ∀ template : InstanceTemplate, template.labels.isEmpty = true →
        selector.selects (Stamp.labelsOf template s.matchLabels) = true) := by
  refine ⟨fun labels => selects_iff h, fun s' halike => ?_, ?_, fun hnil => ?_⟩
  · obtain ⟨selector', h'⟩ := exists_parse_iff.mpr (halike.proper (exists_parse_iff.mp ⟨_, h⟩))
    refine ⟨selector', h', funext fun labels => Bool.eq_iff_iff.mpr ?_⟩
    rw [selects_iff h, selects_iff h']
    exact ⟨halike.symm.holds, halike.holds⟩
  · intro s' selector' hlabels hsub h' labels hselects
    rw [selects_iff h'] at hselects
    exact (selects_iff h).mpr (hselects.of_subset hlabels hsub)
  · have hsuperset (labels : Labels)
        (hown : ∀ k v, s.matchLabels.find? k = some v → labels.find? k = some v) :
        selector.selects labels = true :=
      (selects_iff h).mpr ⟨hown, fun e he => absurd he (by simp [hnil])⟩
    refine ⟨hsuperset, fun template hempty => hsuperset _ fun k v hk => ?_⟩
    rw [Stamp.labelsOf, if_pos hempty]
    exact hk

/-- Two expressions on one key, and the same the other way round with a repeated value. -/
theorem selects_as_stored_zones :
    let own : Labels := SortedMap.empty.insert "app" "web"
    let s : LabelSelector := ⟨own, [⟨"zone", "In", ["a", "b"]⟩, ⟨"zone", "NotIn", ["b"]⟩]⟩
    let s' : LabelSelector := ⟨own, [⟨"zone", "NotIn", ["b"]⟩, ⟨"zone", "In", ["b", "a", "b"]⟩]⟩
    ∃ selector, s.parse = .ok selector ∧
      (∀ labels, selector.selects labels = true ↔ s.Holds labels) ∧
      selector.selects (own.insert "zone" "a") = true ∧
      selector.selects (own.insert "zone" "b") = false ∧
      ∃ selector', s'.parse = .ok selector' ∧ selector'.selects = selector.selects := by
  intro own s s'
  have h : s.parse = .ok ⟨[⟨"app", .isIn, .ofTexts ["web"]⟩, ⟨"zone", .isIn, .ofTexts ["a", "b"]⟩,
      ⟨"zone", .notIn, .ofTexts ["b"]⟩]⟩ := by decide +kernel
  have hvalues : Expression.Alike ⟨"zone", "In", ["a", "b"]⟩ ⟨"zone", "In", ["b", "a", "b"]⟩ :=
    ⟨rfl, rfl, fun v => by simp +contextual [or_comm]⟩
  have hzones : s.Alike s' :=
    ⟨rfl,
      List.forall_mem_cons.mpr ⟨⟨_, .tail _ (.head _), hvalues⟩,
        List.forall_mem_singleton.mpr ⟨_, .head _, .refl _⟩⟩,
      List.forall_mem_cons.mpr ⟨⟨_, .tail _ (.head _), .refl _⟩,
        List.forall_mem_singleton.mpr ⟨_, .head _, hvalues⟩⟩⟩
  obtain ⟨hiff, halike, -, -⟩ := selects_as_stored h
  exact ⟨_, h, hiff, by decide +kernel, by decide +kernel, halike s' hzones⟩

end LabelSelector

end ReplicaController

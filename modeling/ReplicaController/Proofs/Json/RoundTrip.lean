import ReplicaController.Json.Records
import ReplicaController.Proofs.Instant.Text
import ReplicaController.Proofs.Uid

/-!
# Records read back from their documents

Reading a document undoes writing it, for texts and numbers, for lists, maps and optional values of
what reads back, and so for every record: an object with distinct names gives its own fields back
in order, and each field reads back as its value.
-/

namespace ReplicaController

namespace Wire

class Lawful (α : Type) [Wire α] : Prop where
  decode_encode : ∀ a : α, decode (encode a) = some a

export Lawful (decode_encode)

instance : Lawful String := ⟨fun _ => rfl⟩

instance : Lawful Bool := ⟨fun _ => rfl⟩

instance : Lawful UInt32 where
  decode_encode n := by
    have hlt : n.toNat < UInt32.size := n.toNat_lt_size
    calc decode (encode n)
        = if n.toNat < UInt32.size then some (UInt32.ofNat n.toNat) else none := rfl
      _ = some n := by rw [if_pos hlt, UInt32.ofNat_toNat]

instance : Lawful UInt64 where
  decode_encode n := by
    have hlt : n.toNat < UInt64.size := n.toNat_lt_size
    calc decode (encode n)
        = if n.toNat < UInt64.size then some (UInt64.ofNat n.toNat) else none := rfl
      _ = some n := by rw [if_pos hlt, UInt64.ofNat_toNat]

instance : Lawful Int64 where
  decode_encode n := by
    have hrange : Int64.minValue.toInt ≤ n.toInt ∧ n.toInt ≤ Int64.maxValue.toInt :=
      ⟨n.minValue_le_toInt, n.toInt_le⟩
    calc decode (encode n)
        = if Int64.minValue.toInt ≤ n.toInt ∧ n.toInt ≤ Int64.maxValue.toInt then
            some (Int64.ofInt n.toInt) else none := rfl
      _ = some n := by rw [if_pos hrange, Int64.ofInt_toInt]

instance : Lawful Payload := ⟨Payload.ofJson?_json⟩

instance : Lawful Uid := ⟨Uid.ofText?_text⟩

instance : Lawful Instant := ⟨Instant.ofText?_text⟩

instance : Lawful Phase := ⟨fun p => by cases p <;> rfl⟩

section Collections

variable {α : Type} [Wire α] [Lawful α]

theorem decodeAll_map_encode (as : List α) : decodeAll decode (as.map encode) = some as := by
  induction as with
  | nil => rfl
  | cons a as ih => rw [List.map_cons, decodeAll, decode_encode, ih]

instance : Lawful (List α) := ⟨decodeAll_map_encode⟩

theorem decodeEntries_map_encode (es : List (String × α)) :
    decodeEntries decode (es.map fun e => (e.1, encode e.2)) = some es := by
  induction es with
  | nil => rfl
  | cons e es ih => rw [List.map_cons, decodeEntries, decode_encode, ih]

instance : Lawful (SortedMap String α) where
  decode_encode m := by
    calc decode (encode m)
        = (decodeEntries decode (m.entries.map fun e => (e.1, encode e.2))).map .ofList := rfl
      _ = some m := by
        rw [decodeEntries_map_encode, Option.map_some, SortedMap.ofList_entries]

/-- Null stands for nothing, so no value may be written as null. -/
theorem lawful_option (h : ∀ a : α, encode a ≠ .null) : Lawful (Option α) where
  decode_encode
    | none => rfl
    | some a => by
      unfold instOption
      dsimp only
      split
      · exact absurd ‹_› (h a)
      · rw [decode_encode, Option.map_some]

end Collections

section Fields

variable {fields : List (String × Json)} {names : List String}

theorem fieldValues_cons_self (f : String × Json) :
    fieldValues f.1 (f :: fields) = f.2 :: fieldValues f.1 fields := by
  simp [fieldValues]

theorem fieldValues_cons_of_ne {f : String × Json} {name : String} (h : f.1 ≠ name) :
    fieldValues name (f :: fields) = fieldValues name fields := by
  simp [fieldValues, h]

theorem field?_cons_of_ne {f : String × Json} {name : String} (h : f.1 ≠ name) :
    field? name (f :: fields) = field? name fields := by
  rw [field?, field?, fieldValues_cons_of_ne h]

theorem fieldValues_eq_nil {name : String} (h : name ∉ fields.map (·.1)) :
    fieldValues name fields = [] := by
  induction fields with
  | nil => rfl
  | cons f fs ih =>
    rw [List.map_cons, List.mem_cons, not_or] at h
    rw [fieldValues_cons_of_ne (Ne.symm h.1), ih h.2]

theorem fieldValues_of_mem (hnodup : (fields.map (·.1)).Nodup) {f : String × Json}
    (hf : f ∈ fields) : fieldValues f.1 fields = [f.2] := by
  induction fields with
  | nil => contradiction
  | cons g fs ih =>
    rw [List.map_cons, List.nodup_cons] at hnodup
    rcases List.mem_cons.mp hf with rfl | hf
    · rw [fieldValues_cons_self, fieldValues_eq_nil hnodup.1]
    · have hne : g.1 ≠ f.1 := fun he => hnodup.1 (he ▸ List.mem_map_of_mem hf)
      rw [fieldValues_cons_of_ne hne, ih hnodup.2 hf]

theorem field?_eq_none {name : String} (h : name ∉ fields.map (·.1)) :
    field? name fields = some none := by
  rw [field?, fieldValues_eq_nil h]

theorem field?_cons_self {name : String} (h : name ∉ fields.map (·.1)) (j : Json) :
    field? name ((name, j) :: fields) = some (some j) := by
  rw [field?, fieldValues_cons_self (name, j), fieldValues_eq_nil h]

theorem objectFields?_cons (name : String) :
    objectFields? fields (name :: names) =
      (field? name fields).bind fun f =>
        (objectFields? fields names).bind fun fs => some (f :: fs) := by
  rw [objectFields?]
  cases field? name fields <;> cases objectFields? fields names <;> rfl

/-- An object with distinct names gives its own fields in their order. -/
theorem fields?_own (hnames : fields.map (·.1) = names) (hnodup : names.Nodup) :
    fields? names (.obj fields) = some (fields.map fun f => some f.2) := by
  subst hnames
  suffices ∀ sub ⊆ fields, objectFields? fields (sub.map (·.1)) =
      some (sub.map fun f => some f.2) from this fields fun _ h => h
  intro sub hsub
  induction sub with
  | nil => rfl
  | cons f fs ih =>
    obtain ⟨hf, hfs⟩ := List.cons_subset.mp hsub
    rw [List.map_cons, objectFields?, field?, fieldValues_of_mem hnodup hf, ih hfs, List.map_cons]

theorem objectFields?_congr {fields' : List (String × Json)}
    (h : ∀ name ∈ names, field? name fields' = field? name fields) :
    objectFields? fields' names = objectFields? fields names := by
  induction names with
  | nil => rfl
  | cons n ns ih =>
    rw [objectFields?, objectFields?, h n List.mem_cons_self,
      ih fun m hm => h m (List.mem_cons_of_mem n hm)]

theorem field?_perm {fields' : List (String × Json)} (h : fields'.Perm fields) (name : String) :
    field? name fields' = field? name fields := by
  have hvalues : (fieldValues name fields').Perm (fieldValues name fields) := h.filterMap _
  unfold field?
  generalize fieldValues name fields' = js' at *
  match fieldValues name fields, hvalues with
  | [], hvalues => rw [hvalues.eq_nil]
  | [j], hvalues => rw [List.perm_singleton.mp hvalues]
  | j :: k :: js, hvalues =>
    match js', hvalues.length_eq with
    | _ :: _ :: _, _ => rfl

theorem field?_filter {name : String} (h : name ∈ names) :
    field? name (fields.filter fun f => f.1 ∈ names) = field? name fields := by
  have hvalues : fieldValues name (fields.filter fun f => f.1 ∈ names) =
      fieldValues name fields := by
    induction fields with
    | nil => rfl
    | cons f fs ih =>
      by_cases hf : f.1 = name
      · subst hf
        rw [List.filter_cons_of_pos (by simpa using h), fieldValues_cons_self,
          fieldValues_cons_self, ih]
      · rw [fieldValues_cons_of_ne hf, ← ih, List.filter_cons]
        split
        · rw [fieldValues_cons_of_ne hf]
        · rfl
  rw [field?, field?, hvalues]

theorem arrayFields?_eq {items : List Json} (hnodup : names.Nodup)
    (hlength : items.length ≤ names.length) :
    arrayFields? items names = objectFields? (names.zip items) names := by
  induction names generalizing items with
  | nil =>
    obtain rfl := List.eq_nil_of_length_eq_zero (Nat.le_zero.mp hlength)
    rfl
  | cons n ns ih =>
    obtain ⟨hn, hns⟩ := List.nodup_cons.mp hnodup
    cases items with
    | nil =>
      have hrest : arrayFields? [] ns = objectFields? (ns.zip []) ns := ih hns (Nat.zero_le _)
      rw [arrayFields?, List.zip_nil_right] at hrest ⊢
      rw [objectFields?, ← hrest]
      rfl
    | cons j js =>
      have hrest : n ∉ (ns.zip js).map (·.1) := fun hmem => by
        obtain ⟨f, hf, rfl⟩ := List.mem_map.mp hmem
        exact hn (List.of_mem_zip hf).1
      have htail : objectFields? ((n, j) :: ns.zip js) ns = objectFields? (ns.zip js) ns :=
        objectFields?_congr fun m hm => field?_cons_of_ne fun he : n = m => hn (he ▸ hm)
      rw [arrayFields?, List.zip_cons_cons, objectFields?_cons, field?_cons_self hrest, htail,
        ih hns (Nat.le_of_succ_le_succ hlength)]
      cases objectFields? (ns.zip js) ns <;> rfl

end Fields

section Record

variable {α : Type} [Wire α] [Lawful α]

@[simp]
theorem required_encode (a : α) : required (some (encode a)) = some a := decode_encode a

@[simp]
theorem optional_encode (default a : α) : optional default (some (encode a)) = some a :=
  decode_encode a

end Record

@[simp]
theorem required_str (s : String) : required (some (.str s)) = some s := required_encode s

@[simp]
theorem required_bool (b : Bool) : required (some (.bool b)) = some b := required_encode b

@[simp]
theorem optional_bool (default b : Bool) : optional default (some (.bool b)) = some b :=
  optional_encode default b

theorem optional_eq {α : Type} [Wire α] [Lawful α] (default : α) (f : Option Json) :
    optional default f = required (f.or (some (encode default))) := by
  cases f with
  | none => exact (decode_encode default).symm
  | some j => rfl

/-- The names of a record's fields, and the documents that stand for those that may be absent. -/
class Shaped (α : Type) where
  names : List String
  defaults : List (String × Json)

instance : Shaped Key where
  names := ["namespace", "name"]
  defaults := []

instance : Shaped OwnerReference where
  names := ["apiVersion", "kind", "name", "uid", "controller", "blockOwnerDeletion"]
  defaults := [("controller", encode false), ("blockOwnerDeletion", encode false)]

instance : Shaped Readiness where
  names := ["ready", "lastTransitionTime"]
  defaults := []

instance : Shaped Instance where
  names :=
    ["namespace", "name", "uid", "labels", "ownerReferences", "phase", "readiness",
      "creationTimestamp", "spec"]
  defaults :=
    [("labels", encode (.empty : Labels)), ("ownerReferences", encode ([] : List OwnerReference)),
      ("readiness", encode (none : Option Readiness)), ("spec", encode Payload.null)]

instance : Shaped InstanceTemplate where
  names := ["labels", "spec"]
  defaults := [("labels", encode (.empty : Labels)), ("spec", encode Payload.null)]

instance : Shaped Expression where
  names := ["key", "operator", "values"]
  defaults := [("values", encode ([] : List String))]

instance : Shaped LabelSelector where
  names := ["matchLabels", "matchExpressions"]
  defaults :=
    [("matchLabels", encode (.empty : Labels)), ("matchExpressions", encode ([] : List Expression))]

instance : Shaped WorkloadSpec where
  names := ["replicas", "selector", "template", "minReadySeconds"]
  defaults :=
    [("template", encode (⟨.empty, .null⟩ : InstanceTemplate)),
      ("minReadySeconds", encode (0 : UInt32))]

instance : Shaped WorkloadStatus where
  names := ["replicas", "readyReplicas", "availableReplicas", "observedGeneration"]
  defaults := []

instance : Shaped Workload where
  names :=
    ["namespace", "name", "uid", "generation", "resourceVersion", "deletionTimestamp", "spec",
      "status"]
  defaults :=
    [("generation", encode (0 : Int64)), ("resourceVersion", encode (0 : UInt64)),
      ("deletionTimestamp", encode (none : Option Instant)),
      ("status", encode (⟨0, 0, 0, 0⟩ : WorkloadStatus))]

/-- The fields with the given names, defaults in place of absent ones. -/
def filled (defaults : List (String × Json)) (names : List String) (fs : List (Option Json)) :
    List (Option Json) :=
  names.zipWith (fun name f => f.or (defaults.lookup name)) fs

theorem length_objectFields? {fields : List (String × Json)} {names : List String}
    {fs : List (Option Json)} (h : objectFields? fields names = some fs) :
    fs.length = names.length := by
  induction names generalizing fs with
  | nil =>
    cases h
    rfl
  | cons name names ih =>
    rw [objectFields?_cons] at h
    simp only [Option.bind_eq_some_iff] at h
    obtain ⟨f, -, rest, hrest, hfs⟩ := h
    cases hfs
    rw [List.length_cons, List.length_cons, ih hrest]

theorem length_arrayFields? {items : List Json} {names : List String} {fs : List (Option Json)}
    (h : arrayFields? items names = some fs) : fs.length = names.length := by
  induction names generalizing items fs with
  | nil =>
    cases items with
    | nil =>
      cases h
      rfl
    | cons j items => contradiction
  | cons name names ih =>
    cases items with
    | nil =>
      cases h
      simp
    | cons j items =>
      obtain ⟨rest, hrest, rfl⟩ := Option.map_eq_some_iff.mp h
      rw [List.length_cons, List.length_cons, ih hrest]

theorem length_fields? {names : List String} {j : Json} {fs : List (Option Json)}
    (h : fields? names j = some fs) : fs.length = names.length := by
  cases j with
  | obj fields => exact length_objectFields? h
  | arr items => exact length_arrayFields? h
  | _ => contradiction

/-- A record: it is built of the fields of its document, an absent one being its default. -/
class Record (α : Type) [Wire α] [Shaped α] : Prop extends Lawful α where
  nodup : (Shaped.names α).Nodup := by decide
  exists_build : ∃ build : List (Option Json) → Option α,
    (∀ j, decode j = (fields? (Shaped.names α) j).bind build) ∧
      ∀ fs : List (Option Json), fs.length = (Shaped.names α).length →
        build (filled (Shaped.defaults α) (Shaped.names α) fs) = build fs

instance : Record Key where
  decode_encode k := by
    unfold instWireKey
    simp [fields?_own]
  exists_build := by
    refine ⟨_, fun _ => rfl, fun fs hlength => ?_⟩
    match fs, hlength with
    | [a, b], _ => simp [Shaped.names, Shaped.defaults, filled]

instance : Record OwnerReference where
  decode_encode r := by
    unfold instWireOwnerReference
    simp [fields?_own]
  exists_build := by
    refine ⟨_, fun _ => rfl, fun fs hlength => ?_⟩
    match fs, hlength with
    | [a, b, c, d, e, f], _ =>
      simp [Shaped.names, Shaped.defaults, filled, List.lookup_cons, optional_eq]

instance : Record Readiness where
  decode_encode r := by
    unfold instWireReadiness
    simp [fields?_own]
  exists_build := by
    refine ⟨_, fun _ => rfl, fun fs hlength => ?_⟩
    match fs, hlength with
    | [a, b], _ => simp [Shaped.names, Shaped.defaults, filled]

instance : Lawful (Option Instant) := lawful_option fun _ => nofun

instance : Lawful (Option Readiness) := lawful_option fun _ => nofun

instance : Record Instance where
  decode_encode i := by
    unfold instWireInstance
    simp [fields?_own]
  exists_build := by
    refine ⟨_, fun _ => rfl, fun fs hlength => ?_⟩
    match fs, hlength with
    | [a, b, c, d, e, f, g, h, i], _ =>
      simp [Shaped.names, Shaped.defaults, filled, List.lookup_cons, optional_eq]

instance : Record InstanceTemplate where
  decode_encode t := by
    unfold instWireInstanceTemplate
    simp [fields?_own]
  exists_build := by
    refine ⟨_, fun _ => rfl, fun fs hlength => ?_⟩
    match fs, hlength with
    | [a, b], _ => simp [Shaped.names, Shaped.defaults, filled, List.lookup_cons, optional_eq]

instance : Record Expression where
  decode_encode e := by
    unfold instWireExpression
    simp [fields?_own]
  exists_build := by
    refine ⟨_, fun _ => rfl, fun fs hlength => ?_⟩
    match fs, hlength with
    | [a, b, c], _ => simp [Shaped.names, Shaped.defaults, filled, List.lookup_cons, optional_eq]

instance : Record LabelSelector where
  decode_encode s := by
    unfold instWireLabelSelector
    simp [fields?_own]
  exists_build := by
    refine ⟨_, fun _ => rfl, fun fs hlength => ?_⟩
    match fs, hlength with
    | [a, b], _ => simp [Shaped.names, Shaped.defaults, filled, List.lookup_cons, optional_eq]

instance : Record WorkloadSpec where
  decode_encode s := by
    unfold instWireWorkloadSpec
    simp [fields?_own]
  exists_build := by
    refine ⟨_, fun _ => rfl, fun fs hlength => ?_⟩
    match fs, hlength with
    | [a, b, c, d], _ => simp [Shaped.names, Shaped.defaults, filled, List.lookup_cons, optional_eq]

instance : Record WorkloadStatus where
  decode_encode s := by
    unfold instWireWorkloadStatus
    simp [fields?_own]
  exists_build := by
    refine ⟨_, fun _ => rfl, fun fs hlength => ?_⟩
    match fs, hlength with
    | [a, b, c, d], _ => simp [Shaped.names, Shaped.defaults, filled]

instance : Record Workload where
  decode_encode w := by
    unfold instWireWorkload
    simp [fields?_own]
  exists_build := by
    refine ⟨_, fun _ => rfl, fun fs hlength => ?_⟩
    match fs, hlength with
    | [a, b, c, d, e, f, g, h], _ =>
      simp [Shaped.names, Shaped.defaults, filled, List.lookup_cons, optional_eq]

section Accepted

variable {α : Type} [Wire α] [Shaped α] [Record α]

theorem decode_eq {j j' : Json}
    (h : (fields? (Shaped.names α) j).map (filled (Shaped.defaults α) (Shaped.names α)) =
      (fields? (Shaped.names α) j').map (filled (Shaped.defaults α) (Shaped.names α))) :
    (decode j : Option α) = decode j' := by
  obtain ⟨build, hdecode, hfilled⟩ := Record.exists_build (α := α)
  have hbuild (j : Json) : (decode j : Option α) =
      ((fields? (Shaped.names α) j).map (filled (Shaped.defaults α) (Shaped.names α))).bind
        build := by
    rw [hdecode]
    cases hfs : fields? (Shaped.names α) j with
    | none => rfl
    | some fs => exact (hfilled fs (length_fields? hfs)).symm
  rw [hbuild, h, ← hbuild]

theorem decode_perm {fields fields' : List (String × Json)} (h : fields'.Perm fields) :
    (decode (.obj fields') : Option α) = decode (.obj fields) :=
  decode_eq (congrArg _ (objectFields?_congr fun name _ => field?_perm h name))

theorem decode_filter (fields : List (String × Json)) :
    (decode (.obj (fields.filter fun f => f.1 ∈ Shaped.names α)) : Option α) =
      decode (.obj fields) :=
  decode_eq (congrArg _ (objectFields?_congr fun _ hname => field?_filter hname))

theorem decode_arr {items : List Json} (h : items.length ≤ (Shaped.names α).length) :
    (decode (.arr items) : Option α) = decode (.obj ((Shaped.names α).zip items)) :=
  decode_eq (congrArg _ (arrayFields?_eq Record.nodup h))

theorem map_filled_cons (defaults : List (String × Json)) (names : List String) (name : String)
    (fields : List (String × Json)) :
    (objectFields? fields (name :: names)).map (filled defaults (name :: names)) =
      ((field? name fields).map fun f => f.or (defaults.lookup name)).bind fun f =>
        ((objectFields? fields names).map (filled defaults names)).map (f :: ·) := by
  rw [objectFields?_cons]
  cases field? name fields <;> cases objectFields? fields names <;> rfl

/-- An absent field reads as its default. -/
theorem decode_absent {fields : List (String × Json)} {name : String} {default : Json}
    (hdefault : (Shaped.defaults α).lookup name = some default) (h : name ∉ fields.map (·.1)) :
    (decode (.obj fields) : Option α) = decode (.obj ((name, default) :: fields)) := by
  apply decode_eq
  change (objectFields? fields (Shaped.names α)).map _ =
    (objectFields? ((name, default) :: fields) (Shaped.names α)).map _
  generalize Shaped.names α = names
  induction names with
  | nil => rfl
  | cons n names ih =>
    rw [map_filled_cons, map_filled_cons, ih]
    by_cases hn : name = n
    · subst hn
      rw [field?_eq_none h, field?_cons_self h, hdefault]
      rfl
    · rw [field?_cons_of_ne hn]

variable (α)

/-- How a record may be written down otherwise. -/
structure Accepts : Prop where
  perm : ∀ fields fields' : List (String × Json), fields'.Perm fields →
    (decode (.obj fields') : Option α) = decode (.obj fields)
  unknown : ∀ fields : List (String × Json),
    (decode (.obj (fields.filter fun f => f.1 ∈ Shaped.names α)) : Option α) =
      decode (.obj fields)
  items : ∀ items : List Json, items.length ≤ (Shaped.names α).length →
    (decode (.arr items) : Option α) = decode (.obj ((Shaped.names α).zip items))
  absent : ∀ (fields : List (String × Json)) (name : String) (default : Json),
    (Shaped.defaults α).lookup name = some default → name ∉ fields.map (·.1) →
    (decode (.obj fields) : Option α) = decode (.obj ((name, default) :: fields))

variable {α}

theorem Record.accepts : Accepts α where
  perm _ _ h := decode_perm h
  unknown := decode_filter
  items _ h := decode_arr h
  absent _ _ _ hdefault h := decode_absent hdefault h

end Accepted

variable (α : Type) [Wire α]

/-- The document of the value that a document reads as. -/
def rewrite? (j : Json) : Option Json := (decode j : Option α).map encode

/-- Reading undoes writing, also for a value that was read from whatever document, and so a
document that was written anew once does not change any more. -/
structure RoundTrips : Prop where
  decode_encode : ∀ a : α, decode (encode a) = some a
  decode_rewrite : ∀ (j : Json) (a : α), decode j = some a →
    ∃ j', rewrite? α j = some j' ∧ decode j' = some a
  rewrite_rewrite : ∀ j j', rewrite? α j = some j' → rewrite? α j' = some j'

variable {α}

theorem Lawful.roundTrips [Lawful α] : RoundTrips α where
  decode_encode := decode_encode
  decode_rewrite j a h := ⟨encode a, by rw [rewrite?, h, Option.map_some], decode_encode a⟩
  rewrite_rewrite j j' h := by
    obtain ⟨a, -, rfl⟩ := Option.map_eq_some_iff.mp h
    rw [rewrite?, decode_encode, Option.map_some]

/-- Every record of the cluster comes back from its document, and a document may be written in other
ways that read the same. -/
theorem records_roundTrip :
    RoundTrips Workload ∧ RoundTrips WorkloadSpec ∧ RoundTrips WorkloadStatus ∧
      RoundTrips LabelSelector ∧ RoundTrips Expression ∧ RoundTrips InstanceTemplate ∧
      RoundTrips Instance ∧ RoundTrips OwnerReference ∧ RoundTrips Readiness ∧
      RoundTrips Phase ∧ RoundTrips Key ∧
      Accepts Workload ∧ Accepts WorkloadSpec ∧ Accepts WorkloadStatus ∧ Accepts LabelSelector ∧
      Accepts Expression ∧ Accepts InstanceTemplate ∧ Accepts Instance ∧
      Accepts OwnerReference ∧ Accepts Readiness ∧ Accepts Key ∧
      ∀ p : Phase, decode (.obj [(p.text, .null)]) = some p :=
  ⟨Lawful.roundTrips, Lawful.roundTrips, Lawful.roundTrips, Lawful.roundTrips, Lawful.roundTrips,
    Lawful.roundTrips, Lawful.roundTrips, Lawful.roundTrips, Lawful.roundTrips, Lawful.roundTrips,
    Lawful.roundTrips, Record.accepts, Record.accepts, Record.accepts, Record.accepts,
    Record.accepts, Record.accepts, Record.accepts, Record.accepts, Record.accepts,
    Record.accepts, fun p => by cases p <;> rfl⟩

end Wire

end ReplicaController

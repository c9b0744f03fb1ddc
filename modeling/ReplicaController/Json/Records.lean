import ReplicaController.Instant.Text
import ReplicaController.Json.Wire
import ReplicaController.Workload.Basic

/-!
# The records of the cluster on the wire

Each record is an object with all of its fields, in the order in which an array would give them. A
phase is its text, or an object whose only field is the phase and holds null.
-/

namespace ReplicaController

open Wire (required optional fields?)

instance : Wire Uid where
  encode u := .str u.text
  decode
    | .str s => Uid.ofText? s
    | _ => none

instance : Wire Instant where
  encode t := .str t.text
  decode
    | .str s => Instant.ofText? s
    | _ => none

instance : Wire Phase where
  encode p := .str p.text
  decode
    | .str s => Phase.ofText? s
    | .obj [(s, .null)] => Phase.ofText? s
    | _ => none

instance : Wire Key where
  encode k := .obj [("namespace", .str k.ns), ("name", .str k.name)]
  decode j := do
    let [ns, name] ← fields? ["namespace", "name"] j | none
    some ⟨← required ns, ← required name⟩

instance : Wire OwnerReference where
  encode r := .obj [
    ("apiVersion", .str r.apiVersion), ("kind", .str r.kind), ("name", .str r.name),
    ("uid", Wire.encode r.uid), ("controller", .bool r.controller),
    ("blockOwnerDeletion", .bool r.blockOwnerDeletion)]
  decode j := do
    let [apiVersion, kind, name, uid, controller, block] ← fields?
      ["apiVersion", "kind", "name", "uid", "controller", "blockOwnerDeletion"] j | none
    some ⟨← required apiVersion, ← required kind, ← required name, ← required uid,
      ← optional false controller, ← optional false block⟩

instance : Wire Readiness where
  encode r := .obj [("ready", .bool r.ready), ("lastTransitionTime", Wire.encode r.since)]
  decode j := do
    let [ready, since] ← fields? ["ready", "lastTransitionTime"] j | none
    some ⟨← required ready, ← required since⟩

instance : Wire Instance where
  encode i := .obj [
    ("namespace", .str i.ns), ("name", .str i.name), ("uid", Wire.encode i.uid),
    ("labels", Wire.encode i.labels), ("ownerReferences", Wire.encode i.ownerReferences),
    ("phase", Wire.encode i.phase), ("readiness", Wire.encode i.readiness),
    ("creationTimestamp", Wire.encode i.created), ("spec", Wire.encode i.spec)]
  decode j := do
    let [ns, name, uid, labels, owners, phase, readiness, created, spec] ← fields?
      ["namespace", "name", "uid", "labels", "ownerReferences", "phase", "readiness",
        "creationTimestamp", "spec"] j | none
    some ⟨← required ns, ← required name, ← required uid, ← optional .empty labels,
      ← optional [] owners, ← required phase, ← optional none readiness, ← required created,
      ← optional .null spec⟩

instance : Wire InstanceTemplate where
  encode t := .obj [("labels", Wire.encode t.labels), ("spec", Wire.encode t.spec)]
  decode j := do
    let [labels, spec] ← fields? ["labels", "spec"] j | none
    some ⟨← optional .empty labels, ← optional .null spec⟩

instance : Wire Expression where
  encode e := .obj [
    ("key", .str e.key), ("operator", .str e.operator), ("values", Wire.encode e.values)]
  decode j := do
    let [key, operator, values] ← fields? ["key", "operator", "values"] j | none
    some ⟨← required key, ← required operator, ← optional [] values⟩

instance : Wire LabelSelector where
  encode s := .obj [
    ("matchLabels", Wire.encode s.matchLabels),
    ("matchExpressions", Wire.encode s.matchExpressions)]
  decode j := do
    let [labels, expressions] ← fields? ["matchLabels", "matchExpressions"] j | none
    some ⟨← optional .empty labels, ← optional [] expressions⟩

instance : Wire WorkloadSpec where
  encode s := .obj [
    ("replicas", Wire.encode s.replicas), ("selector", Wire.encode s.selector),
    ("template", Wire.encode s.template), ("minReadySeconds", Wire.encode s.minReadySeconds)]
  decode j := do
    let [replicas, selector, template, minReady] ← fields?
      ["replicas", "selector", "template", "minReadySeconds"] j | none
    some ⟨← required replicas, ← required selector, ← optional ⟨.empty, .null⟩ template,
      ← optional 0 minReady⟩

instance : Wire WorkloadStatus where
  encode s := .obj [
    ("replicas", Wire.encode s.replicas), ("readyReplicas", Wire.encode s.readyReplicas),
    ("availableReplicas", Wire.encode s.availableReplicas),
    ("observedGeneration", Wire.encode s.observedGeneration)]
  decode j := do
    let [replicas, ready, available, generation] ← fields?
      ["replicas", "readyReplicas", "availableReplicas", "observedGeneration"] j | none
    some ⟨← required replicas, ← required ready, ← required available, ← required generation⟩

instance : Wire Workload where
  encode w := .obj [
    ("namespace", .str w.ns), ("name", .str w.name), ("uid", Wire.encode w.uid),
    ("generation", Wire.encode w.generation),
    ("resourceVersion", Wire.encode w.resourceVersion),
    ("deletionTimestamp", Wire.encode w.deletionTimestamp), ("spec", Wire.encode w.spec),
    ("status", Wire.encode w.status)]
  decode j := do
    let [ns, name, uid, generation, version, deletion, spec, status] ← fields?
      ["namespace", "name", "uid", "generation", "resourceVersion", "deletionTimestamp", "spec",
        "status"] j | none
    some ⟨← required ns, ← required name, ← required uid, ← optional 0 generation,
      ← optional 0 version, ← optional none deletion, ← required spec,
      ← optional ⟨0, 0, 0, 0⟩ status⟩

end ReplicaController

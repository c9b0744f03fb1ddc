import ReplicaController.Stamp
import ReplicaController.Store.Basic

/-!
# What a controller works against

A backend answers the calls of a controller from a state of any kind. The state may hold more than
the store: other writers that act between the calls, a script of failures, a log. A creation or
deletion is answered in two moments: on entering it may be refused at once, and otherwise its answer
comes when it leaves. Random draws and readings of the clock are answers as well.

`World.backend` is the store in memory with a supply of draws and readings.
-/

namespace ReplicaController

inductive Mutation
  | create (new : Instance)
  | delete (key : Key)

structure Backend (σ : Type) where
  getWorkload : Key → σ → Answer Workload × σ
  listWorkloads : σ → Answer (List Workload) × σ
  listInstances : String → Selector → σ → Answer (List Instance) × σ
  enter : Mutation → σ → Answer Unit × σ
  leave : Mutation → σ → Answer Unit × σ
  updateStatus : Workload → σ → Answer Workload × σ
  draw : σ → Draw × σ
  now : σ → Instant × σ

/-- The store in memory, the draws and clock readings to come, and how many have been taken. -/
structure World where
  store : Store
  draws : Nat → Draw
  drawn : Nat
  clock : Nat → Instant
  readings : Nat

namespace World

/-- Change the store and leave the rest. -/
def onStore {α : Type} (f : Store → α × Store) (w : World) : α × World :=
  let (a, store) := f w.store
  (a, { w with store })

def enter (m : Mutation) (w : World) : Answer Unit × World :=
  match m with
  | .create _ => (.ok (), { w with store := w.store.enterCreate })
  | .delete _ => (.ok (), { w with store := w.store.enterDelete })

def leave (m : Mutation) (w : World) : Answer Unit × World :=
  match m with
  | .create i => w.onStore (Store.leaveCreate i)
  | .delete key => w.onStore (Store.leaveDelete key)

def draw (w : World) : Draw × World := (w.draws w.drawn, { w with drawn := w.drawn + 1 })

def now (w : World) : Instant × World := (w.clock w.readings, { w with readings := w.readings + 1 })

def backend : Backend World where
  getWorkload key := onStore (Store.getWorkload key)
  listWorkloads := onStore Store.listWorkloads
  listInstances ns selector := onStore (Store.listInstances ns selector)
  enter := enter
  leave := leave
  updateStatus w := onStore (Store.updateStatus w)
  draw := draw
  now := now

end World

end ReplicaController

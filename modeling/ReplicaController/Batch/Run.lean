import ReplicaController.Batch.Operation

/-!
# Running a batch

All operations of a batch are under way at once. A schedule says which of the unfinished ones takes
the next step, so that every interleaving is the run of some schedule. A run takes at most a given
number of steps; `finish` takes as many as the operations can need.
-/

namespace ReplicaController.Batch

/-- The slots of a batch and the events recorded so far. -/
structure Progress where
  slots : List Slot
  events : List Event

def totalWork : List Slot → Nat
  | [] => 0
  | s :: ss => s.work + totalWork ss

namespace Progress

def start (ops : List Operation) : Progress := ⟨ops.map .start, []⟩

def isFinished (p : Progress) : Bool := p.slots.all (·.isFinished)

def results (p : Progress) : List Result := p.slots.map (·.result)

def work (p : Progress) : Nat := totalWork p.slots

/-- The positions of the slots that are not finished. -/
def unfinished (p : Progress) : List Nat :=
  p.slots.zipIdx.filterMap fun s => if s.1.isFinished then none else some s.2

end Progress

/-- From the steps left and the slots, the position of the next one among the unfinished. -/
abbrev Schedule := Nat → List Slot → Nat

/-- The operations one after another, each from its start to its end. -/
def Schedule.inOrder : Schedule := fun _ _ => 0

/-- Every operation is inside a call before the one goes on that made the fewest. -/
def Schedule.lockstep : Schedule := fun _ slots =>
  let live := slots.filter fun s => !s.isFinished
  match live.findIdx? fun s => !s.isInside with
  | some n => n
  | none =>
    let least := (live.map (·.attempt)).min?.getD 0
    live.findIdx fun s => s.attempt == least

variable {σ : Type}

/-- One step of the slot at position `n`. -/
def Progress.stepAt (B : Backend σ) (n : Nat) (p : Progress) (s : σ) : Progress × σ :=
  match p.slots[n]? with
  | none => (p, s)
  | some slot =>
    let ((slot, events), s) := slot.step B s
    (⟨p.slots.set n slot, p.events ++ events⟩, s)

/-- The slot that a choice among the unfinished falls on; choices past the last one wrap around. -/
def Progress.pick (p : Progress) (choice : Nat) : Nat :=
  let live := p.unfinished
  live.getD (choice % live.length) 0

/-- At most `n` steps, fewer only if all operations are finished. -/
def run (B : Backend σ) (plan : Schedule) : Nat → Progress → σ → Progress × σ
  | 0, p, s => (p, s)
  | n + 1, p, s =>
    if p.isFinished then (p, s)
    else
      let (p, s) := p.stepAt B (p.pick (plan n p.slots)) s
      run B plan n p s

/-- All the steps that the operations can take. -/
def finish (B : Backend σ) (plan : Schedule) (p : Progress) (s : σ) : Progress × σ :=
  run B plan p.work p s

end ReplicaController.Batch

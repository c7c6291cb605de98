import SceneMarkup.Job.Failure

namespace SceneMarkup.Job

open Files (FileTree OsError Path)

/-!
# Work on a file tree

Work changes a file tree, reports what it does, and may fail; what was changed
and reported before a failure stays.  The tree is kept by a device, which may
give up where the tree itself allows the work.
-/

/-- How a device gives up on writing a file. -/
inductive Setback
  /-- Nothing is written. -/
  | refused
  /-- Only the first bytes are written. -/
  | cutShort (count : Nat)
  deriving Repr, DecidableEq

/-- What a device gives up on; a sound device gives up on nothing. -/
structure Device where
  setback? : Path → ByteArray → Option Setback := fun _ _ => none
  refusesMove : Path → Path → Bool := fun _ _ => false

/-- A file tree, what was reported while it was worked on, and the device that keeps it. -/
structure World where
  tree : FileTree
  reports : List Report := []
  device : Device := {}

/-- Work that gives an `α` or fails. -/
abbrev Work := ExceptT Failure (StateM World)

namespace Work

/-- Report something. -/
def report (record : Report) : Work Unit :=
  modify fun world => { world with reports := world.reports ++ [record] }

/-- Report several things in order. -/
def reportAll (records : List Report) : Work Unit :=
  modify fun world => { world with reports := world.reports ++ records }

/-- Ask the file tree something about a path. -/
def ask (path : Path) (question : FileTree → Except OsError α) : Work α := do
  match question (← get).tree with
  | .ok answer => return answer
  | .error error => throw (.file path error)

/-- Change the file tree at a path. -/
def change (path : Path) (step : FileTree → Except OsError FileTree) : Work Unit := do
  let tree ← ask path step
  modify fun world => { world with tree := tree }

/-- Write a file; what the device takes before it gives up stays in the file. -/
def write (path : Path) (bytes : ByteArray) : Work Unit := do
  match (← get).device.setback? path bytes with
  | none => change path fun tree => tree.write path bytes
  | some .refused => throw (.file path .deviceFault)
  | some (.cutShort count) =>
      change path fun tree => tree.write path (bytes.extract 0 count)
      throw (.file path .noSpace)

/-- Move a file, which is done as a whole or not at all. -/
def move (source target : Path) : Work Unit := do
  if (← get).device.refusesMove source target then throw (.file target .deviceFault)
  change target fun tree => tree.move source target

/-- Change the file tree if it can be changed. -/
def attempt (step : FileTree → Except OsError FileTree) : Work Unit :=
  modify fun world => { world with tree := (step world.tree).toOption.getD world.tree }

/-- Take a value or fail. -/
def orFail (failure : ε → Failure) : Except ε α → Work α
  | .ok value => pure value
  | .error error => throw (failure error)

/-- Do the work on a file tree: the outcome, and the world that it leaves behind. -/
def runOn (work : Work α) (tree : FileTree) : Except Failure α × World :=
  (ExceptT.run work).run { tree := tree }

end Work

end SceneMarkup.Job

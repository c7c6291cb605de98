import SceneMarkup.Job.Convert

namespace SceneMarkup.Job

open Files (FileTree OsError Path)
open Filters (Filter FilterTable FilterResult)

/-!
# What work leaves behind

Work is known by its outcome in every world.  Much of it only reads: it leaves
the tree as it is, whether it succeeds or not, and gives the same on trees that
show it the same.
-/

namespace Work

/-- What some work gives in a world, and the world that it leaves behind. -/
def outcome (work : Work α) (world : World) : Except Failure α × World :=
  (ExceptT.run work).run world

section Rules

/-- What follows a work starts from the world that it leaves, and nothing follows a failure. -/
theorem outcome_bind
    (work : Work α)
    (next : α → Work β)
    (world : World) :
    outcome (work >>= next) world =
      match outcome work world with
      | (.ok value, after) => outcome (next value) after
      | (.error failure, after) => (.error failure, after) := by
  let rest (reached : Except Failure α × World) : Except Failure β × World :=
    (ExceptT.bindCont next reached.1).run reached.2
  have steps : outcome (work >>= next) world = rest (outcome work world) := rfl
  rw [steps]
  rcases outcome work world with ⟨failure | value, after⟩ <;> rfl

/-- A handler starts from the world in which the work failed. -/
theorem outcome_tryCatch
    (work : Work α)
    (handler : Failure → Work α)
    (world : World) :
    outcome (tryCatch work handler) world =
      match outcome work world with
      | (.ok value, after) => (.ok value, after)
      | (.error failure, after) => outcome (handler failure) after := by
  have opened : tryCatch work handler = ExceptT.tryCatch work handler := rfl
  rw [opened, outcome, ExceptT.tryCatch, ExceptT.run_mk, StateT.run_bind]
  rcases done : outcome work world with ⟨failure | value, after⟩
  · have reached : StateT.run work world = (.error failure, after) := done
    rw [reached]
    rfl
  · have reached : StateT.run work world = (.ok value, after) := done
    rw [reached]
    rfl

/-- Work that succeeds succeeds in each of its steps. -/
theorem bind_succeeds
    {work : Work α}
    {next : α → Work β}
    {world after : World}
    {result : β} :
    outcome (work >>= next) world = (.ok result, after) ↔
      ∃ value middle,
        outcome work world = (.ok value, middle) ∧
          outcome (next value) middle = (.ok result, after) := by
  rw [outcome_bind]
  rcases outcome work world with ⟨failure | value, middle⟩
  · constructor
    · exact fun done => by cases done
    · rintro ⟨_, _, done, _⟩
      cases done
  · constructor
    · exact fun done => ⟨value, middle, rfl, done⟩
    · rintro ⟨_, _, done, later⟩
      cases done
      exact later

/-- Looking at the world changes nothing. -/
theorem outcome_get (world : World) :
    outcome get world = (.ok world, world) :=
  rfl

/-- A question is answered by the tree and changes nothing. -/
theorem outcome_ask
    (path : Path)
    (question : FileTree → Except OsError α)
    (world : World) :
    outcome (ask path question) world =
      ((question world.tree).mapError (.file path), world) := by
  rw [ask, outcome_bind]
  simp only [outcome_get]
  cases question world.tree <;> rfl

/-- A step that is refused leaves the tree as it was. -/
theorem outcome_change
    (path : Path)
    (step : FileTree → Except OsError FileTree)
    (world : World) :
    outcome (change path step) world =
      match step world.tree with
      | .ok tree => (.ok (), { world with tree := tree })
      | .error error => (.error (.file path error), world) := by
  rw [change, outcome_bind, outcome_ask]
  cases step world.tree <;> rfl

end Rules

/-- How the writing of a file ends: done, refused, or broken off with a part of it written. -/
inductive Writes (path : Path) (bytes : ByteArray) (world : World) :
    Except Failure Unit × World → Prop
  | done
      {written : FileTree}
      (accepted : world.tree.write path bytes = .ok written) :
      Writes path bytes world (.ok (), { world with tree := written })
  | refused
      (failure : Failure) :
      Writes path bytes world (.error failure, world)
  | cutShort
      (failure : Failure)
      {part : ByteArray}
      {written : FileTree}
      (accepted : world.tree.write path part = .ok written) :
      Writes path bytes world (.error failure, { world with tree := written })

/-- Writing is done, refused or cut short. -/
theorem writes_outcome
    (path : Path)
    (bytes : ByteArray)
    (world : World) :
    Writes path bytes world (outcome (write path bytes) world) := by
  rw [write, outcome_bind]
  simp only [outcome_get]
  split
  · rw [outcome_change]
    split
    next accepted => exact Writes.done accepted
    next => exact Writes.refused _
  · exact Writes.refused _
  · rw [outcome_bind, outcome_change]
    split
    next accepted =>
      split at accepted
      next written => 
        cases accepted
        exact Writes.cutShort _ written
      next => cases accepted
    next refused =>
      split at refused
      next => cases refused
      next => 
        cases refused
        exact Writes.refused _

/-- How the moving of a file ends: done, or refused with nothing changed. -/
inductive Moves (source target : Path) (world : World) : Except Failure Unit × World → Prop
  | done
      {moved : FileTree}
      (accepted : world.tree.move source target = .ok moved) :
      Moves source target world (.ok (), { world with tree := moved })
  | refused
      (failure : Failure) :
      Moves source target world (.error failure, world)

/-- Moving is done or refused. -/
theorem moves_outcome
    (source target : Path)
    (world : World) :
    Moves source target world (outcome (move source target) world) := by
  rw [move, outcome_bind]
  show Moves source target world (outcome (if world.device.refusesMove source target then
      (do throw (.file target .deviceFault); change target fun tree => tree.move source target)
    else change target fun tree => tree.move source target) world)
  split
  · exact Moves.refused _
  · rw [outcome_change]
    split
    next accepted => exact Moves.done accepted
    next => exact Moves.refused _

/-- Works that leave two trees as they are and, where they succeed, give the same on both. -/
def Alike (first second : FileTree) (left right : Work α) : Prop :=
  ∀ before other : World,
    before.tree = first →
      other.tree = second →
        (outcome left before).1.toOption = (outcome right other).1.toOption ∧
          (outcome left before).2.tree = first ∧ (outcome right other).2.tree = second

section Alikeness

variable {first second : FileTree}

theorem alike_pure (value : α) : Alike first second (pure value) (pure value) :=
  fun _ _ own other => ⟨rfl, own, other⟩

/-- Failures are alike, whatever they say. -/
theorem alike_throw
    (failure fault : Failure) :
    Alike first second (throw failure : Work α) (throw fault) :=
  fun _ _ own other => ⟨rfl, own, other⟩

/-- Nothing comes after a failure. -/
theorem alike_throw_bind
    (failure fault : Failure)
    (next after : α → Work β) :
    Alike first second (throw failure >>= next) (throw fault >>= after) :=
  fun _ _ own other => ⟨rfl, own, other⟩

theorem alike_report
    (record other : Report) :
    Alike first second (report record) (report other) :=
  fun _ _ own other => ⟨rfl, own, other⟩

theorem alike_reportAll
    (records others : List Report) :
    Alike first second (reportAll records) (reportAll others) :=
  fun _ _ own other => ⟨rfl, own, other⟩

/-- Questions are alike if both trees answer them alike. -/
theorem alike_ask
    {path : Path}
    {question : FileTree → Except OsError α}
    (same : (question first).toOption = (question second).toOption) :
    Alike first second (ask path question) (ask path question) := by
  rintro before other rfl rfl
  rw [outcome_ask, outcome_ask]
  refine ⟨?_, rfl, rfl⟩
  cases answer : question before.tree <;> cases reply : question other.tree <;>
    rw [answer, reply] at same
  · rfl
  · cases same
  · cases same
  · exact same

/-- Results that are alike stay alike, whatever failure is reported. -/
theorem alike_orFail
    {failure fault : ε → Failure}
    {left right : Except ε α}
    (same : left.toOption = right.toOption) :
    Alike first second (orFail failure left) (orFail fault right) := by
  cases left with
  | error =>
      cases right with
      | error => exact alike_throw _ _
      | ok value => cases same
  | ok value =>
      cases right with
      | error => cases same
      | ok other =>
          cases same
          exact alike_pure value

/-- Alike works that go on alike are alike. -/
theorem alike_bind
    {left right : Work α}
    {next after : α → Work β}
    (begins : Alike first second left right)
    (goesOn : ∀ value, Alike first second (next value) (after value)) :
    Alike first second (left >>= next) (right >>= after) := by
  intro before other own own'
  have begun := begins before other own own'
  rw [outcome_bind, outcome_bind]
  generalize outcome left before = reached at begun ⊢
  generalize outcome right other = arrived at begun ⊢
  obtain ⟨failure | value, middle⟩ := reached <;>
    obtain ⟨failure' | value', middle'⟩ := arrived <;>
    obtain ⟨same, kept, kept'⟩ := begun
  · exact ⟨rfl, kept, kept'⟩
  · cases same
  · cases same
  · cases same
    exact goesOn value middle middle' kept kept'

/-- Works that look at the world first are alike if they are for every two worlds. -/
theorem alike_get
    {next after : World → Work α}
    (goesOn :
      ∀ before other : World,
        before.tree = first →
          other.tree = second → Alike first second (next before) (after other)) :
    Alike first second (get >>= next) (get >>= after) :=
  fun before other own own' => goesOn before other own own' before other own own'

/-- Work that does the same on a tree as on itself leaves it as it is. -/
theorem tree_of_alike
    {work : Work α}
    {world : World}
    (alike : Alike world.tree world.tree work work) :
    (outcome work world).2.tree = world.tree :=
  (alike world world rfl rfl).2.1

end Alikeness

end Work

end SceneMarkup.Job

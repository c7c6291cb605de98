namespace SceneMarkup

/-!
# Steps

A step may be refused; what it gave if it was not is known.  A loop takes one step
after another as long as there is a next state.  Nothing bounds the number of its
rounds, so that it ends has to be shown of each loop.
-/

section Attempts

/-- What is known to succeed has a result. -/
theorem exists_eq_ok
    {outcome : Except ε α}
    (succeeds : outcome.isOk = true) :
    ∃ result, outcome = .ok result := by
  cases outcome with
  | error fault => cases succeeds
  | ok result => exact ⟨result, rfl⟩

/-- What is left of an outcome without its error is its result. -/
theorem eq_ok_of_toOption
    {outcome : Except ε α}
    {result : α}
    (kept : outcome.toOption = some result) :
    outcome = .ok result := by
  cases outcome with
  | error fault => cases kept
  | ok other => exact congrArg Except.ok (Option.some.inj kept)

/-- Two steps give a result only if the first gives what the second starts from. -/
theorem exists_of_bind
    {first : Except ε α}
    {next : α → Except ε β}
    {result : β}
    (done : first >>= next = .ok result) :
    ∃ value, first = .ok value ∧ next value = .ok result := by
  cases first with
  | error fault => cases done
  | ok value => exact ⟨value, rfl, done⟩

/-- Rewording the error of a step keeps its results. -/
theorem ok_of_mapError
    {outcome : Except ε α}
    {words : ε → η}
    {result : α}
    (done : outcome.mapError words = .ok result) :
    outcome = .ok result := by
  cases outcome with
  | error fault => cases done
  | ok value =>
      cases done
      rfl

end Attempts

section Loops

/-- The state after that many rounds, if the loop gets so far. -/
def rounds? (round? : α → Option α) : Nat → α → Option α
  | 0, state => some state
  | count + 1, state => (round? state).bind (rounds? round? count)

/-- The loop is over after that many rounds, and this is the state that it ends in. -/
structure EndsAfter
    (round? : α → Option α)
    (count : Nat)
    (start final : α) :
    Prop where
  reached : rounds? round? count start = some final
  stops : round? final = none

variable {round? : α → Option α} {start next final : α} {count : Nat}

theorem EndsAfter.rest
    (stops : round? final = none) :
    EndsAfter round? 0 final final :=
  ⟨rfl, stops⟩

/-- One round more leads to the same end. -/
theorem EndsAfter.first
    (step : round? start = some next)
    (ends : EndsAfter round? count next final) :
    EndsAfter round? (count + 1) start final where
  reached := by
    rw [rounds?, step]
    exact ends.reached
  stops := ends.stops

end Loops

end SceneMarkup

import SettingsLang.Failure

/-!
Results of what may fail. Something done in steps succeeds if every step does. An action on files is
run on a store that is a value, and its outcome is what it answers and the store that it leaves.
-/

namespace SettingsLang

instance decidableEqResult {ε α : Type} [DecidableEq ε] [DecidableEq α] :
    DecidableEq (Except ε α)
  | .ok first, .ok second => decidable_of_iff (first = second) (by simp)
  | .error first, .error second => decidable_of_iff (first = second) (by simp)
  | .ok _, .error _ | .error _, .ok _ => isFalse (by simp)

section Steps

variable {ε α β : Type}

theorem bind_eq_ok_iff {first : Except ε α} {next : α → Except ε β} {result : β} :
    (first >>= next) = .ok result ↔ ∃ middle, first = .ok middle ∧ next middle = .ok result := by
  cases first <;> simp [bind, Except.bind]

theorem map_eq_ok_iff {first : Except ε α} {f : α → β} {result : β} :
    first.map f = .ok result ↔ ∃ middle, first = .ok middle ∧ f middle = result := by
  cases first <;> simp [Except.map]

theorem mapError_eq_ok_iff {ζ : Type} {first : Except ε α} {f : ε → ζ} {result : α} :
    first.mapError f = .ok result ↔ first = .ok result := by
  cases first with
  | error fault =>
      constructor
      · rintro ⟨⟩
      · rintro ⟨⟩
  | ok value =>
      constructor
      · rintro ⟨⟩
        rfl
      · rintro ⟨⟩
        rfl

end Steps

section Outcome

variable {S α β : Type}

/-- What an action answers on a store, and the store after it. -/
def outcome (store : S) (action : ExceptT Failure (StateM S) α) : Except Failure α × S :=
  (action.run.run store).run

theorem outcome_pure (store : S) (value : α) :
    outcome store (pure value) = (.ok value, store) := rfl

theorem outcome_liftM (store : S) (action : StateM S α) :
    outcome store (liftM action) = (.ok (action.run store).1, (action.run store).2) := rfl

theorem outcome_liftExcept (store : S) (result : Except Failure α) :
    outcome store (liftM result : ExceptT Failure (StateM S) α) = (result, store) := by
  cases result <;> rfl

theorem outcome_bind (store : S) (action : ExceptT Failure (StateM S) α)
    (next : α → ExceptT Failure (StateM S) β) :
    outcome store (action >>= next) =
      match outcome store action with
      | (.ok value, after) => outcome after (next value)
      | (.error failure, after) => (.error failure, after) := by
  simp only [outcome, ExceptT.run_bind, StateT.run_bind]
  rcases action.run.run store with ⟨_ | _, _⟩ <;> rfl

theorem outcome_map (store : S) (action : ExceptT Failure (StateM S) α) (f : α → β) :
    outcome store (do return f (← action)) =
      ((outcome store action).1.map f, (outcome store action).2) := by
  rw [outcome_bind]
  rcases outcome store action with ⟨_ | _, _⟩ <;> rfl

end Outcome

end SettingsLang

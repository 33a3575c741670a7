import FreeDV.Lib.Transition

/-!
# History variables

A transition system may be watched: each step changes a history that no step
looks at. What holds of the system without its history still holds.
-/

set_option autoImplicit false

namespace FreeDV.Lib

variable {σ α η : Type*}

/-- `next` with a history. `record` is given the state in front of a step, and the history so
far. -/
def withHistory (next : σ → α → Option σ) (record : σ → α → η → η) (watched : σ × η)
    (action : α) : Option (σ × η) :=
  (next watched.1 action).map fun after => (after, record watched.1 action watched.2)

variable {next : σ → α → Option σ} {record : σ → α → η → η}
  {start state : σ} {begun history : η}

theorem withHistory_eq_some {watched after : σ × η} {action : α} :
    withHistory next record watched action = some after ↔
      next watched.1 action = some after.1 ∧ after.2 = record watched.1 action watched.2 := by
  rw [withHistory, Option.map_eq_some_iff]
  constructor
  · rintro ⟨state, taken, rfl⟩
    exact ⟨taken, rfl⟩
  · rintro ⟨taken, recorded⟩
    exact ⟨after.1, taken, by rw [← recorded]⟩

/-- A history does not change what can happen. -/
theorem Reachable.forget (allowed : σ → α → Prop)
    (reachable : Reachable (withHistory next record) (fun watched => allowed watched.1)
      (start, begun) (state, history)) : Reachable next allowed start state := by
  refine reachable.invariant (fun watched => Reachable next allowed start watched.1) .start ?_
  intro before action after known permitted taken
  exact known.step action permitted (withHistory_eq_some.mp taken).1

/-- Invariant rule for a state together with its history. Steps may use what is known of the
states the system reaches. -/
theorem Reachable.with_history (allowed : σ → α → Prop) (property : σ → η → Prop)
    (initial : property start begun)
    (preserved : ∀ before history action after, Reachable next allowed start before →
      property before history → allowed before action → next before action = some after →
      property after (record before action history))
    (reachable : Reachable (withHistory next record) (fun watched => allowed watched.1)
      (start, begun) (state, history)) : property state history := by
  have both : Reachable (withHistory next record) (fun watched => allowed watched.1)
      (start, begun) (state, history) ∧ property state history := by
    refine reachable.invariant (fun watched => Reachable (withHistory next record)
      (fun watched => allowed watched.1) (start, begun) watched ∧ property watched.1 watched.2)
      ⟨.start, initial⟩ ?_
    rintro ⟨before, history⟩ action ⟨after, later⟩ ⟨reached, known⟩ permitted taken
    refine ⟨reached.step action permitted taken, ?_⟩
    obtain ⟨stepped, recorded⟩ := withHistory_eq_some.mp taken
    cases recorded
    exact preserved before history action after (reached.forget allowed) known permitted stepped
  exact both.2

end FreeDV.Lib

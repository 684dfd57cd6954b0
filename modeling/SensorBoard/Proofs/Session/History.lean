import SensorBoard.Proofs.Session.Views

namespace SensorBoard

-- One action of a session.
structure Entry (L ε κ : Type) where
  action : Action L κ
  answer : Answer ε κ
  events : List (Event ε κ)

namespace Board

variable [Link L ε]

def entry (b : Board L κ) (a : Action L κ) : Entry L ε κ where
  action := a
  answer := (b.act a).result
  events := (b.act a).events

def history (b : Board L κ) : List (Action L κ) → List (Entry L ε κ)
  | []      => []
  | a :: as => b.entry a :: (b.act a).board.history as

theorem history_actions (b : Board L κ) (as : List (Action L κ)) :
    (b.history as).map (·.action) = as := by
  induction as generalizing b
  case nil          => rfl
  case cons _ _ hi  => simp [history, entry, hi]

theorem history_answers (b : Board L κ) (as : List (Action L κ)) :
    (b.history as).map (·.answer) = (b.play as).result := by
  induction as generalizing b
  case nil          => rfl
  case cons _ _ hi  => simp [history, entry, play_cons, hi]

theorem history_events (b : Board L κ) (as : List (Action L κ)) :
    (b.history as).flatMap (·.events) = (b.play as).events := by
  induction as generalizing b
  case nil          => rfl
  case cons _ _ hi  => simp [history, entry, play_cons, hi]

-- Whatever happens in a session happens in one of its actions.
theorem exists_act_of_mem_play {b : Board L κ} {e : Event ε κ} (h : e ∈ (b.play as).events) :
    ∃ before a after, as = before ++ a :: after ∧ e ∈ ((b.play before).board.act a).events := by
  induction as generalizing b
  case nil => simp [play_nil] at h
  case cons a as hi =>
    rw [play_cons] at h
    cases List.mem_append.mp h
    case inl h => exact ⟨[], a, as, rfl, h⟩
    case inr h =>
      have ⟨before, a', after, has, he⟩ := hi h
      exact ⟨a :: before, a', after, has ▸ rfl, he⟩

end Board

end SensorBoard

import SensorBoard.Proofs.Session.Views

open scoped List

namespace SensorBoard

-- The callbacks that come with the requests for processors in a session.
def callbacks (as : List (Action L κ)) : List κ :=
  as.filterMap Action.callback?

theorem callbacks_concat (as : List (Action L κ)) (a : Action L κ) :
    callbacks (as ++ [a]) = callbacks as ++ a.callback?.toList := by
  cases h : a.callback? <;> simp [callbacks, h]

def Event.isWrite : Event ε κ → Bool
  | write .. => true
  | _        => false

namespace Board

-- The callbacks in the queue, oldest first.
def waiting (b : Board L κ) : List κ :=
  b.pending.map (·.callback)

-- One action moves callbacks from the caller to the queue and from there to the events. It loses
-- none, and it repeats none.
theorem Step.callbacks_perm {b b' : Board L κ} {es : List (Event ε κ)} (e : Step b a es b') :
    (a.callback?.toList ++ b.waiting).Perm (completions es ++ b'.waiting) := by
  cases e with
  | aside _ _ _ ha he =>
    rw [Action.callback?_of_isAside ha, he.completions_eq]
    rfl
  | refused _ _ ha he =>
    rw [ha, completions_append, he.completions_eq]
    rfl
  | requested _ _ hp he =>
    rw [callback?_of_creation? hp, he.completions_eq]
    simpa [waiting] using (List.perm_append_singleton ..).symm
  | singletonFound ha | singletonMade ha =>
    rw [Action.callback?_of_singleton? ha]
    rfl
  | rerouted he | removed _ _ _ he =>
    rw [he.completions_eq]
    rfl
  | sampled =>
    rw [completions_cons, completions_deliver]
    rfl
  | malformed _ _ _ hp | created _ _ _ hp =>
    exact .of_eq (by simp [Action.callback?, Operation.callback?, Event.completion?, waiting, hp])
  | aborted =>
    rw [completions_aborted]
    exact .of_eq (by simp [Action.callback?, Operation.callback?, waiting])
  | tornDown _ he =>
    rw [completions_append, completions_aborted, he.completions_eq]
    exact .of_eq (by simp [Action.callback?, Operation.callback?, waiting, withLink])
  | channelFound | channelMade | subscribed | unsubscribed | dropped | handled | unexpected => rfl

-- The end of a board runs what is left in the queue, and nothing else.
theorem completions_close (b : Board L κ) : completions (b.close : List (Event ε κ)) = b.waiting :=
  completions_aborted b.pending

variable [Link L ε]

-- The conservation law for sessions.
theorem play_callbacks_perm (b : Board L κ) (as : List (Action L κ)) :
    callbacks as ++ b.waiting ~ completions (b.play as).events ++ (b.play as).board.waiting := by
  apply play_induction
    (motive := fun done es b' => callbacks done ++ b.waiting ~ completions es ++ b'.waiting)
  case start => rfl
  case step =>
    intro a _ done es b₁ es' b₂ h e
    have e := e.callbacks_perm
    calc callbacks (done ++ [a]) ++ b.waiting
      _ = callbacks done ++ (a.callback?.toList ++ b.waiting) := by simp [callbacks_concat]
      _ ~ a.callback?.toList ++ (callbacks done ++ b.waiting) := List.perm_append_comm_assoc ..
      _ ~ a.callback?.toList ++ (completions es ++ b₁.waiting) := h.append_left _
      _ ~ completions es ++ (a.callback?.toList ++ b₁.waiting) := List.perm_append_comm_assoc ..
      _ ~ completions es ++ (completions es' ++ b₂.waiting) := e.append_left _
      _ = completions (es ++ es') ++ b₂.waiting := by simp

-- Every request for a processor runs its callback once, when the session and its board have come to
-- an end. Until then, what has not been run is in the queue. The end itself runs the queue from the
-- oldest entry on and leaves the link alone.
theorem play_runs_each_callback_once
    (link : L) (name : Nat) (filters : Processor.FilterTable) (as : List (Action L κ)) :
    let start : Board L κ := withFilters link name filters
    let o := start.play as
    completions (o.events ++ o.board.close) ~ callbacks as ∧
    (∀ n, let o := start.play (as.take n)
      (callbacks (as.take n)).length = (completions o.events).length + o.board.pending.length) ∧
    o.board.close = o.board.pending.map (fun p => (.failed p.callback .aborted : Event ε κ)) ∧
    (o.board.close : List (Event ε κ)).countP Event.isWrite = 0 := by
  intro start o
  have h (as : List (Action L κ)) :
      callbacks as ~ completions (start.play as).events ++ (start.play as).board.waiting := by
    simpa [start, withFilters, waiting] using start.play_callbacks_perm as
  refine ⟨?_, fun n => ?_, rfl, ?_⟩
  · rw [completions_append, completions_close]
    exact (h as).symm
  · simpa [waiting] using (h (as.take n)).length_eq
  · simp [close, abortPending, Event.isWrite]

end Board

end SensorBoard

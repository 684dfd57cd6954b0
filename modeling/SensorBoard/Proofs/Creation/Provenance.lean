import SensorBoard.Proofs.Tables.Coherence

namespace SensorBoard

-- The processor that is handed over, if there is one.
def Event.delivery? : Event ε κ → Option Signal
  | created _ s                                            => some s
  | write .. | sample .. | custom .. | failed .. | notice _ => none

-- The processors that callbacks have been given, in order.
def deliveries (es : List (Event ε κ)) : List Signal :=
  es.filterMap Event.delivery?

section Deliveries

variable {es es₁ es₂ : List (Event ε κ)}

@[simp]
theorem deliveries_nil : deliveries ([] : List (Event ε κ)) = [] :=
  rfl

@[simp]
theorem deliveries_append : deliveries (es₁ ++ es₂) = deliveries es₁ ++ deliveries es₂ :=
  List.filterMap_append

@[simp]
theorem deliveries_cons :
    deliveries (e :: es) = (Event.delivery? e).toList ++ deliveries es := by
  cases e <;> rfl

-- Only what completes a request can hand over a processor.
theorem deliveries_of_completions (h : completions es = []) : deliveries es = [] := by
  apply List.filterMap_eq_nil_iff.mpr
  intro e he
  have := List.filterMap_eq_nil_iff.mp h e he
  cases e <;> simp_all [Event.completion?, Event.delivery?]

theorem deliveries_aborted (ps : List (PendingCreation κ)) :
    deliveries (ps.map fun p => (.failed p.callback .aborted : Event ε κ)) = [] := by
  simp [deliveries, Event.delivery?]

theorem Outbound.deliveries_eq (h : Outbound n es) : deliveries es = [] :=
  h.filterMap_eq (fun _ _ => rfl) fun _ => rfl

end Deliveries

namespace Board

-- The identity of the signal that the board makes next.
def nextId (b : Board L κ) : SignalId :=
  ⟨.board b.name, b.issued⟩

-- The board has given out the identity.
def Issued (b : Board L κ) (i : SignalId) : Prop :=
  i.maker = .board b.name ∧ i.serial < b.issued

theorem not_issued_nextId (b : Board L κ) : ¬b.Issued b.nextId :=
  fun h => Nat.lt_irrefl _ h.right

-- What is new on file, and what has been handed over, bears the next identity.
structure Mints (b : Board L κ) (es : List (Event ε κ)) (b' : Board L κ) : Prop where
  name_eq   : b'.name = b.name
  issued_le : b.issued ≤ b'.issued
  filed     : b'.lookup? h = some s → b.lookup? h = some s ∨
                s.id = b.nextId ∧ b.issued < b'.issued ∧ (s.isProcessor → s ∈ deliveries es)
  delivered : s ∈ deliveries es → s.id = b.nextId ∧ b.issued < b'.issued
  nodup     : (deliveries es).Nodup

namespace Mints

variable {b b' : Board L κ} {es : List (Event ε κ)}

theorem issued (m : Mints b es b') (h : b.Issued i) : b'.Issued i where
  left  := m.name_eq ▸ h.left
  right := Nat.lt_of_lt_of_le h.right m.issued_le

theorem issued_nextId (m : Mints b es b') (h : b.issued < b'.issued) : b'.Issued b.nextId where
  left  := m.name_eq ▸ rfl
  right := h

-- Nothing is made, although signals may go.
theorem none (hn : b'.name = b.name) (hi : b'.issued = b.issued)
    (hl : ∀ {h s}, b'.lookup? h = some s → b.lookup? h = some s) (he : deliveries es = []) :
    Mints b es b' where
  name_eq     := hn
  issued_le   := Nat.le_of_eq hi.symm
  filed h     := .inl (hl h)
  delivered h := by simp [he] at h
  nodup       := by simp [he]

theorem device (b : Board L κ) (h : Header) (format : Sample.Format) (handler : Handler κ)
    (he : deliveries es = []) :
    Mints b es ((b.file (b.device h format)).register h handler) where
  name_eq   := rfl
  issued_le := Nat.le_succ _
  filed hl := by
    rw [lookup?_file_register] at hl
    split at hl
    case isTrue =>
      cases hl
      exact .inr ⟨rfl, Nat.lt_succ_self _, nofun⟩
    case isFalse => exact .inl hl
  delivered h := by simp [he] at h
  nodup       := by simp [he]

theorem created (b : Board L κ) (p : PendingCreation κ) (i : UInt8) (ps : List (PendingCreation κ))
    (he : deliveries es = [b.confirmed p i]) :
    Mints b es { b.install (b.confirmed p i) with pending := ps } where
  name_eq   := rfl
  issued_le := Nat.le_succ _
  filed {h s} hl := by
    have hl : (b.install (b.confirmed p i)).lookup? h = some s := hl
    rw [lookup?_install] at hl
    split at hl
    case isTrue =>
      cases hl
      exact .inr ⟨rfl, Nat.lt_succ_self _, by simp [he]⟩
    case isFalse => exact .inl hl
  delivered {s} hs := by
    have hs : s = b.confirmed p i := by simpa [he] using hs
    subst hs
    exact ⟨rfl, Nat.lt_succ_self _⟩
  nodup := by simp [he]

end Mints

theorem Step.mints {b b' : Board L κ} {es : List (Event ε κ)} (e : Step b a es b') :
    Mints b es b' := by
  cases e with
  | aside _ _ _ _ he | requested _ _ _ he | rerouted he => exact .none rfl rfl id he.deliveries_eq
  | refused _ _ _ he =>
    refine .none rfl rfl id ?_
    simp [he.deliveries_eq, Event.delivery?]
  | singletonFound | channelFound | subscribed | unsubscribed | dropped | handled | unexpected
  | malformed => exact .none rfl rfl id rfl
  | singletonMade | channelMade => exact .device _ _ _ _ rfl
  | sampled => exact .none rfl rfl id <| deliveries_of_completions completions_deliver
  | created => exact .created _ _ _ _ rfl
  | aborted => exact .none rfl rfl id <| deliveries_aborted _
  | @removed s _ _ link _ _ he =>
    refine .none rfl rfl ?_ he.deliveries_eq
    intro h t hl
    rw [lookup?_forget] at hl
    split at hl
    case isTrue  => contradiction
    case isFalse => exact hl
  | tornDown link he =>
    refine .none b.name_cleared b.issued_cleared ?_ ?_
    · intro h s hl
      have hl : b.cleared.lookup? h = some s := hl
      rw [lookup?_cleared] at hl
      exact (Option.filter_eq_some_iff.mp hl).left
    · simp [he.deliveries_eq, deliveries_aborted]

-- Everything on file and everything handed over has been made by the board. No processor has come
-- on file without being handed over, and none has been handed over twice.
structure Provenance (es : List (Event ε κ)) (b : Board L κ) : Prop where
  issued_filed     : b.lookup? h = some s → b.Issued s.id
  issued_delivered : s ∈ deliveries es → b.Issued s.id
  delivered        : b.lookup? h = some s → s.isProcessor → s ∈ deliveries es
  nodup            : (deliveries es).Nodup

theorem Provenance.extend {b b' : Board L κ} {es es' : List (Event ε κ)} (p : Provenance es b)
    (m : Mints b es' b') : Provenance (es ++ es') b' where
  issued_filed hl := by
    cases m.filed hl
    case inl hl => exact m.issued (p.issued_filed hl)
    case inr h  => exact h.left ▸ m.issued_nextId h.right.left
  issued_delivered hs := by
    rw [deliveries_append] at hs
    cases List.mem_append.mp hs
    case inl hs => exact m.issued (p.issued_delivered hs)
    case inr hs =>
      have ⟨hi, hn⟩ := m.delivered hs
      exact hi ▸ m.issued_nextId hn
  delivered hl hp := by
    rw [deliveries_append]
    apply List.mem_append.mpr
    cases m.filed hl
    case inl hl => exact .inl <| p.delivered hl hp
    case inr h  => exact .inr <| h.right.right hp
  nodup := by
    rw [deliveries_append]
    refine List.nodup_append.mpr ⟨p.nodup, m.nodup, ?_⟩
    -- What has been handed over before bears an earlier identity.
    rintro s hs _ hs' rfl
    exact b.not_issued_nextId <| (m.delivered hs').left ▸ p.issued_delivered hs

variable [Link L ε]

theorem play_provenance
    (link : L) (name : Nat) (filters : Processor.FilterTable) (as : List (Action L κ)) :
    let o := (withFilters link name filters : Board L κ).play as
    Provenance o.events o.board := by
  apply play_induction (motive := fun _ es b => Provenance es b)
  case start =>
    constructor
    case issued_filed     => simp [lookup?_withFilters]
    case issued_delivered => simp
    case delivered        => simp [lookup?_withFilters]
    case nodup            => simp
  case step =>
    intro _ _ _ _ _ _ _ p e
    exact p.extend e.mints

end Board

end SensorBoard

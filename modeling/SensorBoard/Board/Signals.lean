import SensorBoard.Board.Basic

namespace SensorBoard

namespace Board

-- Makes a device signal with the number that comes next.
def mint (b : Board L κ) (h : Header) (format : Sample.Format) : StateM Nat Signal :=
  fun issued => (.device ⟨.board b.name, issued⟩ h format, issued + 1)

-- The signal at the header. The flag tells whether it is new.
def ensureSignal (b : Board L κ) (h : Header) (format : Sample.Format) :
    Signal × Bool × Board L κ :=
  let ((s, created, signals), issued) :=
    Id.run <| StateT.run (b.signals.getOrInsertWith h (b.mint h format)) b.issued
  (s, created, { b with signals, issued })

def register (b : Board L κ) (h : Header) (handler : Handler κ) : Board L κ :=
  { b with routes := (b.routes.register h handler).2 }

-- The channel `index` of a signal. Only the first call gives it a format and a route.
def idSignal (b : Board L κ) (s : Signal) (index : UInt8) : Outcome L ε κ Signal :=
  let h := s.header.subChannel index
  match b.ensureSignal h .unsized with
  | (s, true,  b) => ⟨s, [.notice (.idSignalCreated h)], b.register h .sampleWithId⟩
  | (s, false, b) => ⟨s, [], b⟩

-- The one signal at a header. Only the first call gives it a format, but every call routes its
-- packets anew. So a route that was taken over by a handler is restored.
def singletonSignal (b : Board L κ) (h : Header) (format : Sample.Format) : Outcome L ε κ Signal :=
  match b.ensureSignal h format with
  | (s, true,  b) => ⟨s, [.notice (.signalCreated h)], b.register h .sampleWithoutId⟩
  | (s, false, b) => ⟨s, [], b.register h .sampleWithoutId⟩

end Board

-- The signals that every board has.
inductive BuiltIn where
  -- `1` while the button is pressed.
  | switchState
  -- The orientation.
  | quaternion
  -- `1` while external power is attached.
  | powerStatus
  -- `1` while charging.
  | chargeStatus
  -- The answer to a read of the power status.
  | chargerStatus
deriving DecidableEq

namespace BuiltIn

def header : BuiltIn → Header
  | switchState   => { module := Module.switch, register := Register.switchState }
  | quaternion    => { module := Module.sensorFusion, register := Register.quaternion }
  | powerStatus   => { module := Module.settings, register := Register.powerStatus }
  | chargeStatus  => { module := Module.settings, register := Register.chargeStatus }
  | chargerStatus => { module := Module.settings, register := Register.read Register.powerStatus }

def format : BuiltIn → Sample.Format
  | quaternion                                                => .quaternion
  | switchState | powerStatus | chargeStatus | chargerStatus => .statusByte

end BuiltIn

namespace Board

def builtIn (b : Board L κ) (s : BuiltIn) : Outcome L ε κ Signal :=
  b.singletonSignal s.header s.format

variable {b : Board L κ}

theorem route?_register :
    (b.register h handler).route? h' = if h = h' then some handler else b.route? h' :=
  RouteTable.get?_register

theorem ensureSignal_of_some (hs : b.signals.get? h = some s) :
    b.ensureSignal h format = (s, false, b) := by
  rw [ensureSignal, Registry.getOrInsertWith_of_some hs]
  rfl

theorem ensureSignal_of_none (hs : b.signals.get? h = none) :
    b.ensureSignal h format =
      let s := .device ⟨.board b.name, b.issued⟩ h format
      (s, true, { b with signals := (b.signals.insert s).2, issued := b.issued + 1 }) := by
  rw [ensureSignal, Registry.getOrInsertWith_of_none hs]
  rfl

end Board

end SensorBoard

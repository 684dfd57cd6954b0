import SensorBoard.Board.Basic

namespace SensorBoard.Board

variable [Link L ε]

-- Attempts to write the command until the link has accepted or refused it.
def send (b : Board L κ) (c : Command) : Outcome L ε κ (Except (BoardError ε) Unit) :=
  match c.encode with
  | .error e => ⟨.error (.commandTooLong e), [], b⟩
  | .ok bytes =>
    let d := Link.write b.link bytes
    let writes := d.answers.map (.write bytes)
    match d.verdict with
    | .error fault => ⟨.error (.link fault), writes, b.withLink d.link⟩
    | .ok ()       => ⟨.ok (), writes ++ [.notice (.sent bytes)], b.withLink d.link⟩

-- Asks for the current value of a signal. The answer comes as a packet.
def read (b : Board L κ) (s : Signal) : Outcome L ε κ (Except (BoardError ε) Unit) :=
  b.send (.read s.header)

def stopAdvertising (b : Board L κ) : Outcome L ε κ (Except (BoardError ε) Unit) :=
  b.send .stopAdvertising

variable {b : Board L κ}

theorem send_of_refused {c : Command} (h : (Link.write b.link c.bytes).verdict = .error fault) :
    b.send c = ⟨
      .error (.link fault),
      (Link.write b.link c.bytes).answers.map (.write c.bytes),
      b.withLink (Link.write b.link c.bytes).link
    ⟩ := by
  simp [send, h]

theorem send_of_accepted {c : Command} (h : (Link.write b.link c.bytes).verdict = .ok ()) :
    b.send c = ⟨
      .ok (),
      (Link.write b.link c.bytes).answers.map (.write c.bytes) ++ [.notice (.sent c.bytes)],
      b.withLink (Link.write b.link c.bytes).link
    ⟩ := by
  simp [send, h]

-- A command has no effect on the board but for its link.
theorem send_board {c : Command} :
    (b.send c).board = b.withLink (Link.write b.link c.bytes).link := by
  cases h : (Link.write b.link c.bytes).verdict
  case error => rw [send_of_refused h]
  case ok    => rw [send_of_accepted h]

end SensorBoard.Board

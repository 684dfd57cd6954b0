namespace SensorBoard

namespace Module

abbrev switch : UInt8 := 0x01

abbrev processor : UInt8 := 0x09

abbrev event : UInt8 := 0x0A

abbrev settings : UInt8 := 0x11

abbrev sensorFusion : UInt8 := 0x19

end Module

namespace Register

-- Set on a register number to ask for a read. The board answers on the flagged number.
abbrev readFlag : UInt8 := 0x80

abbrev read (register : UInt8) : UInt8 :=
  readFlag ||| register

theorem read_idem (register : UInt8) : read (read register) = read register := by
  simp [read, ← UInt8.or_assoc]

abbrev switchState : UInt8 := 0x01

abbrev powerStatus : UInt8 := 0x11

abbrev chargeStatus : UInt8 := 0x12

abbrev stopAdvertising : UInt8 := 0x17

abbrev quaternion : UInt8 := 0x07

-- The board confirms a creation on the register that requested it.
abbrev addProcessor : UInt8 := 0x02

abbrev processorOutput : UInt8 := 0x03

abbrev removeProcessor : UInt8 := 0x06

abbrev removeAllProcessors : UInt8 := 0x08

abbrev eventEntry : UInt8 := 0x02

abbrev removeEventCommand : UInt8 := 0x04

abbrev removeAllEventCommands : UInt8 := 0x05

end Register

namespace Wire

-- Stands for an absent channel where the wire format has a fixed place for one.
abbrev noChannel : UInt8 := 0xFF

-- The longest command that a link takes in one write.
abbrev maxCommandLength : Nat := 20

-- What a creation command spends before its configuration: module, opcode, the three bytes of the
-- source header, filter id.
abbrev createOverhead : Nat := 6

end Wire

end SensorBoard

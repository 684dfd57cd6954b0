namespace SensorBoard.Text

def hex (b : UInt8) : String :=
  String.ofList [Nat.digitChar (b.toNat / 16), Nat.digitChar (b.toNat % 16)]

-- A byte string as it stands in notices, for example `[09, 02, ff]`.
def hexList (bs : List UInt8) : String :=
  "[" ++ ", ".intercalate (bs.map hex) ++ "]"

end SensorBoard.Text

namespace SensorBoard.Text

def commaSeparated (items : List String) : String :=
  ", ".intercalate items

-- A constructor with one argument.
def applied (name argument : String) : String :=
  name ++ "(" ++ argument ++ ")"

def optional : Option String → String
  | none   => "None"
  | some s => applied "Some" s

def list (items : List String) : String :=
  "[" ++ commaSeparated items ++ "]"

def entry (e : String × String) : String :=
  e.1 ++ ": " ++ e.2

def map (entries : List (String × String)) : String :=
  "\x7b" ++ commaSeparated (entries.map entry) ++ "\x7d"

def record (name : String) (fields : List (String × String)) : String :=
  name ++ " \x7b " ++ commaSeparated (fields.map entry) ++ " \x7d"

-- A record that has more fields than it shows.
def openRecord (name : String) (fields : List (String × String)) : String :=
  name ++ " \x7b " ++ commaSeparated (fields.map entry ++ [".."]) ++ " \x7d"

-- For texts of letters, digits and hyphens, which is what names are made of.
def quoted (s : String) : String :=
  "\"" ++ s ++ "\""

end SensorBoard.Text

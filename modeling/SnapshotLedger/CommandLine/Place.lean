import SnapshotLedger.Text.Octets

/-!
# Places

Where files and folders are. A path is a row of names with separators between them; the place that it leads to
is given by the names that remain when `.`, `..` and repeated separators are resolved, so that `c.json` and
`./c.json` lead to one place. Places are counted from the folder in which a command runs. The folders above that
one have no names of their own here: their places begin with `..`.
-/

namespace SnapshotLedger.CommandLine

/-- The name of a file or a folder. -/
abbrev FileName := List UInt8

namespace FileName

/-- The name that a text spells. -/
def ofText (s : String) : FileName := Text.octets s.toList

/-- What separates the names in a path. -/
def separator : UInt8 := '/'.toUInt8

/-- The name of the root of all folders. -/
def root : FileName := [separator]

/-- The name that leads to the folder itself. -/
def self : FileName := ofText "."

/-- The name that leads to the folder around it. -/
def around : FileName := ofText ".."

/-- The number of octets in the longest name that a file can have. -/
def longest : Nat := 255

/-- Whether no file can have the name. -/
def isTooLong (name : FileName) : Bool := longest < name.length

end FileName

/-- The names that lead to a file or a folder. -/
abbrev Place := List FileName

namespace Place

/-- The root of all folders. -/
def root : Place := [FileName.root]

/-- The folder around a place. Around the root there is only the root. -/
def up (place : Place) : Place :=
  if place = root then root
  else match place.getLast? with
    | none => [FileName.around]
    | some name => if name = FileName.around then place ++ [FileName.around] else place.dropLast

/-- The place that a name leads to. -/
def step (place : Place) (name : FileName) : Place :=
  if name.isEmpty || name = FileName.self then place
  else if name = FileName.around then place.up
  else place ++ [name]

/-- The names in a path. A repeated separator stands around an empty one. -/
def namesOf (path : List UInt8) : List FileName := Text.splitAt FileName.separator path

/-- Where a path starts: at the root if a separator is in front. -/
def start (path : List UInt8) : Place := if path.head? = some FileName.separator then root else []

/-- The place that a path leads to. -/
def ofPath (path : List UInt8) : Place := (namesOf path).foldl step (start path)

/-- The places that a path passes, its own the last one. -/
def along (path : List UInt8) : List Place := (namesOf path).scanl step (start path)

/-- The path of a place. -/
def path (place : Place) : List UInt8 := List.intercalate [FileName.separator] place

/-- The folders in which a place lies. -/
def folders : Place → List Place
  | [] => []
  | name :: names => [] :: (folders names).map (name :: ·)

/-- Whether there is a folder at a place whatever the files are. -/
def isFixed (place : Place) : Bool := place = root || place.all (· = FileName.around)

/-- The name at the end of a place. -/
def name (place : Place) : FileName := place.getLast?.getD []

end Place

end SnapshotLedger.CommandLine

import Mathlib.Data.List.DropRight

/-!
# The comparators of the file lists

`FileComparators` orders the entries of a directory by name, size or time.  A
string of Java is a list of UTF-16 code units, and all methods look at single
units; Java's tables of digits and lower case letters are a parameter.  Only the
sign of a comparison matters, so it is an `Ordering`.
-/

namespace RoundSync.Explorer

/-- A string of Java, by its code units. -/
abbrev Units := List UInt16

/-- The tables of `Character`.  What has a lower case is no digit, and its lower
case is no digit either. -/
structure CharacterTables where
  isDigit : UInt16 → Bool
  toLowerCase : UInt16 → UInt16
  isDigit_toLowerCase : ∀ c, isDigit (toLowerCase c) = isDigit c

/-- The digit zero. -/
def zero : UInt16 := 48

section Names

variable (tables : CharacterTables)

/-- The digits that a string starts with, and what comes behind them. -/
def digitRun (s : Units) : Units × Units :=
  (s.takeWhile tables.isDigit, s.dropWhile tables.isDigit)

/-- What is left of a run of digits without the zeros in front of its last digit. -/
def skipLeadingZeros : Units → Units
  | c :: d :: rest => if c = zero then skipLeadingZeros (d :: rest) else c :: d :: rest
  | short => short

/-- Two runs of digits: by their significant lengths, their significant digits
and their lengths. -/
def compareRuns (left right : Units) : Ordering :=
  let leftSignificant := skipLeadingZeros left
  let rightSignificant := skipLeadingZeros right
  (compare leftSignificant.length rightSignificant.length).then <|
    (List.compareLex compare leftSignificant rightSignificant).then <|
      compare left.length right.length

/-- The loop on what is left of two names, one turn for each unit of fuel; every
turn goes on in the left name. -/
def compareFrom : Nat → Units → Units → Ordering
  | fuel + 1, c :: left, d :: right =>
      if tables.isDigit c ∧ tables.isDigit d then
        let (leftRun, leftRest) := digitRun tables (c :: left)
        let (rightRun, rightRest) := digitRun tables (d :: right)
        (compareRuns leftRun rightRun).then (compareFrom fuel leftRest rightRest)
      else
        (compare (tables.toLowerCase c) (tables.toLowerCase d)).then (compareFrom fuel left right)
  | _, left, right => compare left.length right.length

/-- `compareNaturalNames`; either name may be null. -/
def compareNaturalNames : Option Units → Option Units → Ordering
  | none, none => .eq
  | none, some _ => .lt
  | some _, none => .gt
  | some left, some right =>
      (compareFrom tables left.length left right).then (List.compareLex compare left right)

end Names

/-! ## Items -/

def compareDirectoryFirst (leftDirectory rightDirectory : Bool) : Ordering :=
  if leftDirectory = rightDirectory then .eq else if leftDirectory then .lt else .gt

/-- What the comparators read of an item of the explorer. -/
structure Item where
  isDir : Bool
  name : Units
  size : Int
  modTime : Int

/-- What the comparators read of a file of the device. -/
structure DeviceFile where
  isDirectory : Bool
  name : Units
  length : Int
  lastModified : Int

section Items

variable (tables : CharacterTables)

def SortAlphaDescending (fileItem other : Item) : Ordering :=
  (compareDirectoryFirst fileItem.isDir other.isDir).then
    (compareNaturalNames tables (some other.name) (some fileItem.name))

def SortAlphaAscending (fileItem other : Item) : Ordering :=
  (compareDirectoryFirst fileItem.isDir other.isDir).then
    (compareNaturalNames tables (some fileItem.name) (some other.name))

def SortSizeDescending (fileItem other : Item) : Ordering :=
  (compareDirectoryFirst fileItem.isDir other.isDir).then <|
    if fileItem.isDir then compareNaturalNames tables (some fileItem.name) (some other.name)
    else compare other.size fileItem.size

def SortSizeAscending (fileItem other : Item) : Ordering :=
  (compareDirectoryFirst fileItem.isDir other.isDir).then <|
    if fileItem.isDir then compareNaturalNames tables (some fileItem.name) (some other.name)
    else compare fileItem.size other.size

def SortModTimeDescending (fileItem other : Item) : Ordering :=
  (compareDirectoryFirst fileItem.isDir other.isDir).then (compare other.modTime fileItem.modTime)

def SortModTimeAscending (fileItem other : Item) : Ordering :=
  (compareDirectoryFirst fileItem.isDir other.isDir).then (compare fileItem.modTime other.modTime)

def SortFileAlphaDescending (file other : DeviceFile) : Ordering :=
  (compareDirectoryFirst file.isDirectory other.isDirectory).then
    (compareNaturalNames tables (some other.name) (some file.name))

def SortFileAlphaAscending (file other : DeviceFile) : Ordering :=
  (compareDirectoryFirst file.isDirectory other.isDirectory).then
    (compareNaturalNames tables (some file.name) (some other.name))

def SortFileSizeDescending (file other : DeviceFile) : Ordering :=
  (compareDirectoryFirst file.isDirectory other.isDirectory).then <|
    if file.isDirectory then compareNaturalNames tables (some file.name) (some other.name)
    else compare other.length file.length

def SortFileSizeAscending (file other : DeviceFile) : Ordering :=
  (compareDirectoryFirst file.isDirectory other.isDirectory).then <|
    if file.isDirectory then compareNaturalNames tables (some file.name) (some other.name)
    else compare file.length other.length

def SortFileModTimeDescending (file other : DeviceFile) : Ordering :=
  (compareDirectoryFirst file.isDirectory other.isDirectory).then
    (compare other.lastModified file.lastModified)

def SortFileModTimeAscending (file other : DeviceFile) : Ordering :=
  (compareDirectoryFirst file.isDirectory other.isDirectory).then
    (compare file.lastModified other.lastModified)

end Items

end RoundSync.Explorer

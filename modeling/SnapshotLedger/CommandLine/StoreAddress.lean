import SnapshotLedger.CommandLine.Place
import SnapshotLedger.Text.Ascii

/-!
# Addresses of stores

A store is named by the path of its file, or by an address: the word `file:`, perhaps a host, a path, and behind
a question mark parameters that say how the file is used. In an address `%` and two hexadecimal digits stand for
an octet, and a `#` ends it. A store that is kept nowhere begins empty with every command.
-/

namespace SnapshotLedger.CommandLine

/-- How much may be done with the file of a store, from the least on. -/
inductive Access where
  | read
  | write
  /-- The file is made if it is missing. -/
  | create
  /-- There is no file. -/
  | memory
  deriving DecidableEq, Repr

namespace Access

/-- The access of a name. -/
def ofName? (s : String) : Option Access :=
  if s = "ro" then some read
  else if s = "rw" then some write
  else if s = "rwc" then some create
  else if s = "memory" then some memory
  else none

/-- The place of the access in their order. -/
def rank : Access → Nat
  | read => 0
  | write => 1
  | create => 2
  | memory => 3

/-- Whether a parameter may ask for an access where another one is in force. Doing without a file is always allowed. -/
def allows (inForce asked : Access) : Bool := asked = memory || asked.rank ≤ inForce.rank

end Access

/-- Where the octets of a store go. -/
inductive Backing where
  /-- A file that all users of the store can lock and share. -/
  | shared
  /-- A file without a memory that its users share. -/
  | unshared
  | memory
  deriving DecidableEq, Repr

/-- The backing of a name. -/
def Backing.ofName? (s : String) : Option Backing :=
  if s = "unix" || s = "unix-excl" then some shared
  else if s = "unix-dotfile" || s = "unix-none" then some unshared
  else if s = "memdb" then some memory
  else none

/-- Why an address leads to no store. -/
inductive AddressFault where
  /-- A NUL character at this octet. -/
  | withNul (place : Nat)
  | foreignHost (host : String)
  | unknownAccess (name : String)
  | unknownSharing (name : String)
  /-- An access that goes beyond the one before. -/
  | accessNotAllowed (name : String)
  | unknownBacking (name : String)
  deriving DecidableEq, Repr

/-- How the file of a store is used. -/
structure FileUse where
  access : Access := .create
  /-- Whether the file is taken to change no more, not even by this command. -/
  frozen : Bool := false
  /-- Whether users of the file can share what lies beside it. -/
  sharing : Bool := true
  deriving DecidableEq, Repr

/-- Where a store is kept. -/
inductive StoreAddress where
  | nowhere (writable : Bool)
  | file (path : List UInt8) (use : FileUse)
  deriving DecidableEq, Repr

/-- The path of a store that is kept nowhere. -/
def memoryPath : String := ":memory:"

/-- The word in front of an address. -/
def addressWord : String := "file:"

/-- The only host whose files can be reached. -/
def ownHost : String := "localhost"

/-- The octets that a part of an address stands for, with the escapes resolved. -/
def unescape : List Char → List UInt8
  | '%' :: a :: b :: r =>
    match Text.hexValue? a, Text.hexValue? b with
    | some x, some y => UInt8.ofNat (16 * x + y) :: unescape r
    | _, _ => '%'.toUInt8 :: unescape (a :: b :: r)
  | c :: r => String.utf8EncodeChar c ++ unescape r
  | [] => []

/-- What a part of an address stands for. An octet of zero ends it. -/
def partOctets (part : List Char) : List UInt8 := (unescape part).takeWhile (· ≠ 0)

/-- What a part of an address stands for, as a text. -/
def partText (part : List Char) : String := String.ofList (Text.ofOctets (partOctets part))

/-- The parameters of an address. -/
abbrev Parameters := List (String × String)

namespace Parameters

/-- The parameter that a part of an address stands for. -/
def ofPart (part : List Char) : String × String :=
  (partText (part.takeWhile (· ≠ '=')), partText ((part.dropWhile (· ≠ '=')).drop 1))

/-- The parameters that a text stands for, without those that have no name. -/
def ofChars (s : List Char) : Parameters := ((Text.splitAt '&' s).map ofPart).filter fun p => !p.1.isEmpty

/-- The access that is in force behind the parameters. -/
def access (ps : Parameters) : Except AddressFault Access :=
  ps.foldlM (fun (inForce : Access) p =>
    if p.1 = "mode" then
      match Access.ofName? p.2 with
      | none => .error (.unknownAccess p.2)
      | some asked => if inForce.allows asked then .ok asked else .error (.accessNotAllowed p.2)
    else if p.1 = "cache" && p.2 ≠ "shared" && p.2 ≠ "private" then .error (.unknownSharing p.2)
    else .ok inForce) .create

/-- The backing that the last parameter for it asks for. -/
def backing (ps : Parameters) : Except AddressFault Backing :=
  match ps.reverse.lookup "vfs" with
  | none => .ok .shared
  | some name =>
    match Backing.ofName? name with
    | some b => .ok b
    | none => .error (.unknownBacking name)

/-- The greatest number that is read as one. -/
def greatestNumber : Nat := 2147483647

/-- The number that a text begins with, hexadecimal behind `0x`; zero if it is too great. -/
def leadingNumber (s : List Char) : Nat :=
  let n := match s with
    | '0' :: x :: r =>
      match (r.takeWhile fun c => (Text.hexValue? c).isSome).filterMap Text.hexValue? with
      | [] => Text.digitsValue (s.takeWhile Char.isDigit)
      | ds => if x = 'x' || x = 'X' then ds.foldl (fun n d => 16 * n + d) 0
          else Text.digitsValue (s.takeWhile Char.isDigit)
    | _ => Text.digitsValue (s.takeWhile Char.isDigit)
  if n ≤ greatestNumber then n else 0

/-- Whether a text says yes. Of a number only the lowest eight bits count. -/
def saysYes (s : String) : Bool :=
  if s.toList.head?.any Char.isDigit then leadingNumber s.toList % 256 ≠ 0
  else ["on", "yes", "true"].contains (Text.lower s)

/-- Whether the first parameter of a name says yes. -/
def isOn (ps : Parameters) (name : String) : Bool := (ps.lookup name).any saysYes

end Parameters

namespace StoreAddress

/-- The address with a path and parameters. -/
def ofParts (path : List UInt8) (ps : Parameters) : Except AddressFault StoreAddress := do
  let access ← ps.access
  let backing ← ps.backing
  let frozen := ps.isOn "immutable"
  if access = .memory || path.isEmpty || path = FileName.ofText memoryPath then .ok (.nowhere (access ≠ .read))
  else if backing = .memory then .ok (.nowhere (access ≠ .read && !frozen))
  else .ok (.file path ⟨access, frozen, backing = .shared && !ps.isOn "nolock"⟩)

/-- What is left of an address behind its host, which stands between two separators and a third one. -/
def behindHost (s : List Char) : Except AddressFault (List Char) :=
  match s with
  | '/' :: '/' :: r =>
    let host := String.ofList (r.takeWhile (· ≠ '/'))
    if host.isEmpty || host = ownHost then .ok (r.dropWhile (· ≠ '/')) else .error (.foreignHost host)
  | _ => .ok s

/-- The address that is written behind the word for addresses. -/
def ofChars (s : List Char) : Except AddressFault StoreAddress := do
  let s := (← behindHost s).takeWhile (· ≠ '#')
  ofParts (partOctets (s.takeWhile (· ≠ '?'))) (.ofChars ((s.dropWhile (· ≠ '?')).drop 1))

/-- The address that a text stands for. -/
def ofText (s : String) : Except AddressFault StoreAddress :=
  match (FileName.ofText s).idxOf? 0 with
  | some place => .error (.withNul place)
  | none =>
    if addressWord.toList.isPrefixOf s.toList then ofChars (s.toList.drop addressWord.length)
    else if s.isEmpty || s = memoryPath then .ok (.nowhere true)
    else .ok (.file (FileName.ofText s) {})

/-- The place of the file, if the store is kept in one. -/
def place? : StoreAddress → Option Place
  | nowhere _ => none
  | file path _ => some (Place.ofPath path)

end StoreAddress

end SnapshotLedger.CommandLine

/-
  Locators: how a configuration names a database.

  A locator is a path, or a text behind the scheme `file:` with a path and settings. In
  the latter, `%` and two hexadecimal digits stand for a byte, and a setting may forbid
  to make or to change the database or ask for one in memory. A database in memory, or
  without a path, is empty when it is opened and gone when it is closed.
-/
import Autopilot.Bytes
import Autopilot.Text.Numeral

namespace Autopilot

/-- What is made of a log of writes that were not put into the database. -/
inductive LogUse where
  /-- It is passed over. -/
  | ignored
  /-- It cannot be read, so the database cannot be opened. -/
  | refused
  /-- It is read, and done away with if the database may be changed. -/
  | taken
  deriving DecidableEq

/-- What may be done to the file of a database. -/
structure Access where
  /-- It is made if it is not there. -/
  creates : Bool
  /-- It may be changed. -/
  writes : Bool
  log : LogUse
  deriving DecidableEq

/-- Where the tables of a database are kept. -/
inductive Storage where
  /-- Nowhere: they are gone when the database is closed. They may be forbidden to change. -/
  | transient (writes : Bool)
  | file (path : String) (access : Access)
  deriving DecidableEq

namespace Storage

/-! ## Bytes as characters -/

/-- The UTF-8 bytes of a text, as the characters of the same numbers. -/
def byteChars (s : String) : List Char :=
  (utf8 s).map fun b => Char.ofNat b.toNat

/-- The text that such characters spell. Bytes that are no UTF-8 are left as characters. -/
def ofByteChars (cs : List Char) : String :=
  (ofUtf8? (cs.map fun c => UInt8.ofNat c.toNat)).getD (String.ofList cs)

/-- Replaces every `%` with two digits by its byte. A zero byte ends the text. -/
def unescape : List Char → List Char
  | '%' :: high :: low :: rest =>
    match Text.digitBelow? 16 high, Text.digitBelow? 16 low with
    | some h, some l => if h + l = 0 then [] else Char.ofNat (16 * h + l) :: unescape rest
    | _, _ => '%' :: unescape (high :: low :: rest)
  | c :: rest => c :: unescape rest
  | [] => []

/-! ## Settings -/

/-- A setting of a locator. -/
structure Setting where
  name : String
  value : String

/-- Reads a setting; its value may be left out. -/
def Setting.read (cs : List Char) : Setting :=
  ⟨String.ofList (unescape (cs.takeWhile (· != '='))),
    String.ofList (unescape ((cs.dropWhile (· != '=')).drop 1))⟩

/-- The settings behind a question mark; one without a name is passed over. -/
def readSettings (query : List Char) : List Setting :=
  ((query.splitOn '&').map Setting.read).filter (·.name ≠ "")

/-- The values of the settings with a name. -/
def valuesOf (settings : List Setting) (name : String) : List String :=
  (settings.filter (·.name = name)).map (·.value)

/-- How a database is to be opened. -/
inductive Mode where
  | readOnly
  | readWrite
  | create
  | memory
  deriving DecidableEq

/-- The mode with a name. -/
def Mode.ofName? : String → Option Mode
  | "ro" => some readOnly
  | "rw" => some readWrite
  | "rwc" => some create
  | "memory" => some memory
  | _ => none

/-- How much a mode asks for. -/
def Mode.demand : Mode → Nat
  | memory => 0
  | readOnly => 1
  | readWrite => 2
  | create => 3

/-- How much may be asked for once a mode is set. A database in memory allows everything. -/
def Mode.allowance : Mode → Nat
  | memory => 3
  | mode => mode.demand

/-- Sets a mode, which may not ask for more than the mode before it. -/
def Mode.set? (current : Mode) (name : String) : Option Mode :=
  (Mode.ofName? name).filter (·.demand ≤ current.allowance)

/-- Whether the value of a switch turns it on: a number does unless its lowest byte is zero. -/
def isOn (value : String) : Bool :=
  match value.toList with
  | [] => false
  | c :: rest =>
    if c.isDigit then
      let digits := (c :: rest).takeWhile Char.isDigit
      ((Text.digits? 10 (bitBound 31) digits).getD 0) % 256 ≠ 0
    else ["on", "yes", "true"].contains value.toLower

/-- Whether a switch is on; the first of its values counts. -/
def hasSwitch (settings : List Setting) (name : String) : Bool :=
  ((valuesOf settings name).head?.map isOn).getD false

/-- The ways to reach files that can read a log of writes. -/
def logSystems : List String := ["unix", "unix-excl"]

/-- The ways to reach files that keep a database; `memdb` keeps it in memory. -/
def fileSystems : List String := logSystems ++ ["unix-none", "unix-dotfile"]

/-- The storage that a path with settings stands for, if the settings make sense. -/
def ofSettings? (path : String) (settings : List Setting) : Option Storage := do
  let mode ← (valuesOf settings "mode").foldlM Mode.set? Mode.create
  guard ((valuesOf settings "cache").all fun value => value = "shared" ∨ value = "private")
  let system := ((valuesOf settings "vfs").getLast?).getD "unix"
  guard (fileSystems.contains system || system = "memdb")
  let isImmutable := hasSwitch settings "immutable"
  let log :=
    if isImmutable then LogUse.ignored
    else if logSystems.contains system && !hasSwitch settings "nolock" then .taken
    else .refused
  let writes := decide (mode ≠ .readOnly)
  if path = "" ∨ path = ":memory:" ∨ mode = .memory then pure (transient writes)
  else if system = "memdb" then pure (transient (writes && !isImmutable))
  else pure (file path ⟨mode = .create, writes && !isImmutable, log⟩)

/-! ## Reading -/

/-- What stands behind an authority, which must be empty or the local host. -/
def dropAuthority? : List Char → Option (List Char)
  | '/' :: '/' :: rest =>
    let authority := String.ofList (rest.takeWhile (· != '/'))
    if authority = "" ∨ authority = "localhost" then some (rest.dropWhile (· != '/')) else none
  | rest => some rest

/-- Reads what stands behind the scheme, up to a `#`. -/
def readScheme? (cs : List Char) : Option Storage := do
  let body := (← dropAuthority? cs).takeWhile (· != '#')
  let path := ofByteChars (unescape (body.takeWhile (· != '?')))
  ofSettings? path (readSettings ((body.dropWhile (· != '?')).drop 1))

/-- Reads a locator. -/
def read? (locator : String) : Option Storage :=
  match byteChars locator with
  | 'f' :: 'i' :: 'l' :: 'e' :: ':' :: rest => readScheme? rest
  | _ => ofSettings? locator []

end Storage

end Autopilot

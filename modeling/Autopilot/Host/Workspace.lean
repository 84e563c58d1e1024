/-
  A file tree held in memory, with a working directory in it.

  A file or directory is known by the names that lead to it from the root. A path is
  walked step by step: every step but the last must be a directory, `.` and empty steps
  stay where they are, and `..` goes up. Apart from what is put below the working
  directory there are the directories that every system has and the null device, which
  reads as empty and swallows what is written.

  A database is a file too. Its path is not walked but put together from its names, so
  a `..` takes back the name before it, whether or not that is there. A database that
  is opened for writing also does away with what an interrupted write left beside it.
-/
import Autopilot.Database.Locator
import Autopilot.Database.Pages
import Autopilot.Host
import Autopilot.Path

namespace Autopilot

/-- The names that lead to a file or directory from the root, innermost first. -/
abbrev Trail := List String

/-- What a file holds. -/
inductive FileBody where
  | bytes (held : List UInt8)
  /-- The tables of a database. -/
  | tables (ledger : TableLedger)
  /-- Nothing, whatever is written. -/
  | void

/-- The bytes that are read from a file. -/
def FileBody.content : FileBody → List UInt8
  | .bytes held => held
  | .tables ledger => Pages.image ledger
  | .void => []

/-- A file tree. -/
structure Workspace where
  files : List (Trail × FileBody)
  /-- The directories below the root. -/
  directories : List Trail

namespace Workspace

/-- The working directory. -/
def home : Trail := ["autopilot", "tmp"]

/-- The directories that every system has below its root. -/
def systemDirectories : List String :=
  ["bin", "boot", "dev", "etc", "home", "lib", "media", "mnt", "opt", "proc", "root", "run",
    "sbin", "srv", "sys", "tmp", "usr", "var"]

/-- The working directory is empty. -/
def empty : Workspace :=
  ⟨[(["null", "dev"], .void)], home :: systemDirectories.map fun name => [name]⟩

/-! ## Files and directories -/

/-- The file at the end of a trail. -/
def file? (w : Workspace) (trail : Trail) : Option FileBody :=
  (w.files.find? (·.1 = trail)).map (·.2)

/-- Whether a trail leads to a directory. -/
def isDirectory (w : Workspace) (trail : Trail) : Bool :=
  trail.isEmpty || w.directories.contains trail

/-- Puts a file at the end of a trail. -/
def putAt (w : Workspace) (trail : Trail) (body : FileBody) : Workspace :=
  { w with files := (trail, body) :: w.files.filter (·.1 ≠ trail) }

/-- Takes away the file at the end of a trail. -/
def dropAt (w : Workspace) (trail : Trail) : Workspace :=
  { w with files := w.files.filter (·.1 ≠ trail) }

/-- Makes a directory. -/
def makeDirectory (w : Workspace) (trail : Trail) : Workspace :=
  if w.isDirectory trail then w else { w with directories := trail :: w.directories }

/-! ## Walking a path -/

/-- Where a path leads. -/
inductive Goal where
  | file (trail : Trail) (body : FileBody)
  | directory
  /-- A free name in a directory that is there. -/
  | free (trail : Trail)

/-- The longest name that a file may have. -/
def maxNameBytes : Nat := 255

/-- The longest path that can be looked up. -/
def maxPathBytes : Nat := 4095

/-- Takes one step, which leads from a directory to a directory. -/
def enter (w : Workspace) (place : Trail) (step : String) : Except FileDefect Trail :=
  if step = "" ∨ step = "." then .ok place
  else if step = ".." then .ok place.tail
  else if maxNameBytes < step.utf8ByteSize then .error .nameTooLong
  else if w.isDirectory (step :: place) then .ok (step :: place)
  else .error (if (w.file? (step :: place)).isSome then .notDirectory else .missing)

/-- Takes the last step of a path. -/
def arrive (w : Workspace) (place : Trail) (step : String) : Except FileDefect Goal :=
  if step = "" ∨ step = "." ∨ step = ".." then .ok .directory
  else if maxNameBytes < step.utf8ByteSize then .error .nameTooLong
  else if w.isDirectory (step :: place) then .ok .directory
  else match w.file? (step :: place) with
    | some body => .ok (.file (step :: place) body)
    | none => .ok (.free (step :: place))

/-- Takes the steps of a path. -/
def walk (w : Workspace) (place : Trail) : List String → Except FileDefect Goal
  | [] => .ok .directory
  | [last] => w.arrive place last
  | step :: rest => do
    let next ← w.enter place step
    w.walk next rest

/-- The directory that a path starts from. -/
def start (path : String) : Trail :=
  if Path.isAbsolute path then [] else home

/-- Where a path leads. -/
def find (w : Workspace) (path : String) : Except FileDefect Goal :=
  if path.toList.contains '\x00' then .error .nulByte
  else if path = "" then .error .missing
  else if maxPathBytes < path.utf8ByteSize then .error .nameTooLong
  else w.walk (start path) (Path.steps path)

/-! ## Reading and writing -/

/-- The bytes of a file. -/
def read (w : Workspace) (path : String) : Except FileDefect (List UInt8) :=
  match w.find path with
  | .ok (.file _ body) => .ok body.content
  | .ok .directory => .error .isDirectory
  | .ok (.free _) => .error .missing
  | .error cause => .error cause

/-- The path without slashes at its end, if it has any there. -/
def withoutSlash? (path : String) : Option String :=
  match path.toList.reverse with
  | '/' :: rest => some (String.ofList (rest.dropWhile (· == '/')).reverse)
  | _ => none

/-- Writes a file in a directory that is there; a slash behind its name asks for a directory. -/
def write (w : Workspace) (path : String) (bytes : List UInt8) : Except FileDefect Workspace :=
  match withoutSlash? path with
  | some name => do
    let _ ← if name = "" then pure .directory else w.find name
    throw .isDirectory
  | none =>
    match w.find path with
    | .ok (.file _ .void) => .ok w
    | .ok (.file trail _) => .ok (w.putAt trail (.bytes bytes))
    | .ok (.free trail) => .ok (w.putAt trail (.bytes bytes))
    | .ok .directory => .error .isDirectory
    | .error cause => .error cause

/-- The trail that a step leads to, where every directory is made. -/
def follow (place : Trail) (step : String) : Trail :=
  if step = "" ∨ step = "." then place else if step = ".." then place.tail else step :: place

/-- Puts a file under a path from the given directory on and makes the directories on the way. -/
def putFrom (w : Workspace) (place : Trail) (bytes : List UInt8) : List String → Workspace
  | [] => w
  | [last] => w.putAt (follow place last) (.bytes bytes)
  | step :: rest => (w.makeDirectory (follow place step)).putFrom (follow place step) bytes rest

/-- Puts a file under a path and makes the directories on the way. -/
def put (w : Workspace) (path : String) (bytes : List UInt8) : Workspace :=
  w.putFrom (start path) bytes (Path.steps path)

/-! ## Databases -/

/-- The trail of a database, put together from the names of its path. No name may stand behind
    that of a file. -/
def databaseTrail? (w : Workspace) (path : String) : Option Trail :=
  (Path.steps path).foldlM (fun place step =>
    let next := follow place step
    if next.length ≤ place.length || (w.file? place).isNone then some next else none) (start path)

/-- The trail of a file that stands beside a database. -/
def beside (ending : String) : Trail → Trail
  | [] => []
  | name :: outer => (name ++ ending) :: outer

/-- The journal of a write that is under way. -/
def journal : Trail → Trail := beside "-journal"

/-- The log of writes that are not in the database yet. -/
def log : Trail → Trail := beside "-wal"

/-- The index of the log. -/
def logIndex : Trail → Trail := beside "-shm"

/-- The length of the index of a log. -/
def logIndexSize : Nat := 32768

/-- Whether an interrupted write left a file: one that begins with a zero byte was already
    dealt with. -/
def isLeftOver (w : Workspace) (trail : Trail) : Bool :=
  match w.file? trail with
  | some (.bytes (b :: _)) => b != 0
  | _ => false

/-- Whether a file holds anything. -/
def isFilled (w : Workspace) (trail : Trail) : Bool :=
  ((w.file? trail).map fun body => !body.content.isEmpty).getD false

/-- Settles what an interrupted write left in a journal. -/
def settleJournal (w : Workspace) (trail : Trail) (access : Access) :
    Except QueryDefect Workspace :=
  if access.log = .ignored || !w.isLeftOver (journal trail) then .ok w
  else if access.writes then .ok (w.dropAt (journal trail))
  else .error .readOnly

/-- Whether the file of a database has pages; one byte at most is none. -/
def hasPages : FileBody → Bool
  | .bytes (_ :: _ :: _) => true
  | .tables _ => true
  | _ => false

/-- Settles what was left in a log. The log of a database without pages says nothing. -/
def settleLog (w : Workspace) (trail : Trail) (access : Access) (body : FileBody) :
    Except QueryDefect Workspace :=
  if access.log = .ignored || !w.isFilled (log trail) then .ok w
  else if !hasPages body then .ok (w.dropAt (log trail))
  else if access.log = .refused then .error .cannotOpen
  else if access.writes then .ok ((w.dropAt (log trail)).dropAt (logIndex trail))
  else .ok (w.putAt (logIndex trail) (.bytes (List.replicate logIndexSize 0)))

/-- Writes the tables of a database. -/
def writeTables (w : Workspace) (trail : Trail) (ledger : TableLedger) : Workspace :=
  (w.dropAt (journal trail)).putAt trail (.tables ledger)

/-- Opens what the file of a database holds; without pages it has no tables. -/
def openBody (w : Workspace) (trail : Trail) (access : Access) (body : FileBody) :
    Except QueryDefect ConfiguredLedger × Workspace :=
  match body with
  | .tables ledger => (.ok (if access.writes then .tables ledger else .readOnly ledger), w)
  | .void => (.error .cannotOpen, w)
  | .bytes _ =>
    if hasPages body then (.error .notDatabase, w)
    else if access.writes then
      (.ok (.tables TableLedger.empty), w.writeTables trail TableLedger.empty)
    else (.error .readOnly, w)

/-- Opens the file of a database once what was left beside it is settled. -/
def openFile (w : Workspace) (trail : Trail) (access : Access) (body : FileBody) :
    Except QueryDefect ConfiguredLedger × Workspace :=
  match w.settleJournal trail access with
  | .error defect => (.error defect, w)
  | .ok w =>
    match w.settleLog trail access body with
    | .error defect => (.error defect, w)
    | .ok w => w.openBody trail access body

/-- Opens the database at the end of a trail, where a file is made if there is none. -/
def openAt (w : Workspace) (trail : Trail) (access : Access) :
    Except QueryDefect ConfiguredLedger × Workspace :=
  match w.file? trail with
  | some body => w.openFile trail access body
  | none =>
    if access.creates then (w.putAt trail (.bytes [])).openFile trail access (.bytes [])
    else (.error .cannotOpen, w)

/-- Opens a database. -/
def openTables (w : Workspace) (locator : String) :
    Except QueryDefect ConfiguredLedger × Workspace :=
  match Storage.read? locator with
  | none => (.error .cannotOpen, w)
  | some (.transient writes) =>
    (if writes then .ok (.tables TableLedger.empty) else .error .readOnly, w)
  | some (.file path access) =>
    match w.databaseTrail? path with
    | none => (.error .cannotOpen, w)
    | some trail =>
      if w.isDirectory trail || !w.isDirectory trail.tail then (.error .cannotOpen, w)
      else w.openAt trail access

/-- Keeps the tables of a database. -/
def keepTables (w : Workspace) (locator : String) (ledger : TableLedger) : Workspace :=
  match Storage.read? locator with
  | some (.file path _) =>
    match w.databaseTrail? path with
    | some trail => w.writeTables trail ledger
    | none => w
  | _ => w

/-! ## The host -/

/-- A file tree as a host; its clock stands still. -/
def host : Host (StateM Workspace) where
  readFile path := ExceptT.mk do
    let w ← get
    pure (w.read path)
  writeFile path bytes := ExceptT.mk do
    let w ← get
    match w.write path bytes with
    | .ok next =>
      set next
      pure (.ok ())
    | .error cause => pure (.error cause)
  openTables locator := ExceptT.mk (modifyGet fun w => w.openTables locator)
  keepTables locator ledger := modify fun w => w.keepTables locator ledger
  now := pure Timestamp.epoch

end Workspace

end Autopilot

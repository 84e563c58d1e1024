/-
  The words of a command line.

  Words are read from left to right, first at the top level and, behind the name of a
  command, at the level of that command. A level knows its own options; an option takes
  the next word as its value, or the rest of its own word. The value is settled when the
  next option is met or the words are at an end, and only then is it judged: an option
  may be given once, and a path may not be empty. Two dashes end the options, and no
  level takes any word behind them.

  A command line that names no command to carry out ends in a `Refusal`, the showing of
  help included. Faults of the inner level come before those of the outer.
-/

namespace Autopilot.CommandLine

/-! ## Commands and options -/

/-- The commands by name. -/
inductive Verb where
  | validate
  | encode
  | decode
  | subscribe
  | prepare
  deriving DecidableEq

/-- The command with a name. -/
def Verb.ofName? (name : String) : Option Verb :=
  if name = "validate" then some .validate
  else if name = "encode" then some .encode
  else if name = "decode" then some .decode
  else if name = "subscribe" then some .subscribe
  else if name = "prepare" then some .prepare
  else none

/-- What the options set. -/
inductive Setting where
  | logLevel
  | logJson
  | help
  | strategy
  | output
  | input
  | config
  deriving DecidableEq

namespace Setting

/-- The name behind two dashes. -/
def longName : Setting → String
  | logLevel => "log-level"
  | logJson => "log-json"
  | help => "help"
  | strategy => "strategy"
  | output => "output"
  | input => "input"
  | config => "config"

/-- The letter behind one dash, if there is one. -/
def letter? : Setting → Option Char
  | logLevel => none
  | logJson => none
  | help => some 'h'
  | strategy => some 's'
  | output => some 'o'
  | input => some 'i'
  | config => some 'c'

/-- Whether the option takes a value. -/
def takesValue : Setting → Bool
  | logJson => false
  | help => false
  | _ => true

/-- Whether the value is a path. -/
def isPath : Setting → Bool
  | logLevel => false
  | s => s.takesValue

/-- Whether a command needs the option. -/
def isRequired : Setting → Bool
  | output => false
  | s => s.isPath

end Setting

/-- A level of the command line: the top, or inside a command. -/
abbrev Level := Option Verb

namespace Level

/-- The options of a level; logging and help can be asked for everywhere. -/
def settings (level : Level) : List Setting :=
  let own : List Setting := match level with
    | none => []
    | some .validate => [.strategy]
    | some .encode => [.strategy, .output]
    | some .decode => [.input]
    | some .subscribe => [.config]
    | some .prepare => [.config]
  own ++ [.logLevel, .logJson, .help]

/-- The option of a level with the given long name. -/
def ofLongName? (level : Level) (name : String) : Option Setting :=
  level.settings.find? (·.longName = name)

/-- The option of a level with the given letter. -/
def ofLetter? (level : Level) (letter : Char) : Option Setting :=
  level.settings.find? (·.letter? = some letter)

/-- The option that a level still needs, among those of its settings that are missing. -/
def missing? (level : Level) (given : List Setting) : Option Setting :=
  level.settings.find? fun s => s.isRequired && !given.contains s

end Level

/-- Why a command line names nothing to carry out. -/
inductive Refusal where
  | displayHelp
  | displayHelpOnNothing
  | missingSubcommand
  | invalidSubcommand
  | unknownArgument
  | invalidValue
  | argumentConflict
  | tooManyValues
  | missingRequired
  deriving DecidableEq

/-- The status with which a refused command line ends; help that was asked for is a success. -/
def Refusal.exitCode : Refusal → Nat
  | .displayHelp => 0
  | _ => 2

/-! ## One level -/

/-- What the words of a level have settled. -/
structure Progress where
  settled : List (Setting × String)
  /-- The last option, whose value is not judged yet or still to come. -/
  pending : Option (Setting × Option String)

namespace Progress

/-- Nothing is settled. -/
def empty : Progress := ⟨[], none⟩

/-- Whether the next word is the value of an option. -/
def awaitsValue (p : Progress) : Bool :=
  match p.pending with
  | some (_, none) => true
  | _ => false

/-- The value that an option was given. -/
def value? (p : Progress) (s : Setting) : Option String :=
  (p.settled.find? (·.1 = s)).map (·.2)

/-- Judges a value and settles it. -/
def assign (p : Progress) (s : Setting) (value : String) : Except Refusal Progress :=
  if (p.value? s).isSome then .error .argumentConflict
  else if s.isPath && value = "" then .error .invalidValue
  else .ok ⟨p.settled ++ [(s, value)], none⟩

/-- Settles the option that is pending. -/
def settle (p : Progress) : Except Refusal Progress :=
  match p.pending with
  | none => .ok p
  | some (_, none) => .error .invalidValue
  | some (s, some value) => assign p s value

/-- Takes an option without a value. -/
def switch (p : Progress) (s : Setting) : Except Refusal Progress := do
  let p ← p.settle
  if s = .help then throw .displayHelp
  p.assign s ""

/-- Takes an option whose value stands in the same word. -/
def attach (p : Progress) (s : Setting) (value : String) : Except Refusal Progress := do
  let p ← p.settle
  p.assign s value

/-- Takes an option whose value is the next word. -/
def await (p : Progress) (s : Setting) : Except Refusal Progress := do
  let p ← p.settle
  pure { p with pending := some (s, none) }

/-- Takes a word as the value of the option that waits for one. -/
def supply (p : Progress) (value : String) : Progress :=
  { p with pending := p.pending.map fun (s, _) => (s, some value) }

/-- Takes a word that starts with two dashes, which are passed already. -/
def long (level : Level) (p : Progress) (text : List Char) : Except Refusal Progress :=
  let (name, attached) := text.span (· != '=')
  match level.ofLongName? (String.ofList name) with
  | none => .error .unknownArgument
  | some s =>
    match s.takesValue, attached with
    | true, _ :: value => p.attach s (String.ofList value)
    | true, [] => p.await s
    | false, _ :: _ => .error .tooManyValues
    | false, [] => p.switch s

/-- Takes the letters behind one dash. -/
def letters (level : Level) (p : Progress) : List Char → Except Refusal Progress
  | [] => .ok p
  | letter :: rest =>
    match level.ofLetter? letter with
    | none => .error .unknownArgument
    | some s =>
      if s.takesValue then
        match rest with
        | [] => p.await s
        | '=' :: value => p.attach s (String.ofList value)
        | value => p.attach s (String.ofList value)
      else do
        let p ← p.switch s
        letters level p rest

end Progress

/-! ## All words -/

/-- Whether the top level knows a word as the name of a command. -/
def isCommandName (word : String) : Bool :=
  word = "help" || (Verb.ofName? word).isSome

/-- Why a level refuses a word that is neither option nor value nor, at the top, a command. -/
def strayWord : Level → Refusal
  | none => .invalidSubcommand
  | some _ => .unknownArgument

/-- Why a level refuses a word behind the two dashes. -/
def wordBehindDashes (level : Level) (word : String) : Refusal :=
  if level = none ∧ isCommandName word then .unknownArgument else strayWord level

/-- What help answers when it is asked about the given words. -/
def helpAnswer : List String → Refusal
  | [] => .displayHelp
  | [word] => if isCommandName word then .displayHelp else .invalidSubcommand
  | _ => .invalidSubcommand

/-- Reads the words of a level, up to their end or, at the top, to the name of a command. What a
    level still has pending is settled by its caller. -/
def scan (level : Level) (p : Progress) :
    List String → Except Refusal (Progress × Option (Verb × List String))
  | [] => .ok (p, none)
  | word :: rest =>
    if !p.awaitsValue && level = none && word = "help" then .error (helpAnswer rest)
    else match if !p.awaitsValue && level = none then Verb.ofName? word else none with
      | some verb => .ok (p, some (verb, rest))
      | none =>
        match word.toList with
        | ['-', '-'] =>
          match rest with
          | [] => .ok (p, none)
          | next :: _ => .error (wordBehindDashes level next)
        | '-' :: '-' :: text => do
          let p ← p.long level text
          scan level p rest
        | '-' :: letter :: text => do
          let p ← p.letters level (letter :: text)
          scan level p rest
        | _ =>
          if p.awaitsValue then scan level (p.supply word) rest
          else .error (strayWord level)

/-- A command with its settings. -/
inductive Command where
  | validate (strategy : String)
  | encode (strategy : String) (output : Option String)
  | decode (input : String)
  | subscribe (config : String)
  | prepare (config : String)
  deriving DecidableEq

/-- What a command line asks for. -/
structure Invocation where
  command : Command
  logLevel : String
  logJson : Bool
  deriving DecidableEq

/-- The command of a level whose required options are settled. -/
def command (verb : Verb) (p : Progress) : Command :=
  let path (s : Setting) := (p.value? s).getD ""
  match verb with
  | .validate => .validate (path .strategy)
  | .encode => .encode (path .strategy) (p.value? .output)
  | .decode => .decode (path .input)
  | .subscribe => .subscribe (path .config)
  | .prepare => .prepare (path .config)

/-- Reads the words of a command, which must give it all that it needs. -/
def readCommand (verb : Verb) (words : List String) : Except Refusal Progress := do
  let (scanned, _) ← scan (some verb) Progress.empty words
  let p ← scanned.settle
  if (Level.missing? (some verb) (p.settled.map (·.1))).isSome then throw .missingRequired
  pure p

/-- Reads a command line. -/
def read (words : List String) : Except Refusal Invocation := do
  let (outer, found) ← scan none Progress.empty words
  match found with
  | none =>
    let p ← outer.settle
    throw (if p.settled.isEmpty then .displayHelpOnNothing else .missingSubcommand)
  | some (verb, rest) =>
    let inner ← readCommand verb rest
    let outer ← outer.settle
    let level := (inner.value? .logLevel).or (outer.value? .logLevel)
    let json := (inner.value? .logJson).or (outer.value? .logJson)
    pure ⟨command verb inner, level.getD "info", json.isSome⟩

end Autopilot.CommandLine

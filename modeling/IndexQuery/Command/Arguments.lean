import IndexQuery.Command.Execute

/-! What a list of command line arguments asks for. -/

namespace IndexQuery.Command

/-- A subcommand. -/
inductive Subcommand where
  | roots
  | selectMany
  | expandAny
  | render
  | docs
  | operators
deriving DecidableEq

namespace Subcommand

/-- The subcommands. -/
def all : List Subcommand := [.roots, .selectMany, .expandAny, .render, .docs, .operators]

/-- The word that calls a subcommand. -/
def name : Subcommand → String
  | .roots => "roots"
  | .selectMany => "select-many"
  | .expandAny => "expand-any"
  | .render => "render"
  | .docs => "docs"
  | .operators => "operators"

/-- The subcommand that a word calls. -/
def ofName? (word : String) : Option Subcommand := all.find? fun command => command.name = word

end Subcommand

/-- An option: a switch, or a setting with a value. -/
inductive Flag where
  | verbose
  | pretty
  | free
  | input
  | seed
  | stem
deriving DecidableEq

namespace Flag

/-- The options. -/
def all : List Flag := [.verbose, .pretty, .free, .input, .seed, .stem]

/-- The long name of an option. -/
def name : Flag → String
  | .verbose => "verbose"
  | .pretty => "pretty"
  | .free => "free"
  | .input => "input"
  | .seed => "seed"
  | .stem => "prefix"

/-- The letter of an option that has one. -/
def letter? : Flag → Option Char
  | .verbose => some 'v'
  | .pretty => some 'p'
  | .input => some 'i'
  | .free | .seed | .stem => none

/-- Whether an option has a value. -/
def hasValue : Flag → Bool
  | .input | .seed | .stem => true
  | .verbose | .pretty | .free => false

/-- Whether a subcommand knows an option; every one can be verbose. -/
def isKnownTo : Flag → Subcommand → Bool
  | .verbose, _ => true
  | .pretty, command => command = .roots || command = .selectMany || command = .expandAny
  | .free, command => command = .roots
  | .input, command => command ≠ .docs && command ≠ .operators
  | .seed, command => command = .selectMany
  | .stem, command => command = .selectMany

/-- The option of a subcommand with the given long name. -/
def ofName? (command : Subcommand) (name : List Char) : Option Flag :=
  all.find? fun flag => flag.isKnownTo command && flag.name.toList = name

/-- The option of a subcommand with the given letter. -/
def ofLetter? (command : Subcommand) (letter : Char) : Option Flag :=
  all.find? fun flag => flag.isKnownTo command && flag.letter? = some letter

end Flag

/-- The options read so far, and where the next argument belongs. -/
structure Reading where
  /-- Options with their values, empty for switches. -/
  given : List (Flag × String)
  /-- An option whose value is the next argument. -/
  pending : Option Flag
  /-- Whether the mark after which there are no more options was read. -/
  ended : Bool

namespace Reading

/-- Records an option, which may be given only once. -/
def record (reading : Reading) (flag : Flag) (value : String) : Option Reading :=
  if (reading.given.lookup flag).isSome then none
  else some { reading with given := (flag, value) :: reading.given }

/-- Reads an option by its long name, with what follows an equals sign. -/
def long (command : Subcommand) (reading : Reading) (name : List Char) (value? : Option String) :
    Option Reading := do
  let flag ← Flag.ofName? command name
  match flag.hasValue, value? with
  | true, some value => reading.record flag value
  | true, none => return { reading with pending := some flag }
  | false, none => reading.record flag ""
  -- A switch takes no value, not even an empty one.
  | false, some _ => none

/-- Reads a run of option letters; the rest of the run is the value of an option that has one. -/
def letters (command : Subcommand) (reading : Reading) : List Char → Option Reading
  | [] => some reading
  | letter :: rest => do
    let flag ← Flag.ofLetter? command letter
    if flag.hasValue then
      match rest with
      | [] => return { reading with pending := some flag }
      -- An equals sign between a letter and its value belongs to neither.
      | '=' :: value => reading.record flag (String.ofList value)
      | value => reading.record flag (String.ofList value)
    else letters command (← reading.record flag "") rest

/-- Whether an argument looks like an option; a lone dash does not. -/
def looksLikeOption : List Char → Bool
  | '-' :: _ :: _ => true
  | _ => false

/-- Reads an argument of a subcommand, none of which takes anything but options. -/
def step (command : Subcommand) (reading : Reading) (argument : String) : Option Reading :=
  match reading.pending, argument.toList with
  | some flag, text =>
    -- What looks like an option is never taken for the value of another one.
    if looksLikeOption text then none
    else { reading with pending := none }.record flag argument
  | none, text =>
    if reading.ended then none
    else
      match text with
      | ['-', '-'] => some { reading with ended := true }
      | '-' :: '-' :: body =>
        let (name, value) := body.span (· ≠ '=')
        -- The span stops at the equals sign, which is dropped from the value.
        let value? := if value = [] then none else some (String.ofList (value.drop 1))
        reading.long command name value?
      | '-' :: letter :: rest => reading.letters command (letter :: rest)
      | _ => none

/-- The options that the arguments of a subcommand give. -/
def ofArguments? (command : Subcommand) (arguments : List String) :
    Option (List (Flag × String)) := do
  let reading ← arguments.foldlM (step command) ⟨[], none, false⟩
  -- A value that is still missing in the end is an error.
  if reading.pending.isSome then none else return reading.given

end Reading

/-- The number that an option value spells: digits, maybe after a plus sign, of 64 bits. -/
def readSeed? (text : String) : Option Nat :=
  let digits :=
    match text.toList with
    | '+' :: rest => rest
    | plain => plain
  (Digits.read? digits).filter (· < Nat.pow 2 64)

/-- What a command line asks for. -/
inductive Request where
  | version
  | overview
  | operators
  /-- A task on a given input or else the standard one, and whether to indent the answer. -/
  | run (task : Task) (options : Options) (input? : Option String) (pretty : Bool)

namespace Request

/-- The request of a subcommand with the given options. -/
def ofFlags? (command : Subcommand) (given : List (Flag × String)) : Option Request := do
  let has (flag : Flag) : Bool := (given.lookup flag).isSome
  let plain : Options := {}
  let seed ← match given.lookup .seed with
    | none => some plain.first
    | some text => readSeed? text
  let options : Options := { stem := (given.lookup .stem).getD plain.stem, first := seed }
  let request (task : Task) : Request := .run task options (given.lookup .input) (has .pretty)
  -- What a subcommand does not know was rejected when it was read, so it is absent here.
  return match command with
    | .roots => request (.roots (has .free))
    | .selectMany => request (.transform .normalizeFlatMaps)
    | .expandAny => request (.transform .expandMarkers)
    | .render => request .render
    | .docs => .overview
    | .operators => .operators

/-- What stands in front of a subcommand: more switches, or a request at once. -/
inductive Front where
  | switches (verbose : Bool)
  | version

/-- Reads a run of letters in front of a subcommand. -/
def frontLetters (verbose : Bool) : List Char → Option Front
  | [] => some (.switches verbose)
  | 'v' :: rest => if verbose then none else frontLetters true rest
  -- The version is printed at once, so the rest of the run is not read.
  | 'V' :: _ => some .version
  | _ => none

/-- Reads an argument in front of a subcommand. -/
def front (verbose : Bool) (argument : String) : Option Front :=
  match argument.toList with
  | '-' :: '-' :: name =>
    if name = "version".toList then some .version
    else if name = Flag.verbose.name.toList ∧ !verbose then some (.switches true)
    else none
  | '-' :: letter :: rest => frontLetters verbose (letter :: rest)
  | _ => none

/-- What arguments ask for, if they are right; `verbose` tells whether that switch was given. -/
def ofArguments? (verbose : Bool) : List String → Option Request
  | [] => none
  | argument :: rest =>
    match Subcommand.ofName? argument with
    -- A word that is no subcommand has to be a switch in front of one.
    | some command => (Reading.ofArguments? command rest).bind (ofFlags? command)
    | none =>
      match front verbose argument with
      | some (.switches verbose) => ofArguments? verbose rest
      | some .version => some .version
      | none => none

end Request

end IndexQuery.Command

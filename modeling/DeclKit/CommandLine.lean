/-
The words of a command line.

There is one place for a word without dashes, the project, and a handful of options. A word that
belongs to the project or to an option is taken up only when the next one is looked at, so that of two
faults it is not always the first word's that is reported: a word that is not known at all comes before
the fault of a value that still waits.
-/

set_option autoImplicit false

namespace DeclKit.CommandLine

/-- When reports are coloured. -/
inductive ColorChoice where
  /-- When they go to a terminal. -/
  | auto
  | always
  | never
deriving DecidableEq, Repr, Inhabited

/-- The choice that a word names. -/
def ColorChoice.ofWord? : String → Option ColorChoice
  | "auto" => some auto
  | "always" => some always
  | "never" => some never
  | _ => none

/-- Whether reports are coloured; none when that hangs on where they go. -/
def ColorChoice.decided? : ColorChoice → Option Bool
  | auto => none
  | always => some true
  | never => some false

/-- What a command line asks for. -/
structure Arguments where
  /-- A configuration file, or a directory that holds one. -/
  project : String := "tsconfig.json"
  pretty : Bool := false
  color : ColorChoice := .auto
  /-- How much is told about the run. -/
  verbose : Nat := 0
  listFiles : Bool := false
deriving DecidableEq, Repr, Inhabited

/-- Why a command line asks for nothing. -/
inductive Stop where
  | help
  | version
  | unknownArgument
  | invalidValue
  | repeatedArgument
  | unwantedValue
deriving DecidableEq, Repr

/-! ## Words that wait -/

/-- A word that is not yet taken up. -/
inductive Pending where
  | project (word : String)
  /-- The option for colours, with its value once that is there. -/
  | color (word : Option String)
deriving DecidableEq, Repr

/-- What has been made of the words so far. -/
structure State where
  project : Option String := none
  pretty : Bool := false
  color : Option ColorChoice := none
  verbose : Nat := 0
  listFiles : Bool := false
  pending : Option Pending := none
  /-- There has been a word for the project. -/
  hasProject : Bool := false
  /-- Two dashes have been there: what follows are no options. -/
  onlyWords : Bool := false

/-- Sets the choice of colours. -/
def setColor (s : State) (word : String) : Except Stop State :=
  if s.color.isSome then .error .repeatedArgument
  else match ColorChoice.ofWord? word with
    | some c => .ok { s with color := some c }
    | none => .error .invalidValue

/-- Takes up the word that waits. -/
def settle (s : State) : Except Stop State :=
  let rest := { s with pending := none }
  match s.pending with
  | none => .ok s
  | some (.project word) =>
    if word == "" then .error .invalidValue else .ok { rest with project := some word }
  | some (.color none) => .error .invalidValue
  | some (.color (some word)) => setColor rest word

/-! ## Options -/

/-- An option without a value. -/
inductive Flag where
  | pretty
  | verbose
  | listFiles
  | help
  | version
deriving DecidableEq, Repr

/-- The flag of a long name. -/
def Flag.ofName? : String → Option Flag
  | "pretty" => some pretty
  | "verbose" => some verbose
  | "list-files" => some listFiles
  | "help" => some help
  | "version" => some version
  | _ => none

/-- The flag of a letter. -/
def Flag.ofLetter? (c : Char) : Option Flag :=
  if c == 'v' then some verbose
  else if c == 'h' then some help
  else if c == 'V' then some version
  else none

/-- Takes up a flag. What is told about the run can be raised again and again, up to a byte's worth;
the others may be given once. -/
def raise (s : State) (f : Flag) : Except Stop State := do
  let s ← settle s
  match f with
  | .pretty => if s.pretty then .error .repeatedArgument else return { s with pretty := true }
  | .verbose => return { s with verbose := min 255 (s.verbose + 1) }
  | .listFiles =>
    if s.listFiles then .error .repeatedArgument else return { s with listFiles := true }
  | .help => .error .help
  | .version => .error .version

/-- Takes up the letters behind one dash. -/
def letters (s : State) : List Char → Except Stop State
  | [] => .ok s
  | c :: cs =>
    match Flag.ofLetter? c with
    | some f => do letters (← raise s f) cs
    | none => .error .unknownArgument

/-- The name of a long option, and its value behind an equals sign. -/
def splitOption (cs : List Char) : String × Option String :=
  let name := String.ofList (cs.takeWhile (· != '='))
  match cs.dropWhile (· != '=') with
  | _ :: value => (name, some (String.ofList value))
  | [] => (name, none)

/-- Takes up what follows two dashes. -/
def longOption (s : State) (cs : List Char) : Except Stop State :=
  match splitOption cs with
  | ("color", some word) => do setColor (← settle s) word
  | ("color", none) => do return { (← settle s) with pending := some (.color none) }
  | (name, value) =>
    match Flag.ofName? name, value with
    | some f, none => raise s f
    | some _, some _ => .error .unwantedValue
    | none, _ => .error .unknownArgument

/-! ## Words -/

/-- Takes up a word without dashes: the value of an option that waits for one, or the project. -/
def plainWord (s : State) (word : String) : Except Stop State :=
  match s.onlyWords, s.pending with
  | false, some (.color none) => .ok { s with pending := some (.color (some word)) }
  | _, _ =>
    if s.hasProject then .error .unknownArgument
    else do return { (← settle s) with pending := some (.project word), hasProject := true }

/-- Takes up a word. -/
def step (s : State) (word : String) : Except Stop State :=
  if s.onlyWords then plainWord s word
  else match word.toList with
    | ['-', '-'] => .ok { s with onlyWords := true }
    | '-' :: '-' :: cs => longOption s cs
    | '-' :: c :: cs => letters s (c :: cs)
    | _ => plainWord s word

/-- Reads the words behind the program's name. -/
def parse (words : List String) : Except Stop Arguments := do
  let s ← settle (← words.foldlM step {})
  let standard : Arguments := {}
  return {
    project := s.project.getD standard.project
    pretty := s.pretty
    color := s.color.getD standard.color
    verbose := s.verbose
    listFiles := s.listFiles }

end DeclKit.CommandLine

import SnapshotAnalytics.Cache.Key

/-!
# Arguments

The program has four commands. Two options are common to all of them and can stand before or behind
the command; each command has flags and operands of its own. Behind two dashes everything is an
operand.

Arguments are read from left to right, and the first one that asks for help or is out of place
decides. An operand, or a value that stands in an argument of its own, waits until the next argument
on the same side of the command has been recognized, and only then is found fit or unfit.
-/

namespace SnapshotAnalytics.CommandLine

/-! ## §1 Commands -/

/-- What the program is asked to do. -/
inductive Command where
  /-- Answer the requests in a file, or on standard input for a dash. -/
  | run (input : String) (pretty noCache : Bool)
  /-- List the tables. -/
  | tables (json : Bool)
  /-- Find the snapshot of a table for a day. -/
  | snapshot (table : String) (date : Option Date) (direction : Direction)
  /-- Ask whether the warehouse answers. -/
  | health
  deriving DecidableEq

/-- A command and the file with the settings, if one is given. -/
structure Invocation where
  command : Command
  config : Option String
  deriving DecidableEq

/-- What arguments amount to. -/
inductive Arguments where
  | invocation (i : Invocation)
  | help
  | misuse
  deriving DecidableEq

/-! ## §2 What can be given -/

/-- The long names of the common options by their short ones. -/
def commonOptions : List (Char × String) :=
  [('c', "config"), ('l', "log-level")]

/-- Whether an argument names a common option by its long name. -/
def isCommonOption (name : String) : Bool :=
  commonOptions.any (·.2 == name)

/-- What can be given on one side of the command: names that ask for help, by their short ones, flags,
and operands, each of which has to be fit. -/
structure Usage where
  informing : List (Char × String)
  flags : List String
  operands : List (String → Bool)

namespace Usage

/-- Before the command. -/
def general : Usage :=
  ⟨[('h', "help"), ('V', "version")], [], []⟩

/-- Behind a command with the given flags and operands. -/
def own (flags : List String) (operands : List (String → Bool)) : Usage :=
  ⟨[('h', "help")], flags, operands⟩

/-- Behind the command of a name. -/
def ofCommand? : String → Option Usage
  | "run" => some (own ["pretty", "no-cache"] [fun input => !input.isEmpty])
  | "tables" => some (own ["json"] [])
  | "snapshot" =>
    some (own ["forward"] [fun _ => true, fun date => (Date.readSpaced? date.toList).isSome])
  | "health" => some (own [] [])
  | _ => none

end Usage

/-! ## §3 One argument after the other -/

/-- Why reading ends early. -/
inductive Stop where
  | help
  | misuse
  deriving DecidableEq

/-- What waits for the next argument: an option, its value if that has been given, or an operand. -/
inductive Waiting where
  | option (name : String) (value : Option String)
  | operand (value : String)

/-- What has been given on one side of the command. -/
structure Given where
  flags : List String
  options : List (String × String)
  operands : List String
  waiting : Option Waiting

namespace Given

def nothing : Given :=
  ⟨[], [], [], none⟩

/-- Add an option with its value. It is given once at most, and the file with the settings has a
name. -/
def addOption (g : Given) (name value : String) : Except Stop Given :=
  if (g.options.lookup name).isSome || (name == "config" && value.isEmpty) then
    .error .misuse
  else
    .ok { g with options := (name, value) :: g.options }

/-- Add an operand, if one more can be given and this one is fit. -/
def addOperand (u : Usage) (g : Given) (value : String) : Except Stop Given :=
  match u.operands[g.operands.length]? with
  | some isFit =>
    if isFit value then .ok { g with operands := g.operands ++ [value] } else .error .misuse
  | none => .error .misuse

/-- Add what waits. -/
def settle (u : Usage) (g : Given) : Except Stop Given :=
  match g.waiting with
  | none => .ok g
  | some (.option _ none) => .error .misuse
  | some (.option name (some value)) => { g with waiting := none }.addOption name value
  | some (.operand value) => { g with waiting := none }.addOperand u value

/-- Read a flag, which is given once at most. -/
def readFlag (u : Usage) (g : Given) (name : String) : Except Stop Given := do
  -- what waits is settled first: its mistake is reported before help is given
  let g ← g.settle u
  if u.informing.any (·.2 == name) then
    throw .help
  if g.flags.contains name || !u.flags.contains name then
    throw .misuse
  return { g with flags := name :: g.flags }

/-- Read an option whose value stands in the next argument. -/
def readOption (u : Usage) (g : Given) (name : String) : Except Stop Given := do
  return { ← g.settle u with waiting := some (.option name none) }

/-- Read an option whose value stands in the same argument. -/
def readWithValue (u : Usage) (g : Given) (name : String) (value : List Char) :
    Except Stop Given := do
  (← g.settle u).addOption name (String.ofList value)

/-- Read what stands behind two dashes: a flag or an option, which can have its value behind an
equality sign. -/
def readLong (u : Usage) (g : Given) (s : List Char) : Except Stop Given :=
  let chars := s.takeWhile (· ≠ '=')
  let name := String.ofList chars
  match s.drop chars.length, isCommonOption name with
  | [], true => g.readOption u name
  | [], false => g.readFlag u name
  | _ :: value, true => g.readWithValue u name value
  | _ :: _, false => .error .misuse

/-- Read letters behind one dash: names that ask for help, or an option, the value of which is the
rest. An equality sign in front of the value does not belong to it. -/
def readShort (u : Usage) (g : Given) : List Char → Except Stop Given
  | [] => .ok g
  | c :: s =>
    match commonOptions.lookup c, s with
    | some name, [] => g.readOption u name
    | some name, '=' :: value => g.readWithValue u name value
    | some name, value => g.readWithValue u name value
    | none, s =>
      match u.informing.lookup c with
      | some name => do readShort u (← g.readFlag u name) s
      | none => .error .misuse

/-- Read an operand, if one more can be given. -/
def readOperand (u : Usage) (g : Given) (value : String) : Except Stop Given := do
  let g ← g.settle u
  if g.operands.length < u.operands.length then
    return { g with waiting := some (.operand value) }
  else
    throw .misuse

/-- Read the arguments behind a command. -/
def read (u : Usage) (g : Given) : List (List Char) → Except Stop Given
  | [] => g.settle u
  -- behind two dashes alone, everything is an operand
  | ['-', '-'] :: rest => do
    (← rest.foldlM (fun g s => g.readOperand u (String.ofList s)) g).settle u
  | ('-' :: '-' :: s) :: rest => do read u (← g.readLong u s) rest
  | ('-' :: c :: s) :: rest => do read u (← g.readShort u (c :: s)) rest
  -- a lone dash is a value or an operand like any other
  | s :: rest => do
    match g.waiting with
    | some (.option name none) =>
      read u { g with waiting := some (.option name (some (String.ofList s))) } rest
    | _ => read u (← g.readOperand u (String.ofList s)) rest

end Given

/-! ## §4 All arguments -/

/-- The names of the commands. -/
def commandNames : List String :=
  ["run", "tables", "snapshot", "health", "help"]

/-- The command of a name, given what stands behind it. -/
def command? (name : String) (own : Given) : Option Command :=
  match name, own.operands with
  | "run", operands =>
    some (.run (operands.headD "-") (own.flags.contains "pretty") (own.flags.contains "no-cache"))
  | "tables", _ => some (.tables (own.flags.contains "json"))
  | "snapshot", table :: date =>
    some (.snapshot table (date.head?.bind fun d => Date.readSpaced? d.toList)
      (if own.flags.contains "forward" then .forward else .backward))
  | "health", _ => some .health
  | _, _ => none

/-- Read what stands from the command on. A common option behind the command counts rather than the
same one before it. Help can be had on the program and on each command. -/
def readCommand (common : Given) (name : String) (rest : List (List Char)) :
    Except Stop Invocation := do
  match Usage.ofCommand? name, rest with
  | some u, _ =>
    -- mistakes behind the command are found before one that waits in front of it
    let own ← Given.nothing.read u rest
    let common ← common.settle .general
    match command? name own with
    | some command =>
      return ⟨command, own.options.lookup "config" <|> common.options.lookup "config"⟩
    | none => throw .misuse
  | none, [] => throw (if name = "help" then .help else .misuse)
  | none, [topic] =>
    throw (if name = "help" && commandNames.contains (String.ofList topic) then .help else .misuse)
  | none, _ => throw .misuse

/-- Read arguments, given what stands before them. -/
def readFrom (common : Given) : List (List Char) → Except Stop Invocation
  | [] => .error .misuse
  | ['-', '-'] :: _ => .error .misuse
  | ('-' :: '-' :: s) :: rest => do readFrom (← common.readLong .general s) rest
  | ('-' :: c :: s) :: rest => do readFrom (← common.readShort .general (c :: s)) rest
  | s :: rest =>
    match common.waiting with
    | some (.option name none) =>
      readFrom { common with waiting := some (.option name (some (String.ofList s))) } rest
    | _ => readCommand common (String.ofList s) rest

def Arguments.read (args : List String) : Arguments :=
  match readFrom .nothing (args.map String.toList) with
  | .ok i => .invocation i
  | .error .help => .help
  | .error .misuse => .misuse

end SnapshotAnalytics.CommandLine

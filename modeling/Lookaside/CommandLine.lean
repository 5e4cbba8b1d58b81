import Lookaside.Ascii
import Lookaside.Environment

/-!
# The command line

The command `demo` has the option `--seed` with a value and the flag `--json`; the flag may also stand
before the command, and both have an environment variable. Arguments are read from left to right and the
first problem counts. An option is settled when the next one turns up or the arguments end, so an
argument that nothing knows is noticed before a wrong value of the option before it.
-/

namespace Lookaside.CommandLine

inductive Stop where
  | displayHelp
  | displayVersion
  | displayHelpOnMissingCommand
  | missingSubcommand
  | invalidSubcommand
  | unknownArgument
  | invalidValue
  | valueValidation
  | invalidUtf8
  | argumentConflict
  | tooManyValues
deriving DecidableEq, Repr

structure Command where
  seed : Nat
  json : Bool
deriving DecidableEq, Repr

def defaultSeed : Nat := 5

/-! ## Arguments -/

inductive Shape where
  | divider
  | long (name : Bytes) (value? : Option Bytes)
  | short (letter : UInt8) (rest : Bytes)
  | plain
deriving DecidableEq, Repr

namespace Shape

def splitValue (s : Bytes) : Bytes × Option Bytes :=
  match s.dropWhile (· ≠ Ascii.equals) with
  | [] => (s, none)
  | _ :: value => (s.takeWhile (· ≠ Ascii.equals), some value)

def of (arg : Bytes) : Shape :=
  match arg with
  | a :: b :: s =>
    if a = Ascii.minus then
      if b = Ascii.minus then
        if s = [] then .divider else .long (splitValue s).1 (splitValue s).2
      else .short b s
    else .plain
  | _ => .plain

end Shape

def word (s : String) : Bytes := Bytes.ofText s

/-! ## Values -/

def readSeed (value : Bytes) : Except Stop Nat :=
  match Bytes.text? value with
  | none => .error .invalidUtf8
  | some s =>
    match Environment.readWord? s with
    | none => .error .valueValidation
    | some n => .ok n

def jsonVariable (env : Environment) : Except Stop (Option Bool) :=
  match env "LOG_JSON" with
  | none => .ok none
  | some value =>
    if value = word "true" then .ok (some true)
    else if value = word "false" then .ok (some false)
    else .error .invalidValue

/-! ## After the command -/

inductive Pending where
  | nothing
  | awaiting
  | value (value : Bytes)
deriving DecidableEq, Repr

structure Progress where
  json : Bool
  seed? : Option Nat
  pending : Pending
deriving DecidableEq, Repr

namespace Progress

def start : Progress := ⟨false, none, .nothing⟩

def takeSeed (p : Progress) (value : Bytes) : Except Stop Progress :=
  if p.seed?.isSome then .error .argumentConflict
  else (readSeed value).map fun n => { p with seed? := some n, pending := .nothing }

def settle (p : Progress) : Except Stop Progress :=
  match p.pending with
  | .nothing => .ok p
  | .awaiting => .error .invalidValue
  | .value value => p.takeSeed value

def takeJson (p : Progress) : Except Stop Progress := do
  let p ← p.settle
  if p.json then .error .argumentConflict else .ok { p with json := true }

def nameSeed (p : Progress) (value? : Option Bytes) : Except Stop Progress := do
  let p ← p.settle
  match value? with
  | none => .ok { p with pending := .awaiting }
  | some value => p.takeSeed value

def help (p : Progress) : Except Stop Progress := do
  let _ ← p.settle
  .error .displayHelp

def long (p : Progress) (name : Bytes) (value? : Option Bytes) : Except Stop Progress :=
  if name = word "seed" then p.nameSeed value?
  else if name = word "json" then if value?.isSome then .error .tooManyValues else p.takeJson
  else if name = word "help" then if value?.isSome then .error .tooManyValues else p.help
  else .error .unknownArgument

def glued? : Bytes → Option Bytes
  | [] => none
  -- an equals sign may stand between a letter and its value
  | b :: s => if b = Ascii.equals then some s else some (b :: s)

def short (p : Progress) (letter : UInt8) (rest : Bytes) : Except Stop Progress :=
  if letter = Ascii.ofChar 's' then p.nameSeed (glued? rest)
  else if letter = Ascii.ofChar 'h' then p.help
  else .error .unknownArgument

def plain (p : Progress) (arg : Bytes) : Except Stop Progress :=
  if p.pending = .awaiting then .ok { p with pending := .value arg } else .error .unknownArgument

def read (p : Progress) : List Bytes → Except Stop Progress
  | [] => p.settle
  | arg :: args =>
    match Shape.of arg with
    | .divider => if args = [] then p.settle else .error .unknownArgument
    | .long name value? => do (← p.long name value?).read args
    | .short letter rest => do (← p.short letter rest).read args
    | .plain => do (← p.plain arg).read args

end Progress

def seed (env : Environment) (p : Progress) : Except Stop Nat :=
  match p.seed? with
  | some n => .ok n
  | none =>
    match env "DEMO_SEED" with
    | none => .ok defaultSeed
    | some value => readSeed value

def command (env : Environment) (json : Bool) (args : List Bytes) : Except Stop Command := do
  let p ← Progress.start.read args
  let n ← seed env p
  -- the flag has two places, and at each where it is missing the variable is looked up
  if json && p.json then return ⟨n, true⟩
  let fromEnvironment ← jsonVariable env
  return ⟨n, json || p.json || fromEnvironment.getD false⟩

/-! ## Before the command -/

def helpOn : List Bytes → Stop
  | [] => .displayHelp
  | [name] => if name = word "demo" ∨ name = word "help" then .displayHelp else .invalidSubcommand
  | _ => .invalidSubcommand

def missing (env : Environment) (json : Bool) : Stop :=
  if json then .missingSubcommand
  else
    match jsonVariable env with
    | .error stop => stop
    | .ok (some _) => .missingSubcommand
    | .ok none => .displayHelpOnMissingCommand

def afterDivider (arg : Bytes) : Stop :=
  -- a command may not stand behind two dashes
  if arg = word "demo" ∨ arg = word "help" then .unknownArgument else .invalidSubcommand

def read (env : Environment) (json : Bool) : List Bytes → Except Stop Command
  | [] => .error (missing env json)
  | arg :: args =>
    if arg = word "demo" then command env json args
    else if arg = word "help" then .error (helpOn args)
    else
      match Shape.of arg with
      | .divider =>
        match args with
        | [] => .error (missing env json)
        | next :: _ => .error (afterDivider next)
      | .long name value? =>
        if name = word "json" then
          if value?.isSome then .error .tooManyValues
          else if json then .error .argumentConflict
          else read env true args
        else if name = word "help" then
          .error (if value?.isSome then .tooManyValues else .displayHelp)
        else if name = word "version" then
          .error (if value?.isSome then .tooManyValues else .displayVersion)
        else .error .unknownArgument
      | .short letter _ =>
        if letter = Ascii.ofChar 'h' then .error .displayHelp
        else if letter = Ascii.ofChar 'V' then .error .displayVersion
        else .error .unknownArgument
      | .plain => .error .invalidSubcommand

def parse (env : Environment) (args : List Bytes) : Except Stop Command :=
  read env false (args.drop 1)

end Lookaside.CommandLine

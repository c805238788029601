/-!
# Arguments

Options and paths in any order.  Arguments are taken from left to right, but what was given
without an equals sign, be it the value of an option or paths, is only looked at when the next
known option comes, or the end.
-/

namespace KnownAnswer.CommandLine

structure Options where
  paths : List String := []
  builtin : Bool := false
  jobs : Nat := 1
  dump : Bool := false
  logLevel : String := "warn"
  deriving DecidableEq

/-- Why arguments do not lead to a run: help or the version is asked for, or something is wrong. -/
inductive Refusal
  | help
  | version
  | unknownArgument
  | valueValidation
  | invalidValue
  | argumentConflict
  | tooManyValues
  deriving DecidableEq

/-! ## Names -/

/-- What is on or off. -/
inductive Flag
  | builtin
  | dump
  | help
  | version
  deriving DecidableEq

/-- What takes a value. -/
inductive Setting
  | jobs
  | logLevel
  deriving DecidableEq

inductive Switch
  | flag (flag : Flag)
  | setting (setting : Setting)
  deriving DecidableEq

def longNames : List (String × Switch) :=
  [("builtin", .flag .builtin), ("dump", .flag .dump), ("help", .flag .help),
    ("version", .flag .version), ("jobs", .setting .jobs), ("log-level", .setting .logLevel)]

def shortNames : List (Char × Switch) :=
  [('h', .flag .help), ('V', .flag .version), ('j', .setting .jobs)]

/-- A natural number of 64 bits in decimal digits, with a plus sign before it or without. -/
def jobs? (text : String) : Option Nat :=
  let digits := match text.toList with
    | '+' :: rest => rest
    | chars => chars
  if digits ≠ [] ∧ digits.all Char.isDigit then
    let n := digits.foldl (fun n c => 10 * n + (c.toNat - 0x30)) 0
    if n < UInt64.size then some n else none
  else
    none

/-! ## The scan -/

/-- What was given but not looked at yet: a setting, with its value if that has come, or paths. -/
inductive Pending
  | setting (setting : Setting) (value : Option String)
  | paths (paths : List String)
  deriving DecidableEq

/-- What is known after some of the arguments. -/
structure Scan where
  options : Options := {}
  given : List Switch := []
  pending : Option Pending := none
  /-- after two dashes alone -/
  onlyPaths : Bool := false

namespace Scan

/-- Gives a setting a value, unless it has one. -/
def set (scan : Scan) (setting : Setting) (value : String) : Except Refusal Scan :=
  if .setting setting ∈ scan.given then
    .error .argumentConflict
  else
    let given := .setting setting :: scan.given
    match setting with
    | .jobs =>
      match jobs? value with
      | some jobs => .ok { scan with options := { scan.options with jobs }, given }
      | none => .error .valueValidation
    | .logLevel => .ok { scan with options := { scan.options with logLevel := value }, given }

/-- Looks at what is pending. -/
def settle (scan : Scan) : Except Refusal Scan :=
  match scan.pending with
  | none => .ok scan
  | some (.setting _ none) => .error .invalidValue
  | some (.setting setting (some value)) => set { scan with pending := none } setting value
  | some (.paths paths) =>
    if "" ∈ paths then
      .error .invalidValue
    else
      .ok { scan with
        options := { scan.options with paths := scan.options.paths ++ paths }
        pending := none }

/-- Turns a flag on, unless it is. -/
def raise (scan : Scan) (flag : Flag) : Except Refusal Scan := do
  let scan ← scan.settle
  if .flag flag ∈ scan.given then
    .error .argumentConflict
  else
    let given := .flag flag :: scan.given
    match flag with
    | .help => .error .help
    | .version => .error .version
    | .builtin => return { scan with options := { scan.options with builtin := true }, given }
    | .dump => return { scan with options := { scan.options with dump := true }, given }

/-- A setting with its value attached, or one whose value is the next argument. -/
def start (scan : Scan) (setting : Setting) (value : Option String) : Except Refusal Scan := do
  let scan ← scan.settle
  match value with
  | some value => scan.set setting value
  | none => return { scan with pending := some (.setting setting none) }

/-- An argument with two dashes before it, cut at its first equals sign. -/
def long (scan : Scan) (name : String) (value : Option String) : Except Refusal Scan :=
  match longNames.lookup name, value with
  | none, _ => .error .unknownArgument
  | some (.flag _), some _ => .error .tooManyValues
  | some (.flag flag), none => scan.raise flag
  | some (.setting setting), value => scan.start setting value

/-- An argument with one dash before it: flags, up to the first setting, whose value the rest is. -/
def short (scan : Scan) : List Char → Except Refusal Scan
  | [] => .ok scan
  | c :: rest =>
    match shortNames.lookup c with
    | none => .error .unknownArgument
    | some (.flag flag) => do short (← scan.raise flag) rest
    | some (.setting setting) =>
      match rest with
      | [] => scan.start setting none
      | '=' :: value => scan.start setting (some (String.ofList value))
      | value => scan.start setting (some (String.ofList value))

/-- An argument that is no option: the value a setting waits for, or a path. -/
def plain (scan : Scan) (argument : String) : Except Refusal Scan :=
  match scan.pending, scan.onlyPaths with
  | some (.setting setting none), false =>
    .ok { scan with pending := some (.setting setting (some argument)) }
  | some (.paths paths), _ => .ok { scan with pending := some (.paths (paths ++ [argument])) }
  | _, _ => do
    let scan ← scan.settle
    return { scan with pending := some (.paths [argument]) }

def argument (scan : Scan) (argument : String) : Except Refusal Scan :=
  if scan.onlyPaths then
    scan.plain argument
  else
    match argument.toList with
    | ['-', '-'] => .ok { scan with onlyPaths := true }
    | '-' :: '-' :: rest =>
      match rest.span (· != '=') with
      | (name, []) => scan.long (String.ofList name) none
      | (name, _ :: value) => scan.long (String.ofList name) (some (String.ofList value))
    | '-' :: c :: rest => scan.short (c :: rest)
    | _ => scan.plain argument

end Scan

/-- The options that arguments stand for. -/
def Options.ofArguments (arguments : List String) : Except Refusal Options := do
  let scan ← arguments.foldlM Scan.argument {}
  let scan ← scan.settle
  return scan.options

end KnownAnswer.CommandLine

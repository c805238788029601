import KnownAnswer.Builtin
import KnownAnswer.Cipher.Aes128
import KnownAnswer.CommandLine.Options
import KnownAnswer.CommandLine.Report

/-!
# A run of the program

What the program does with its options: it gathers vectors, runs them, and writes its report.  All
vectors are run before the first line is written.
-/

namespace KnownAnswer.CommandLine

open Conformance (Harness Summary Trial)

/-- Why a run comes to no end. -/
inductive RunError
  | fixture (error : Fixture.LoadError)
  | noVectors
  | writeReport (reason : String)
  deriving DecidableEq

def RunError.message : RunError → String
  | .fixture error => error.message
  | .noVectors => "no vectors to run"
  | .writeReport reason => "failed to write report: " ++ reason

/-! ## Vectors -/

/-- The vectors of the built-in set, if it is asked for or nothing else is. -/
def builtinVectors (options : Options) : Except Fixture.LoadError (List TestVector) :=
  if options.builtin ∨ options.paths = [] then Builtin.load else .ok []

/-- The vectors of a run: the built-in set, then the fixtures in the order of their paths.  Ids
have to be distinct over all of them. -/
def loadVectors (read : FileReader) (options : Options) : Except RunError (List TestVector) := do
  let builtin ← (builtinVectors options).mapError .fixture
  let fixtures ← (options.paths.mapM (Fixture.load read)).mapError .fixture
  let vectors := builtin ++ fixtures.flatten
  (Fixture.requireDistinctIds vectors).mapError .fixture
  if vectors.isEmpty then .error .noVectors else return vectors

/-! ## Runs -/

/-- The harness that options ask for, with ciphers of one's own. -/
def harness (cipherFor : Ccm.Key → BlockCipher) (options : Options) : Harness where
  cipherFor := cipherFor
  jobs := options.jobs
  capture := options.dump

/-- Runs the vectors that options lead to and writes the report. -/
def runWith (cipherFor : Ccm.Key → BlockCipher) (read : FileReader) (options : Options)
    (writer : Writer) : Except RunError Summary × Writer :=
  match loadVectors read options with
  | .error error => (.error error, writer)
  | .ok vectors =>
    let summary := Trial.summary ((harness cipherFor options).runParallel vectors)
    match writer.writeLines (lines summary) with
    | (writer, true) => (.ok summary, writer)
    | (writer, false) => (.error (.writeReport Writer.fullReason), writer)

/-- Runs with the cipher that the program is for. -/
def run : FileReader → Options → Writer → Except RunError Summary × Writer :=
  runWith Aes128.cipher

/-! ## The program -/

/-- What the program leaves behind: its standard output, what it tells the user beside it, and its
exit code. -/
structure Exit where
  output : Bytes
  complaint : Option String
  code : UInt8
  deriving DecidableEq

/-- The code for a run: whether all vectors passed, some did not, or there was no result. -/
def exitCode : Except RunError Summary → UInt8
  | .ok summary => if summary.isSuccess then 0 else 1
  | .error _ => 2

/-- What is told beside the report: why there is none. -/
def complaint? : Except RunError Summary → Option String
  | .ok _ => none
  | .error error => some error.message

/-- Runs with a standard output that takes everything. -/
def execute (cipherFor : Ccm.Key → BlockCipher) (read : FileReader) (options : Options) : Exit :=
  let (result, writer) := runWith cipherFor read options { capacity := none }
  { output := writer.written, complaint := complaint? result, code := exitCode result }

def versionText : String := "ccmkat 0.1.0\n"

def helpText : String :=
  "Run AES-128 CCM known-answer vectors and report PASS/FAIL\n\n"
    ++ "Usage: ccmkat [OPTIONS] [FIXTURES]...\n\n"
    ++ "Arguments:\n"
    ++ "  [FIXTURES]...  Fixture files to run (TOML, version 1)\n\n"
    ++ "Options:\n"
    ++ "      --builtin                "
    ++ "Include the built-in vector set (implied when no fixtures are given)\n"
    ++ "  -j, --jobs <JOBS>            Worker threads [default: 1]\n"
    ++ "      --dump                   "
    ++ "Print the computed ciphertext and tag in hex after each report line\n"
    ++ "      --log-level <LOG_LEVEL>  "
    ++ "Log level (trace, debug, info, warn, error) [default: warn]\n"
    ++ "  -h, --help                   Print help\n"
    ++ "  -V, --version                Print version\n"

/-- What the program answers instead of a run. -/
def Refusal.exit : Refusal → Exit
  | .help => ⟨Bytes.ofText helpText, none, 0⟩
  | .version => ⟨Bytes.ofText versionText, none, 0⟩
  | _ => ⟨[], some "invalid arguments", 2⟩

/-- The program, given its arguments. -/
def program (read : FileReader) (arguments : List String) : Exit :=
  match Options.ofArguments arguments with
  | .error refusal => refusal.exit
  | .ok options => execute Aes128.cipher read options

end KnownAnswer.CommandLine

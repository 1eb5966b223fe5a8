import Formula.Compile
import Formula.Declaration.Outline
import Formula.Drawing

/-!
# The command line

The program takes flags, a declaration and values, compiles the declaration without the white space
around it against the standard library and prints its value. Everything but reading the file,
supplying the numbers to be drawn and writing the output happens here.

Flags may stand anywhere; short ones may be joined. A text that looks like a negative number is a
value once the declaration has been given. After `--` there are no more flags.
-/

namespace Formula

namespace Text

/-- The code points of white space. -/
def blankRanges : List (Nat × Nat) :=
  [(0x9, 0xd), (0x20, 0x20), (0x85, 0x85), (0xa0, 0xa0), (0x1680, 0x1680), (0x2000, 0x200a),
    (0x2028, 0x2029), (0x202f, 0x202f), (0x205f, 0x205f), (0x3000, 0x3000)]

def isBlank (c : Char) : Bool :=
  blankRanges.any fun range => range.1 ≤ c.toNat && c.toNat ≤ range.2

/-- The text without the white space at both ends. -/
def trim (text : String) : String :=
  String.ofList (((text.toList.dropWhile isBlank).reverse.dropWhile isBlank).reverse)

end Text

namespace CommandLine

/-- The flags: take the declaration from a file, print the text of the compiled function, print
the outline of the declaration, tell more about the run. -/
inductive Flag where
  | file
  | source
  | ast
  | verbose
deriving DecidableEq, Repr

structure Options where
  flags : List Flag
  /-- The declaration, or with the flag `file` the path of the file that holds it. -/
  declaration : String
  values : List Float

inductive Request where
  | evaluate (options : Options)
  | version
  | help

inductive UsageError where
  | unknownFlag (text : String)
  | repeatedFlag (flag : Flag)
  | invalidValue (text : String)
  | missingDeclaration

/-- What the program writes, and its exit code. -/
structure Report where
  code : UInt8
  stdout : String
  stderr : String
deriving DecidableEq, Repr

/-- What a flag asks for. -/
inductive Wish where
  | set (flag : Flag)
  | version
  | help

def wishOfLetter? : Char → Option Wish
  | 'f' => some (.set .file)
  | 's' => some (.set .source)
  | 'a' => some (.set .ast)
  | 'v' => some (.set .verbose)
  | 'V' => some .version
  | 'h' => some .help
  | _ => none

def wishOfWord? (word : String) : Option Wish :=
  if word = "file" then some (.set .file)
  else if word = "source" then some (.set .source)
  else if word = "ast" then some (.set .ast)
  else if word = "verbose" then some (.set .verbose)
  else if word = "version" then some .version
  else if word = "help" then some .help
  else none

/-- Digits, then possibly a point and digits, then possibly `e` or `E` and digits. -/
def isUnsigned (text : List Char) : Bool :=
  let rest := text.dropWhile Char.isDigit
  let tail := match rest with
    | '.' :: fraction => fraction.dropWhile Char.isDigit
    | _ => rest
  (text.head?.any Char.isDigit) &&
    match tail with
    | [] => true
    | 'e' :: exponent | 'E' :: exponent => !exponent.isEmpty && exponent.all Char.isDigit
    | _ => false

/-- What has been read of the arguments so far. The first text that is no flag is the declaration,
the others are values. -/
structure Progress where
  flags : List Flag
  declaration : Option String
  values : List Float

namespace Progress

def start : Progress :=
  { flags := [], declaration := none, values := [] }

def addFlag (p : Progress) (flag : Flag) : Except UsageError Progress :=
  if flag ∈ p.flags then .error (.repeatedFlag flag) else .ok { p with flags := p.flags ++ [flag] }

def addText (p : Progress) (text : String) : Except UsageError Progress :=
  match p.declaration with
  | none => .ok { p with declaration := some text }
  | some _ =>
    match BinaryFloat.ofText? text with
    | some value => .ok { p with values := p.values ++ [value] }
    | none => .error (.invalidValue text)

/-- Sets the flags of joined letters, up to one that asks for something else. -/
def addLetters (p : Progress) : List Char → Except UsageError (Progress ⊕ Request)
  | [] => .ok (.inl p)
  | c :: cs =>
    match wishOfLetter? c with
    | some (.set flag) => do
      let p ← p.addFlag flag
      p.addLetters cs
    | some .version => .ok (.inr .version)
    | some .help => .ok (.inr .help)
    | none => .error (.unknownFlag (String.ofList ['-', c]))

def finish (p : Progress) : Except UsageError Request :=
  match p.declaration with
  | none => .error .missingDeclaration
  | some declaration => .ok (.evaluate { flags := p.flags, declaration, values := p.values })

/-- Takes all arguments for texts. -/
def addTexts (p : Progress) : List String → Except UsageError Request
  | [] => p.finish
  | arg :: args => do
    let p ← p.addText arg
    p.addTexts args

def addAll (p : Progress) : List String → Except UsageError Request
  | [] => p.finish
  | arg :: args =>
    match arg.toList with
    | ['-', '-'] => p.addTexts args
    | '-' :: '-' :: word =>
      match wishOfWord? (String.ofList word) with
      | some (.set flag) => do
        let p ← p.addFlag flag
        p.addAll args
      | some .version => .ok .version
      | some .help => .ok .help
      | none => .error (.unknownFlag arg)
    | '-' :: c :: cs =>
      if p.declaration.isSome && isUnsigned (c :: cs) then do
        let p ← p.addText arg
        p.addAll args
      else do
        match ← p.addLetters (c :: cs) with
        | .inl p => p.addAll args
        | .inr request => .ok request
    | _ => do
      let p ← p.addText arg
      p.addAll args

end Progress

def parse (args : List String) : Except UsageError Request :=
  Progress.start.addAll args

def UsageError.message : UsageError → String
  | unknownFlag text => "error: unexpected argument '" ++ text ++ "' found"
  | repeatedFlag _ => "error: a flag cannot be used multiple times"
  | invalidValue text => "error: invalid value '" ++ text ++ "' for '[VALUES]...'"
  | missingDeclaration => "error: the following required arguments were not provided"

def versionText : String :=
  "mathfn 0.1.0"

def helpText : String :=
  "Usage: mathfn [OPTIONS] <DECLARATION> [VALUES]..."

/-- Prints what the flags ask for, and then the value, or why there is none. -/
def evaluate (draws : Draws) (options : Options) (source : String) : Report :=
  -- nothing is drawn before the call, so the number given to the library does not matter
  match (Library.standard 0).compile (Text.trim source) with
  | .error error => { code := 1, stdout := "", stderr := error.message ++ "\n" }
  | .ok function =>
    let ast :=
      if .ast ∈ options.flags then function.declaration.outline.block 0 ++ "\n" else ""
    let shown := ast ++ if .source ∈ options.flags then function.source ++ "\n" else ""
    if options.values.length ≠ function.arity then
      { code := 1
        stdout := shown
        stderr := "'" ++ function.name ++ "' expects " ++ function.arity.repr ++
          " argument(s), but found " ++ options.values.length.repr ++ ".\n" }
    else
      match (function.callDrawing draws options.values).outcome with
      | .ok (some value) =>
        { code := 0, stdout := shown ++ BinaryFloat.positional value ++ "\n", stderr := "" }
      | .ok none => { code := 0, stdout := shown ++ "undefined\n", stderr := "" }
      | .error error => { code := 101, stdout := shown, stderr := error.message ++ "\n" }

/-- The report when the source text of a declaration is known, or could not be read. -/
def report (draws : Draws) (options : Options) : Option String → Report
  | some source => evaluate draws options source
  | none =>
    { code := 1
      stdout := ""
      stderr := "Failed to read the input file '" ++ options.declaration ++
        "'. Perhaps this file does not exist?\n" }

/-- Runs the program. What it draws comes from the supply, and `read` gives the text of a file, if
there is one of that name. -/
def run (draws : Draws) (read : String → Option String) (args : List String) : Report :=
  match parse args with
  | .error error => { code := 2, stdout := "", stderr := error.message ++ "\n" }
  | .ok .version => { code := 0, stdout := versionText ++ "\n", stderr := "" }
  | .ok .help => { code := 0, stdout := helpText ++ "\n", stderr := "" }
  | .ok (.evaluate options) =>
    report draws options
      (if .file ∈ options.flags then read options.declaration else some options.declaration)

end CommandLine

end Formula

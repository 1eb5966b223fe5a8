import Formula.CommandLine

/-!
# The program

Reads the file that the arguments name, if they name one, supplies the numbers to be drawn and
writes the report.
-/

namespace Formula

/-- The numbers that a generator gives one after another: multiples of `1 / 2 ^ 53` below one. -/
def Draws.ofGenerator (generator : StdGen) : Draws :=
  let steps : Nat := 1 <<< 53
  let draw (g : StdGen) := randNat g 0 (steps - 1)
  { nth := fun n => (draw (n.repeat (fun g => (draw g).2) generator)).1.toFloat / steps.toFloat }

namespace CommandLine

/-- The text of the file that the arguments ask for. -/
def readDeclaration (args : List String) : IO (Option String) := do
  match parse args with
  | .ok (.evaluate options) =>
    if .file ∈ options.flags then
      try
        let text ← IO.FS.readFile options.declaration
        return some text
      catch _ => return none
    else return none
  | _ => return none

/-- A generator with a seed that the system chooses. -/
def seededGenerator : IO StdGen := do
  let bytes ← IO.getRandomBytes 8
  return mkStdGen (bytes.toList.foldl (fun seed byte => seed * 256 + byte.toNat) 0)

end CommandLine

end Formula

def main (args : List String) : IO UInt32 := do
  let contents ← Formula.CommandLine.readDeclaration args
  let generator ← Formula.CommandLine.seededGenerator
  let report := Formula.CommandLine.run (.ofGenerator generator) (fun _ => contents) args
  IO.print report.stdout
  IO.eprint report.stderr
  return report.code.toUInt32

import TraceFold.CommandLine.Duration
import TraceFold.CommandLine.Program

/-!
# The executable

The program on a real machine: it reads files and the standard input, measures time, prints and
exits.  `CommandLine.execute` says what it computes; the passes are made one by one here, so that
each of them can be timed.
-/

namespace TraceFold.CommandLine

/-- The fault behind an error of the operating system. -/
def faultOf : IO.Error → ReadFault
  | .noFileOrDirectory _ code description | .permissionDenied _ code description
  | .inappropriateType _ code description | .invalidArgument _ code description
  | .resourceExhausted _ code description | .noSuchThing _ code description
  | .interrupted _ code description | .hardwareFault code description
  | .otherError code description => .system description code.toNat
  | e => .system (toString e) 0

/-- The rest of a stream, a block at a time; at most `n` blocks. -/
def readBlocks (stream : IO.FS.Stream) : Nat → ByteArray → IO ByteArray
  | 0, bytes => pure bytes
  | n + 1, bytes => do
    let block ← stream.read 65536
    if block.isEmpty then pure bytes else readBlocks stream n (bytes ++ block)

/-- The stream of the input: a file, or the standard input. -/
def openInput : Option String → IO IO.FS.Stream
  | some name => return .ofHandle (← IO.FS.Handle.mk name .read)
  | none => IO.getStdin

/-- The bytes of the input. -/
def readInput (input : Option String) : IO (Except ReadFault ByteArray) := do
  try
    return .ok (← readBlocks (← openInput input) UInt64.size .empty)
  catch e => return .error (faultOf e)

/-- The passes of a run, with the time that each of them took, the last first. -/
def timedSteps (rules : Rules) : Nat → Saturation → List Nat → IO (Saturation × List Nat)
  | 0, s, times => pure (s, times)
  | n + 1, s, times => do
    let start ← IO.monoNanosNow
    let s ← IO.lazyPure fun _ => s.step rules
    let times := ((← IO.monoNanosNow) - start) :: times
    if s.fixpoint then pure (s, times) else timedSteps rules n s times

/-- Make the run that a configuration asks for. -/
def runTimed (level : LogFilter.Level) (config : Config) (F : Forest) : IO Outcome := do
  let start ← IO.monoNanosNow
  let (s, passes) ← timedSteps Catalog.standard config.maxPasses (.start F) []
  let s := s.close config.maxPasses
  let saturated ← IO.monoNanosNow
  let _ ← IO.lazyPure fun _ => s.actions.length
  let projected ← IO.monoNanosNow
  let passes := passes.reverse
  let times : Times := {
    total := durationText (projected - start)
    saturation := durationText (saturated - start)
    project := durationText (projected - saturated)
    pass := fun i => durationText (passes[i]?.getD 0) }
  return finish level config s times

/-- Do what the arguments ask for. -/
def run (terminals : Terminals) (level : LogFilter.Level) (args : List String) : IO Outcome := do
  match parse terminals args with
  | .ok (.run config) => match ← readInput config.input with
    | .error f => return .failed (.unreadable f)
    | .ok bytes => match Forest.ofBytes bytes with
      | .error e => return .failed e
      | .ok F => runTimed level config F
  | _ =>
    -- nothing is read and nothing takes time
    return execute terminals level args (fun _ => .ok .empty) ⟨"", "", "", fun _ => ""⟩

/-- The program: its environment, its arguments and its output. -/
def program (args : List String) : IO UInt32 := do
  let terminals : Terminals := ⟨← (← IO.getStdin).isTty, ← (← IO.getStdout).isTty⟩
  let level := LogFilter.level ((← IO.getEnv "RUST_LOG").getD "")
  let outcome ← run terminals level args
  (← IO.getStderr).putStr outcome.stderr
  (← IO.getStdout).putStr outcome.stdout
  return UInt32.ofNat outcome.code

end TraceFold.CommandLine

def main (args : List String) : IO UInt32 :=
  TraceFold.CommandLine.program args

import DesignTokens.CommandLine.Run
import DesignTokens.Settings.Readers
import Std.Time.DateTime.Timestamp

/-!
# Main — the program

Looks at the clock and at the paths that a run needs, runs, and prints what the run left.
-/

namespace DesignTokens

/-- The error of the system behind an error that was met; one without a number has that of a failed
reading. -/
def systemError : IO.Error → SystemError
  | .noFileOrDirectory _ n words | .interrupted _ n words => ⟨n.toNat, words⟩
  | .permissionDenied _ n words | .inappropriateType _ n words | .invalidArgument _ n words
  | .resourceExhausted _ n words | .noSuchThing _ n words | .alreadyExists _ n words =>
    ⟨n.toNat, words⟩
  | .otherError n words | .hardwareFault n words | .unsatisfiedConstraints n words
  | .resourceBusy n words | .resourceVanished n words | .unsupportedOperation n words
  | .illegalOperation n words | .protocolError n words | .timeExpired n words => ⟨n.toNat, words⟩
  | .unexpectedEof | .userError _ => ⟨5, "Input/output error"⟩

/-- What stands at a path. -/
def Path.kind (path : Path) : IO (Except SystemError FileKind) := do
  try
    match (← (← IO.FS.realPath path.text).metadata).type with
    | .dir => return .ok .directory
    | .file => return .ok .file
    | .symlink | .other => return .ok .other
  catch e => return .error (systemError e)

/-- What the disk has at a path. -/
def Path.look (path : Path) : IO Found := do
  if path.text.toList.contains '\x00' then return .missing
  match ← path.kind with
  | .ok .directory => return .directory
  | .error e => return .barred e
  | kind =>
    try return ⟨kind, .ok ⟨(← IO.FS.readBinFile path.text).toList, none⟩⟩
    catch e => return ⟨kind, .error (systemError e)⟩

/-- What the disk has at each of some paths. -/
def lookAll (paths : List Path) : IO (List (Path × Found)) :=
  paths.mapM fun p => do return (p, ← p.look)

namespace CommandLine

/-- The files that a run on some arguments looks at. -/
def filesFor (arguments : List String) : IO Files := do
  match Request.ofArguments arguments with
  | .error _ => return .ofList []
  | .ok r =>
    let first ← lookAll r.firstPaths
    let planned ← lookAll (r.plannedPaths Settings.readers (.ofList first))
    return .ofList (first ++ planned)

/-- Runs the program; its status is that of the run, or one where the run is broken off. -/
def program (arguments : List String) : IO UInt32 := do
  let now ← Std.Time.Timestamp.now
  let time := Timestamp.ofUnixTime now.toSecondsSinceUnixEpoch.val.toNat
  let outcome := run Settings.readers (← filesFor arguments) time arguments
  IO.print outcome.stdout
  IO.eprint outcome.stderr
  match outcome.ended with
  | .status n => return n.toUInt32
  | .broken f =>
    IO.eprintln f.message
    return 1

end CommandLine

end DesignTokens

/-- The program. -/
def main (arguments : List String) : IO UInt32 := DesignTokens.CommandLine.program arguments

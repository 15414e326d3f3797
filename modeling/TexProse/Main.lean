import TexProse.CommandLine.Run

/-!
# The program

Looks up the files that the command line names, reads the input if it is asked for, and writes what the
run has to say.
-/

namespace TexProse

/-- The code with which the system refuses to read a directory as a file. -/
def directoryCode : UInt32 := 21

/-- What the system has at the end of a path. -/
def lookUp (path : String) : IO Entry := do
  try
    return .file (.ok (← IO.FS.readBinFile path))
  catch failure =>
    match failure with
    | .inappropriateType _ code _ => return if code = directoryCode then .directory else .absent
    | .permissionDenied _ code reason =>
      return .file (.error (reason ++ " (os error " ++ toString code ++ ")"))
    | _ => return .absent

end TexProse

def main (words : List String) : IO UInt32 := do
  let entries ← (TexProse.CommandLine.pathsOf words).mapM fun path =>
    return (path, ← TexProse.lookUp path)
  let files : TexProse.FileView := fun path => (entries.lookup path).getD .absent
  let input ←
    if TexProse.CommandLine.readsInput words then (← IO.getStdin).readBinToEnd else pure .empty
  let outcome := TexProse.CommandLine.run files input words
  (← IO.getStdout).putStr outcome.out
  (← IO.getStderr).putStr outcome.err
  return outcome.exitCode.toUInt32

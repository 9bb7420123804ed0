import TreeBrowser.CommandLine

/-!
# The program

Brings the files that a run may need onto a disk, runs the command line on it, and writes the
settings file back when the run has made one. The log stays on that disk.
-/

namespace TreeBrowser.Main

def openedNode (handle : IO.FS.Handle) : IO DiskNode := do
  try
    return .file (← handle.readBinToEnd).toList
  catch _ => return .directory

def takeOver (d : Disk) (path : String) : IO Disk := do
  try
    let handle ← IO.FS.Handle.mk path .read
    return d.withNode (DiskPath.ofText path) (← openedNode handle)
  catch _ => return d

partial def readAll (stream : IO.FS.Stream) (read : ByteArray) : IO ByteArray := do
  let bytes ← stream.read 65536
  if bytes.isEmpty then return read
  readAll stream (read ++ bytes)

def writeBack (path directory : String) (before after : Disk) : IO Unit := do
  if before.exists? (DiskPath.ofText path) then return
  match after.read (DiskPath.ofText path) with
  | .error _ => return
  | .ok content =>
    try
      IO.FS.createDirAll directory
      IO.FS.writeBinFile path (ByteArray.mk content.toArray)
    catch _ => return

end TreeBrowser.Main

open TreeBrowser in
def main (arguments : List String) : IO UInt32 := do
  let environment : Environment :=
    ⟨← IO.getEnv "XDG_CACHE_HOME", ← IO.getEnv "HOME"⟩
  let input ← if arguments.length = 1 then Main.readAll (← IO.getStdin) .empty else pure .empty
  let settings := environment.settingsPath?.toList
  let before ← (settings ++ arguments.take 2).foldlM Main.takeOver .empty
  let temporary := (← IO.getEnv "TMPDIR").getD "/tmp"
  let result := Invocation.run { arguments, environment, input := input.toList, temporary } before
  (← IO.getStdout).putStr result.output
  if result.exitCode = 2 then IO.eprintln usage
  match environment.settingsPath?, environment.ownDirectory? with
  | some path, some directory => Main.writeBack path directory before result.disk
  | _, _ => pure ()
  return result.exitCode.toUInt32

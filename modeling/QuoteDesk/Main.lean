import QuoteDesk.Program
import Std.Time.DateTime.Timestamp

/-
The command line program. It hands arguments, environment, clock and the files of the
cache directory to a run, and puts down what the run leaves: texts, files, exit code.
There is no network here: every request finds the line dead, and prices come from the
cache alone.
-/
namespace QuoteDesk.Main

/-- The names that settings are read from. -/
def settingNames : List String :=
  ["MARKET_CACHE_DIR", "DEFAULT_FIAT", "PROVIDER_TIMEOUT_SECS", "PROVIDER_RETRY_MAX_ATTEMPTS",
   "PROVIDER_RETRY_BASE_BACKOFF_MS", "LOG_LEVEL", "LOG_FORMAT", "DEBUG"]

def environment : IO (List (String × String)) :=
  settingNames.filterMapM fun name => do
    return (← IO.getEnv name).map fun value => (name, value)

/-- The present time in universal time. -/
def clock : IO Moment := do
  let nanos := (← Std.Time.Timestamp.now).toNanosecondsSinceUnixEpoch
  return ⟨Moment.dayNumber 1970 1 1 * Moment.ticksPerDay + nanos.toInt / 1000, some 0⟩

/-- The files of the cache directory as they are. -/
def loadShelf (directory : String) : IO Shelf := do
  let root := (← IO.currentDir) / directory / Shelf.folderName
  if !(← root.pathExists) then return .absent
  if !(← root.isDir) then return .barred
  let nodes ← (← root.readDir).toList.mapM fun entry => do
    if ← entry.path.isDir then return (entry.fileName, Node.folder)
    else return (entry.fileName, Node.file (← IO.FS.readBinFile entry.path))
  return .there nodes

/-- The changed files, each written beside its place and then moved there. -/
def saveShelf (directory : String) (old new : Shelf) : IO Unit := do
  let before := old.opened.getD []
  if let .there nodes := new then
    let root := (← IO.currentDir) / directory / Shelf.folderName
    IO.FS.createDirAll root
    for (name, node) in nodes do
      if let .file content := node then
        let same := match before.lookup name with
          | some (.file was) => was == content
          | _ => false
        unless same do
          let temporary := root / Shelf.freshName nodes name
          IO.FS.writeBinFile temporary content
          IO.FS.rename temporary (root / name)

def usage : String :=
  "usage: market-cli [-h] \x7bfx,crypto,expr\x7d ...\n" ++
  "  market-cli fx     --base SYM --quote SYM --amount N [--output json|human]\n" ++
  "  market-cli crypto --base SYM --quote SYM --amount N [--output json|human]\n" ++
  "  market-cli expr   --query TEXT [--default-fiat SYM] [--output json|human]\n"

/-- The texts of a finished run, and its exit code. -/
def report {ω : Type} (r : Run ω) : IO UInt32 := do
  match r.ending with
  | .stopped .help => IO.print usage
  | .stopped .usage => IO.eprint usage
  | .broken _ => IO.eprint "error: a value cannot be handled\n"
  | ending =>
    IO.print ending.out
    IO.eprint ending.err
  return UInt32.ofNat (r.ending.exitCode?.getD 1)

end QuoteDesk.Main

def main (arguments : List String) : IO UInt32 := do
  let environment ← QuoteDesk.Main.environment
  let temporary := (← IO.getEnv "TMPDIR").getD "/tmp"
  let settings := QuoteDesk.Settings.ofEnvironment? environment
  let directory := (settings.bind (·.cacheDirectory)).getD temporary
  let shelf ← QuoteDesk.Main.loadShelf directory
  let wire : QuoteDesk.DeadWire := ⟨"network is unreachable"⟩
  let now ← QuoteDesk.Main.clock
  let r := QuoteDesk.Program.run environment arguments ⟨now, temporary, shelf, wire⟩
  QuoteDesk.Main.saveShelf directory shelf r.world.shelf
  QuoteDesk.Main.report r

import RouteForge.FileTree.Listing
import RouteForge.Formatter.Program
import RouteForge.Invocation

/-! The program itself. It brings what a run looks at into a file tree, runs, prints, and puts back
what the run changed. -/
namespace RouteForge.Program

def nameOf? : Path.Component → Option (List Char)
  | .name cs => some cs
  | _ => none

/-- The location of the text of an absolute path. -/
def locationOf (text : String) : Location :=
  (Path.ofText text).clean.components.filterMap nameOf?

def textOf (l : Location) : String := "/" ++ "/".intercalate (l.map String.ofList)

/-- Modes are not asked for: a file that names its interpreter counts as a program. -/
def fileEntry (bytes : ByteArray) : Entry :=
  .file bytes (bytes[0]? = some 35 && bytes[1]? = some 33)

def standing? (l : Location) : IO (Option Entry) := do
  let place := (← IO.currentDir) / textOf l
  if !(← place.pathExists) then return none
  if ← place.isDir then return some .directory
  try return some (fileEntry (← IO.FS.readBinFile place))
  catch _ => return none

/-- Brings in what stands at a location and above it. -/
def gather (t : FileTree) (l : Location) : IO FileTree := do
  let above := (List.range l.length).map (fun n => l.take (n + 1))
  above.foldlM (fun t m => do
    if (t.get? m).isSome then return t
    match ← standing? m with
    | some e => return t.set m e
    | none => return t) t

def gatherPath (t : FileTree) (p : Path) : IO FileTree :=
  gather t (locationOf ((Path.ofText (textOf t.here)).join p).text)

/-- Brings in included files, one after the other, until none is missing that could be read. -/
partial def gatherIncludes (b : Build) (t : FileTree) : IO FileTree := do
  match b.resolve t with
  | .error (.unreadable p .notFound) =>
    let more ← gatherPath t p
    if more.entries.length = t.entries.length then return t else gatherIncludes b more
  | _ => return t

/-- Brings in what a build looks at: its files, the place of its module, and its formatter. -/
def gatherBuild (b : Build) (e : Environment) (t : FileTree) : IO FileTree := do
  let t ← gatherIncludes b (← gatherPath t b.config)
  let t ← match b.resolve t >>= Build.configuration with
    | .ok c => gatherPath t (b.target c)
    | .error _ => pure t
  match e.formatter with
  | some name => if name.toList.contains '/' then gatherPath t (Path.ofText name) else return t
  | none => return t

/-- The working directory with the files right in it. -/
def surroundings : IO FileTree := do
  let here ← IO.currentDir
  let l := locationOf here.toString
  let t ← gather { entries := [], here := l } l
  (← here.readDir).foldlM (fun t e => gather t (l ++ [e.fileName.toList])) t

def putEntry (l : Location) : Entry → IO Unit
  | .directory => IO.FS.createDirAll (textOf l)
  | .file bytes _ => IO.FS.writeBinFile (textOf l) bytes
  | .sink => return ()

/-- Puts back what was changed, made or removed. -/
def putBack (before after : FileTree) : IO Unit := do
  for (l, e) in after.entries do
    if before.get? l ≠ some e then putEntry l e
  for (l, e) in before.entries.reverse do
    if (after.get? l).isNone then
      if e = .directory then IO.FS.removeDirAll (textOf l) else IO.FS.removeFile (textOf l)

def environment : IO Environment := do
  return {
    pollInterval := ← IO.getEnv "MUXC_POLL_INTERVAL_MS"
    logLevel := ← IO.getEnv "MUXC_LOG_LEVEL"
    logFormat := ← IO.getEnv "MUXC_LOG_FORMAT"
    logFilter := ← IO.getEnv "RUST_LOG"
    formatter := ← IO.getEnv "MUXC_RUSTFMT_BIN" }

def jsonChar (c : Char) : List Char :=
  if c = '"' ∨ c = '\\' then ['\\', c]
  else if c.toNat < 32 then "\\u00".toList ++ Yaml.Writer.hexDigits 2 c.toNat
  else [c]

def jsonText (s : String) : String := String.ofList ('"' :: s.toList.flatMap jsonChar ++ ['"'])

def detailText : Detail → String
  | .text s => jsonText s
  | .number n => toString n

def recordText (form : Settings.Form) (r : Record) : String :=
  let fields := ("message", Detail.text r.message) :: r.details
  match form with
  | .json =>
    "\x7b\"level\":\"" ++ r.level.name ++ "\",\"fields\":\x7b" ++
      ",".intercalate (fields.map (fun (k, v) => jsonText k ++ ":" ++ detailText v)) ++
      "\x7d,\"target\":" ++ jsonText r.target ++ "\x7d\n"
  | .pretty =>
    r.level.name ++ " " ++ r.message ++
      String.join (r.details.map (fun (k, v) => " " ++ k ++ "=" ++ detailText v)) ++ "\n"

def report (e : Environment) (i : Invocation) : IO Unit := do
  let out ← IO.getStdout
  let err ← IO.getStderr
  out.write i.stdout
  out.flush
  for r in i.records do err.putStr (recordText (Settings.form e.logFormat) r)
  err.putStr i.stderr

/-- Ticks for as long as the program runs. -/
partial def watch (b : Build) (e : Environment) (s : Watch.State) : IO Unit := do
  let files ← gatherBuild b e (← surroundings)
  let started ← IO.monoMsNow
  let t := Watch.tick b (Formatter.ofProgram e.formatter) s files
  putBack files t.files
  let elapsed := toString ((← IO.monoMsNow) - started) ++ "ms"
  (← IO.getStdout).write t.printed
  (← IO.getStderr).putStr t.complaints
  (← IO.getStdout).putStr (t.outcome.output elapsed)
  (← IO.getStdout).flush
  (← IO.getStderr).putStr t.outcome.complaint
  if !t.isFatal then
    IO.sleep (Settings.interval e.pollInterval).toUInt32
    watch b e t.state

def run (arguments : List String) : IO UInt32 := do
  let e ← environment
  let files ← surroundings
  let files ← match CommandLine.parse arguments with
    | .ok o => gatherBuild (Invocation.build o) e files
    | .error _ => pure files
  let i := Invocation.run (Formatter.ofProgram e.formatter) arguments e "" 0 files
  putBack files i.files
  report e i
  match CommandLine.parse arguments with
  | .ok o => if o.watch then watch (Invocation.build o) e {}
  | .error _ => pure ()
  return (i.exit?.getD 1).toUInt32

end RouteForge.Program

def main (arguments : List String) : IO UInt32 := RouteForge.Program.run arguments

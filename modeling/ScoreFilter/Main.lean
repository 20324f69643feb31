import ScoreFilter.CommandLine.Run

namespace ScoreFilter.CommandLine

def fetchFile (name : String) : IO Entry := do
  try
    match String.fromUTF8? (← IO.FS.readBinFile name) with
    | some content => return .text content
    | none => return .binary
  catch _ => return .locked

def fetchEntry (name : String) : IO (Option Entry) := do
  try
    let real ← IO.FS.realPath name
    if ← real.isDir then return some .directory
    else return some (← fetchFile name)
  catch _ => return none

def systemName (path : Path) : String :=
  "/" ++ "/".intercalate path

def fetch (files : Files) (name : String) : IO Files := do
  let mut files := files
  let mut path := files.origin name
  for step in Path.steps name do
    path := path.step step
    if (files.get? path).isNone then
      if let some entry ← fetchEntry (systemName path) then
        files := files.put path entry
  return files

def sources (e : Environment) (files : Files) (i : Invocation) : List String :=
  let named :=
    match Settings.load e files with
    | .ok s => i.catalog.or s.catalog
    | .error _ => i.catalog
  match i.command with
  | .complete .. => named.toList
  | .diagnose _ (some name) => [name]
  | _ => []

def readsInput (i : Invocation) : Bool :=
  match i.command with
  | .diagnose _ (some name) => name = "-"
  | _ => false

def store (before now : Files) : IO Unit := do
  for (path, entry) in now.entries do
    if before.get? path ≠ some entry then
      match entry with
      | .directory => IO.FS.createDirAll (systemName path)
      | .text content => IO.FS.writeFile (systemName path) content
      | .binary | .locked => pure ()

-- The home directory in the system's list of accounts, for the account that runs the program.
def accountHome : IO (Option String) := do
  try
    let status ← IO.FS.lines "/proc/self/status"
    let accounts ← IO.FS.lines "/etc/passwd"
    let user := status.findSome? fun line =>
      match line.splitOn "\t" with
      | "Uid:" :: user :: _ => some user
      | _ => none
    return accounts.findSome? fun line =>
      match line.splitOn ":" with
      | [_, _, id, _, _, home, _] => if some id = user then some home else none
      | _ => none
  catch _ => return none

def surroundings : IO Environment := do
  return ⟨← IO.getEnv "SFILTER_CONFIG", ← IO.getEnv "XDG_CONFIG_HOME", ← IO.getEnv "HOME",
    ← accountHome, ← IO.getEnv "SFILTER_CATALOG"⟩

def world (e : Environment) (words : List String) : IO World := do
  let mut files : Files := ⟨Path.steps (← IO.currentDir).toString, []⟩
  match parse e words with
  | .error _ => return ⟨e, none, files, .silent⟩
  | .ok i =>
    if let .ok name := e.settingsName then
      files ← fetch files name
    for name in sources e files i do
      files ← fetch files name
    let stdin ←
      if readsInput i then pure (String.fromUTF8? (← (← IO.getStdin).readBinToEnd))
      else pure none
    return ⟨e, stdin, files, .silent⟩

end ScoreFilter.CommandLine

def main (words : List String) : IO UInt32 := do
  let w ← ScoreFilter.CommandLine.world (← ScoreFilter.CommandLine.surroundings) words
  let outcome := ScoreFilter.CommandLine.run w words
  ScoreFilter.CommandLine.store w.files outcome.files
  IO.print outcome.stdout
  IO.eprint outcome.stderr
  return outcome.exit.toUInt32

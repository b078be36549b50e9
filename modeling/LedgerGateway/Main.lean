import LedgerGateway.Client
import Std.Time.DateTime.Timestamp

/-!
# The program

The program takes an action, a function and its arguments from the command line, does the
transaction and prints its result. What it needs from its surroundings is gathered first: the
environment, the files that the configuration names, the time, and bytes that are used only once.
All the rest is done by `LedgerGateway.Client`. There is no transport, so that every peer is one
that no network leads to.
-/

namespace LedgerGateway.Main

def reason (e : IO.Error) : IoError :=
  match e with
  | .noFileOrDirectory .. => .notFound
  | .inappropriateType _ 20 _ => .notDirectory
  | .inappropriateType _ 21 _ => .isDirectory
  | _ => .other (toString e)

def ask {α : Type} (question : IO α) : IO (Except IoError α) := do
  try
    return .ok (← question)
  catch e =>
    return .error (reason e)

def list (path : String) : IO (Except IoError (List String)) :=
  ask do
    let entries ← ((← IO.currentDir) / path).readDir
    return entries.toList.map (·.fileName)

def isFile (path : String) : IO (Except IoError Bool) :=
  ask do
    let info ← ((← IO.currentDir) / path).metadata
    return match info.type with
      | .file => true
      | _ => false

def read (path : String) : IO (Except IoError Bytes) :=
  ask do
    let content ← IO.FS.readBinFile path
    return content.toList

/-- The answers that a disk gave. -/
structure Snapshot where
  lists : List (String × Except IoError (List String))
  kinds : List (String × Except IoError Bool)
  contents : List (String × Except IoError Bytes)

def answer {α : Type} (answers : List (String × Except IoError α)) (path : String) :
    Except IoError α :=
  (answers.lookup path).getD (.error .notFound)

def Snapshot.toDisk (s : Snapshot) : Disk :=
  ⟨answer s.lists, answer s.kinds, answer s.contents⟩

def Snapshot.addFile (s : Snapshot) (path : String) : IO Snapshot := do
  return { s with
    kinds := (path, ← isFile path) :: s.kinds
    contents := (path, ← read path) :: s.contents }

def Snapshot.addDirectory (s : Snapshot) (path : String) : IO Snapshot := do
  let names ← list path
  let s := { s with lists := (path, names) :: s.lists }
  match names with
  | .ok names => names.foldlM (fun s name => s.addFile (Disk.join path name)) s
  | .error _ => return s

/-- The answers to what may be asked for a configuration. -/
def snapshot (c : Configuration) : IO Snapshot := do
  let s ← (⟨[], [], []⟩ : Snapshot).addFile c.tlsRootCertFile
  let s ← s.addDirectory c.certificateDirectory
  s.addDirectory c.keyDirectory

def environment : IO (List (String × String)) :=
  Configuration.allVariables.filterMapM fun name => do
    return (← IO.getEnv name).map fun value => (name, value)

def now : IO Protocol.Timestamp := do
  let t ← Std.Time.Timestamp.now
  let nanoseconds := t.toNanosecondsSinceUnixEpoch.toInt
  return ⟨Int64.ofInt (nanoseconds / 1000000000), Int32.ofInt (nanoseconds % 1000000000)⟩

def perform (line : CommandLine) : IO UInt32 := do
  let values ← environment
  let disk ←
    match Configuration.load (values.lookup ·) with
    | .ok c => pure (← snapshot c).toDisk
    | .error _ => pure (⟨[], [], []⟩ : Snapshot).toDisk
  let nonce ← IO.getRandomBytes (USize.ofNat nonceLength)
  let occasion : Occasion := ⟨nonce.toList, ← now⟩
  match (Client.run (values.lookup ·) disk .unreachable occasion line).2 with
  | .ok result =>
    IO.print (Client.printed result)
    return 0
  | .error failure =>
    match failure.credential with
    | some credential =>
      IO.eprintln ("Error: " ++ credential.context ++ "\n\nCaused by:\n    " ++
        failure.error.message)
    | none => IO.eprintln ("Error: " ++ failure.error.message)
    return 1

/-- Does what the words of a command line say. -/
def ofWords (words : List String) : IO UInt32 :=
  match CommandLine.parse words with
  | .ok line => perform line
  | .error fault => do
    IO.eprintln fault.name
    return UInt32.ofNat fault.exitCode

end LedgerGateway.Main

/-- Does what the command line says. -/
def main (words : List String) : IO UInt32 :=
  LedgerGateway.Main.ofWords words

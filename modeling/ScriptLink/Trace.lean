import ScriptLink.Content.Printer
import ScriptLink.FileTree
import ScriptLink.Session.Run
import ScriptLink.Terminal

/-!
# Tracing a module graph

A trace loads a module from files without running anything: every export of a module is
nothing, apart from the default export, which is an object without fields, so that it can
carry a template. The trace lists the calls to the host in order. A module counts as fetched
once its file has been read.

The session of a trace starts with all fetches at closed gates. It runs until every load
waits; then the file of the first waiting fetch is read, its gate is opened, and the session
runs on.
-/

namespace ScriptLink.Trace

/-- The file of a module: its path, without the slashes before it, below a directory. -/
def filePath (root path : String) : String :=
  let name := String.ofList (path.toList.dropWhile (· == '/'))
  if root = "" then name
  else if root.endsWith "/" then root ++ name
  else root ++ "/" ++ name

/-- The message for a module whose file cannot be read. -/
def fetchMessage (root path : String) (error : FileError) : String :=
  "Failed to fetch " ++ path ++ " (" ++ filePath root path ++ "): " ++ error.message

/-- A host without texts that runs nothing. -/
def dryHost : Host :=
  { texts := []
    results := []
    exportValue := fun _ item =>
      if item.name = defaultName then Content.emptyObject else .null
    failures := [] }

def isFetch : HostCall → Bool
  | .fetch _ => true
  | _ => false

/-- Whether a gate is that of a fetch. -/
def isFetchGate (gate : String) : Bool := gate.startsWith "fetch:"

/-- The first module whose fetch waits at its gate. -/
def waiting? (session : Session) : Option String :=
  (session.records.find? fun record =>
    match record.task with
    | .fetching => session.closed (HostCall.fetch record.path).gate
    | _ => false).map (·.path)

/-- Lets the fetch of a module go on with what its file gave. -/
def supply (root : String) (session : Session) (path : String) (text : Except FileError String) :
    Session :=
  let gate := (HostCall.fetch path).gate
  let informed := match text with
    | .ok text => session.write path text
    | .error error =>
      { session with host := session.host.refuse gate (fetchMessage root path error) }
  informed.openGate gate

/-- What a trace has found: the calls in order, and how the load ended, if it did. -/
structure Transcript where
  calls : List HostCall
  outcome : Option Outcome

/-- Runs the session of a trace, which reads at most `count` files. -/
def follow (root : String) (handle : Nat) :
    Nat → Session → List HostCall → Reading Transcript
  | 0, session, calls => .done ⟨calls, session.outcome? handle⟩
  | count + 1, session, calls =>
    let after := session.run.1
    let calls := calls ++ (after.log.toList.drop session.log.size).filter (!isFetch ·)
    match after.outcome? handle, waiting? after with
    | none, some path => .read (filePath root path) fun text =>
      follow root handle count (supply root after path text)
        (if text.toBool then calls ++ [.fetch path] else calls)
    | outcome, _ => .done ⟨calls, outcome⟩

/-- More files than any trace reads. -/
def fileLimit : Nat := Nat.pow 2 32

/-- Traces a module whose file is below a directory. -/
def run (config : Config) (root entry : String) : Reading Transcript :=
  let (session, handle) := (Session.start config dryHost isFetchGate).import? entry none
  follow root handle fileLimit session []

/-! ## Listing -/

/-- The lines for a call. -/
def callLines : HostCall → String
  | .fetch path => paint [.dimmed] "fetch" ++ " " ++ path ++ "\n"
  | .execute wrapper _ =>
    paint [.bold, .green] "execute" ++ " " ++ paint [.bold] wrapper.path ++ "\n" ++
      paint [.dimmed] wrapper.render ++ "\n"
  | .stylesheet href => paint [.cyan] "stylesheet" ++ " " ++ href ++ "\n"
  | .style css => paint [.cyan] "style" ++ " " ++ toString css.utf8ByteSize ++ " bytes\n"
  | .custom path => path ++ "\n"

/-- The line for the content of the module. -/
def exportsLine (content : Content) : String :=
  paint [.bold, .yellow] "exports" ++ " " ++ content.compact ++ "\n"

/-- The message for a failed load: the cause of a refused script is told once more. -/
def failureMessage (error : LoadError) : String :=
  match error with
  | .transpile _ source => error.message ++ ": " ++ source.message
  | _ => error.message

end ScriptLink.Trace

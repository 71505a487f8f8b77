import ScriptLink.Wrapper

/-!
# The host

Everything that the loader does to the world goes through a host: it fetches texts, runs
wrapped modules, and takes care of styles. A call is recorded when it begins and then passes
a gate of its own; while the gate is closed, the call is pending. An open gate lets the call
fail with a message, if the host has one for it, and otherwise go on.

A host is what it answers: texts by path, and contents for the modules that it runs.
-/

namespace ScriptLink

/-- A call to the host. -/
inductive HostCall where
  | fetch (path : String)
  /-- runs a module; the exports of its dependencies come along -/
  | execute (wrapper : Wrapper) (dependencies : List (String × Content))
  | stylesheet (href : String)
  | style (css : String)
  /-- the work of a loader that is not built in -/
  | custom (path : String)
  deriving Repr

/-- The name of the gate that the call passes. -/
def HostCall.gate : HostCall → String
  | fetch path => "fetch:" ++ path
  | execute wrapper _ => "execute:" ++ wrapper.path
  | stylesheet href => "stylesheet:" ++ href
  | style css => "style:" ++ css
  | custom path => "custom:" ++ path

/-- What the calls to a host answer. -/
structure Host where
  /-- the texts of the modules, by path -/
  texts : List (String × String)
  /-- what runs and style sheets answer, by path -/
  results : List (String × Content)
  /-- the value of one export of a module that has no result of its own -/
  exportValue : String → Export → Content
  /-- the message with which a call fails, by gate -/
  failures : List (String × String)

namespace Host

/-- The value of an export tells where it comes from. -/
def exportOrigin (path : String) (item : Export) : Content :=
  if item = .default then Content.ofFields [("module", .text path)]
  else .text (path ++ "#" ++ item.name)

/-- The text of a module, or the message that there is none. -/
def fetch (host : Host) (path : String) : Except String String :=
  match host.texts.lookup path with
  | some text => .ok text
  | none => .error ("404: " ++ path)

/-- What running a module answers: its result, or an object with one field per export. -/
def execute (host : Host) (wrapper : Wrapper) : Content :=
  (host.results.lookup wrapper.path).getD
    (Content.ofFields (wrapper.exports.map fun item =>
      (item.name, host.exportValue wrapper.path item)))

/-- What injecting a style sheet answers. -/
def stylesheet (host : Host) (href : String) : Content :=
  (host.results.lookup href).getD (Content.ofFields [("href", .text href)])

/-- Gives a module a new text. -/
def write (host : Host) (path text : String) : Host :=
  { host with texts := (path, text) :: host.texts.filter fun entry => entry.1 != path }

/-- Lets the calls that pass a gate fail. -/
def refuse (host : Host) (gate message : String) : Host :=
  { host with failures := (gate, message) :: host.failures }

/-- The total length of the texts, which bounds what modules can ask for. -/
def weight (host : Host) : Nat :=
  host.texts.foldr (fun entry total => entry.1.utf8ByteSize + entry.2.utf8ByteSize + 1 + total) 0

end Host

end ScriptLink

import ScriptLink.Component
import ScriptLink.Host
import ScriptLink.LoadError
import ScriptLink.Loader
import ScriptLink.Slot
import ScriptLink.WaitGraph

/-!
# Sessions

A session is everything that the modules of one page share: the settings, the host, the
loaders, one record per requested module, and the wait graph. Nothing happens in the
background. A load is a value, its `Task`, that says what the load has still to do, and it is
carried on by polling (`ScriptLink.Session.Poll`).

A module is recorded when it is first requested, and the record stays: a later request for
the same path, however it is spelled, is answered with the same load. A load ends with an
outcome, which is never changed again. An error keeps its identity on its way through the
modules that wait for it: two failures with the same `id` are the same error.
-/

namespace ScriptLink

/-- An error of one load, told apart from every other error by its number. -/
structure Failure where
  id : Nat
  error : LoadError
  deriving DecidableEq, Repr

/-- How a load ends. -/
abbrev Outcome := Except Failure Content

/-- The answer to a request: refused at once, or the load of the module at a path. -/
inductive Request where
  | refused (failure : Failure)
  | load (path : String)
  deriving DecidableEq, Repr

/-- How far a module is with one of its dependencies. -/
inductive Waiting where
  /-- it waits for the load to end -/
  | awaited (request : Request)
  /-- the load has ended well, with this content -/
  | arrived (content : Content)
  /-- it does not wait, since that would close a cycle -/
  | deferred
  deriving Repr

/-- One dependency of a module. -/
structure Dependency where
  path : String
  waiting : Waiting
  deriving Repr

/-- A script on its way from the rewrite to the host: what it asks for by specifier, and how
far each of these dependencies is. -/
structure Linking where
  script : Script
  requests : ImportMap
  dependencies : List Dependency
  /-- the component that the script belongs to, if it does -/
  component : Option Component
  deriving Repr

/-- What a load has still to do. In the states named for a call, the call has begun and may
have to wait at its gate. -/
inductive Task where
  | start
  | fetching
  | linking (linking : Linking)
  | executing (wrapper : Wrapper) (dependencies : List (String × Content))
      (component : Option Component)
  /-- a style of a component; others and the template come later -/
  | styling (css : String) (later : List String) (exports : Content) (template : Option String)
  | injecting
  | customizing (loader : CustomLoader)
  /-- the answer is that of another request -/
  | following (request : Request)
  | settled (outcome : Outcome)
  deriving Repr

/-- A requested module: its loader, the place for its content, and its load. -/
structure Record where
  path : String
  loader : Loader
  slot : Slot
  task : Task
  deriving Repr

/-- A request from outside, and how it ended. -/
structure Handle where
  request : Request
  outcome : Option Outcome
  deriving Repr

/-- What the modules of one page share. -/
structure Session where
  config : Config
  host : Host
  /-- the gates that are closed -/
  closed : String → Bool
  loaders : Loaders
  /-- one record per requested module, in the order of the first requests -/
  records : List Record
  waits : WaitGraph
  handles : List Handle
  /-- the calls that have begun -/
  log : Array HostCall
  /-- the number of errors so far -/
  failures : Nat
  /-- the total length of the texts, requests and loaders that have come in; it never falls -/
  demand : Nat

namespace Session

/-- A session in which nothing has been requested. -/
def start (config : Config) (host : Host) (closed : String → Bool) : Session :=
  ⟨config, host, closed, Loaders.builtIn, [], WaitGraph.empty, [], #[], 0, host.weight⟩

/-! ## Records -/

/-- The record of a module. -/
def find? (session : Session) (path : String) : Option Record :=
  session.records.find? (·.path == path)

/-- Changes the record of a module. -/
def update (session : Session) (path : String) (change : Record → Record) : Session :=
  { session with
    records := session.records.map fun record =>
      if record.path == path then change record else record }

/-- Says what the load of a module has to do next. -/
def setTask (session : Session) (path : String) (task : Task) : Session :=
  session.update path fun record => { record with task := task }

def setSlot (session : Session) (path : String) (slot : Slot) : Session :=
  session.update path fun record => { record with slot := slot }

/-- The content of a module, once its slot is sealed. -/
def exports? (session : Session) (path : String) : Option Content :=
  (session.find? path).bind (·.slot.get?)

/-! ## Steps of a load -/

/-- Records that a call to the host begins. -/
def call (session : Session) (call : HostCall) : Session :=
  { session with log := session.log.push call }

/-- A new error. -/
def fail (session : Session) (error : LoadError) : Session × Failure :=
  ({ session with failures := session.failures + 1 }, ⟨session.failures, error⟩)

/-- Ends a load with an error that exists already. -/
def reject (session : Session) (path : String) (failure : Failure) : Session :=
  session.setTask path (.settled (.error failure))

/-- Ends a load with a new error. -/
def rejectWith (session : Session) (path : String) (error : LoadError) : Session :=
  let (session, failure) := session.fail error
  session.reject path failure

/-- Ends a load with a content, unless the slot has been sealed by someone else. -/
def resolve (session : Session) (path : String) (content : Content) : Session :=
  match (session.find? path).bind (·.slot.seal? content) with
  | some slot => (session.setSlot path slot).setTask path (.settled (.ok content))
  | none => session.rejectWith path (.duplicateExport path)

/-- Whether a call may go on: none while its gate is closed, then its message of failure, if
the host has one. -/
def pass? (session : Session) (call : HostCall) : Option (Except String Unit) :=
  if session.closed call.gate then none
  else
    match session.host.failures.lookup call.gate with
    | some message => some (.error message)
    | none => some (.ok ())

/-! ## Requests -/

/-- Requests the module that `specifier` names in the module `referrer`: the resolved path
and the load, which is recorded if it is new. Nothing is polled. -/
def request (session : Session) (specifier referrer : String) : Session × String × Request :=
  let path := Path.resolve referrer specifier
  match session.loaders.find? specifier with
  | none =>
    let (session, failure) := session.fail (.unknownSuffix path)
    (session, path, .refused failure)
  | some loader =>
    if (session.find? path).isSome then (session, path, .load path)
    else
      ({ session with records := session.records ++ [⟨path, loader, .empty, .start⟩] }, path,
        .load path)

/-- Requests one dependency of `importer` and lets the importer wait for it, unless that
would close a cycle. -/
def depend (session : Session) (importer specifier : String) : Session × Dependency :=
  let (session, path, request) := session.request specifier importer
  match session.waits.wait? importer path with
  | some waits => ({ session with waits := waits }, ⟨path, .awaited request⟩)
  | none => (session, ⟨path, .deferred⟩)

/-- Requests all dependencies of `importer`, in order. -/
def dependAll (session : Session) (importer : String) :
    List String → Session × List Dependency
  | [] => (session, [])
  | specifier :: rest =>
    let (session, dependency) := session.depend importer specifier
    let (session, dependencies) := session.dependAll importer rest
    (session, dependency :: dependencies)

end Session

end ScriptLink

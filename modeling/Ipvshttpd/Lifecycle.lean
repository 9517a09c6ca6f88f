import Ipvshttpd.Logging

/-!
# The life of the server object

The class `http_server` of `http_server.cpp` as a state machine. Its owner calls `start`, `stop` and
the destructor one after the other; `start` does not return before `run()` does. While `run()`
executes, a SIGINT or SIGTERM may arrive, whose handler calls `stop`.

`server_t` objects are numbered in the order of their allocation.
-/

namespace Ipvshttpd

open CLib

/-- What happens to the `server_t` objects: `new`, the call of `run()` and its return,
    `server_t::stop()` and `delete`; and the log calls in between. -/
inductive ServerEvent where
  /-- `new server_t` -/
  | alloc (id : Nat)
  /-- `run()` is called. -/
  | run (id : Nat)
  /-- `run()` returns. -/
  | returned (id : Nat)
  /-- `server_t::stop()` -/
  | halt (id : Nat)
  /-- `delete` -/
  | free (id : Nat)
  /-- A log message. -/
  | log (c : LogCall)
  deriving DecidableEq

/-- An `http_server` with all that happened to its objects. -/
structure HttpServer where
  /-- The object that `m_server` points to. -/
  mServer : Option Nat
  /-- How many objects have been allocated. -/
  allocated : Nat
  /-- The object on which `run()` is executing. -/
  running : Option Nat
  /-- The handler registered with `signals.async_wait` has not been called yet. -/
  armed : Bool
  /-- The destructor has been called. -/
  destroyed : Bool
  /-- What has happened so far. -/
  events : List ServerEvent
  deriving DecidableEq

/-- What `start` finds: whether `ipvs.init()` succeeds, whether the configuration enables SSL, and
    whether the SSL files can be loaded. -/
structure StartConditions where
  /-- `ipvs.init()` succeeds. -/
  init : Bool
  /-- The configuration enables SSL. -/
  ssl : Bool
  /-- The SSL files can be loaded. -/
  sslFiles : Bool

/-- What the owner does, and what happens to the process. -/
inductive ServerInput where
  /-- The owner calls `start`. -/
  | start (cond : StartConditions)
  /-- `run()` returns, and with it `start`. -/
  | runReturns
  /-- The owner calls `stop`. -/
  | stop
  /-- The owner calls the destructor. -/
  | destroy
  /-- SIGINT or SIGTERM is delivered. -/
  | signal

namespace HttpServer

/-- The constructor. -/
def new : HttpServer := ⟨none, 0, none, false, false, []⟩

/-- Something happens. -/
def emit (s : HttpServer) (evs : List ServerEvent) : HttpServer :=
  { s with events := s.events ++ evs }

/-- Stops the server and deletes it, if there is one. -/
def stop (s : HttpServer) : HttpServer :=
  match s.mServer with
  | none => s
  | some id =>
    { s.emit [.log (.message (lit "Server stop.")), .halt id, .free id] with mServer := none }

/-- Creates the server, sets up the signal handler and calls `run()`. -/
def create (s : HttpServer) : HttpServer :=
  { s.emit [.alloc s.allocated, .log (.message (lit "Server start.")), .run s.allocated] with
    mServer := some s.allocated
    allocated := s.allocated + 1
    running := some s.allocated
    armed := true }

/-- Starts the server, up to the call of `run()`. SSL files that cannot be loaded raise an
    exception, which leaves `start`. -/
def start (s : HttpServer) (cond : StartConditions) : HttpServer :=
  if cond.init then
    let s := s.stop
    if cond.ssl then
      let s := s.emit [.log (.message (lit "Enabling SSL."))]
      if cond.sslFiles then s.create else s
    else s.create
  else s

/-- One step; `none` if the input cannot occur. The owner makes a call only if the previous one has
    returned, and none after the destructor. A second signal finds no handler waiting. -/
def step (s : HttpServer) : ServerInput → Option HttpServer
  | .start cond => if s.running = none ∧ ¬ s.destroyed then some (s.start cond) else none
  | .stop => if s.running = none ∧ ¬ s.destroyed then some s.stop else none
  | .destroy =>
    if s.running = none ∧ ¬ s.destroyed then some { s.stop with destroyed := true } else none
  | .runReturns =>
    match s.running with
    | some id => some { s.emit [.returned id] with running := none, armed := false }
    | none => none
  | .signal =>
    if s.running = none then none
    else if s.armed then some { s.stop with armed := false }
    else some s

/-- A sequence of inputs, each of which can occur. -/
def run : HttpServer → List ServerInput → Option HttpServer
  | s, [] => some s
  | s, i :: is => (s.step i).bind (run · is)

/-! ## The intended life of an object -/

/-- An object is only deleted after the `run()` made on it has returned. -/
def FreedAfterReturn (events : List ServerEvent) : Prop :=
  ∀ id pre post, events = pre ++ .free id :: post → .returned id ∈ pre

/-- Every object is deleted at most once, and only after its `run()` has returned; `m_server` points
    to an object exactly while there is one that has not been deleted; the destructor leaves none. -/
structure ProperLife (s : HttpServer) : Prop where
  /-- No object is deleted twice. -/
  once : ∀ id, s.events.count (.free id) ≤ 1
  /-- No object is deleted while it is running. -/
  afterReturn : FreedAfterReturn s.events
  /-- `m_server` points to an object if and only if one has not been deleted. -/
  live : s.mServer ≠ none ↔ ∃ id, .alloc id ∈ s.events ∧ .free id ∉ s.events
  /-- After the destructor, every object has been deleted. -/
  noLeak : s.destroyed = true → ∀ id, .alloc id ∈ s.events → s.events.count (.free id) = 1

end HttpServer

end Ipvshttpd

import SmartFactory.Server.System

/-!
# `SmartFactory.Server.Lifecycle`: one life of the server after the other

`main` of `src/opcua_server.c` loads the configuration, builds the address space and runs until a
signal or `POST /api/restart` ends it. Whoever runs the server starts it again. From one life to the
next only the configuration file is left.

The file is replaced in one step, the `rename` of a save. So an exit in the middle of an event is an
exit before it or after it, as far as the file goes.
-/

set_option autoImplicit false

namespace SmartFactory.Server

/-- The program with its file. -/
inductive Machine where
  | stopped (file : Option CString)
  | running (s : HttpServer)

/-- The content of the file. -/
def Machine.file : Machine → Option CString
  | .stopped file => file
  | .running s => s.world.file

/-- The program is started, it reacts to an event, or it exits. -/
inductive LifeEvent where
  | start (host : Host) (nsIdx : Nat) (io : LoadIo)
  | event (e : Event)
  | exit

/-- `main` up to its loop. The program exits when the load or the build fails. -/
def startServer (cjson : CJson) (host : Host) (nsIdx : Nat) (io : LoadIo)
    (file : Option CString) : Machine :=
  match serverConfigLoad cjson io file with
  | (none, file) => .stopped file
  | (some cfg, file) =>
      match start host nsIdx cfg file with
      | some w => .running ⟨w, false⟩
      | none => .stopped file

/-- One step. -/
def stepMachine (env : HttpEnv) : Machine → LifeEvent → Option Machine
  | .stopped file, .start host nsIdx io => some (startServer env.cjson host nsIdx io file)
  | .running s, .event e => (stepEvent env s e).map .running
  | .running s, .exit => some (.stopped s.world.file)
  | _, _ => none

end SmartFactory.Server

/-
  The service: a manager on a database, as its environment configures it.

  The variables of the process and those of an environment file are its
  configuration.  The service says on the log what it does; a mistake in the
  configuration ends it before it has started.

  * `Service.start` is everything up to the moment where the service runs;
  * `Service.stop` is what it does when it is interrupted.
-/
import DueWork.Config.EnvFile
import DueWork.Logging.Subscriber
import DueWork.Notification.Webhook
import DueWork.Simulation.Run

namespace DueWork

open Time Logging Simulation

/-- A service that runs, or the reason why it does not, with the lines that it
    has logged. -/
structure Service where
  log : List String
  run : Except Error (Run Database)

namespace Service

/-- What the service's own log lines begin with. -/
def target : String := "notify_scheduler"

/-- A line, if the filter lets it through. -/
def line (vars : List (String × String)) (text : String) : List String :=
  if (Filter.ofVariable (vars.lookup "RUST_LOG")).allows target .info then
    ["INFO " ++ target ++ ": " ++ text]
  else []

/-- A manager that has not started on a database without instances. -/
def idle (now : Instant) : Run Database where
  system := {
    config := {}
    processors := ⟨[]⟩
    shared := { store := .migrated, pool := .ofConfig {} }
    clock := { time := 0, wall := now } }

/-- Put the listeners of a partition into the registry. -/
def listen (s : System Database) (p : PartitionConfig) : System Database :=
  (p.fanOut.getD [p.key.name]).foldl (fun s d => (s.registerListener d).2) s

/-- Start the manager that a source configures. -/
def startManager (now : Instant) (c : SchedulerConfig) : Except Error (Run Database) := do
  let processors := Processors.ofList (c.partitions.map fun p => p.key.instanceType)
  let r ← (idle now).startManager c processors
  return ({ r with system := c.partitions.foldl listen r.system }).settle

/-- Start the service with these variables. -/
def startWith (now : Instant) (vars : List (String × String)) : Service :=
  let source := Environment.source Environment.defaultStem vars
  match SchedulerConfig.ofSource source with
  | .error e => ⟨[], .error e⟩
  | .ok config =>
    match WebhookConfig.ofSource source with
    | .error e => ⟨[], .error e⟩
    | .ok webhook =>
      let webhookLines := webhook.toList.flatMap fun w =>
        line vars ("Webhook channel enabled url=" ++ w.url ++ " channel=" ++ w.channelType)
      match startManager now config with
      | .error e => ⟨webhookLines, .error e⟩
      | .ok r =>
        let running := "notify-scheduler running with partitions " ++
          Text.quotedList r.system.partitions
        ⟨webhookLines ++ line vars running, .ok r⟩

/-- The variables of the process and of the environment file. -/
def environment (process : List (String × String)) (file : Option String) :
    List (String × String) :=
  match file with
  | some text => EnvFile.load text process
  | none => process

/-- Start the service in a process with these variables. -/
def start (now : Instant) (process : List (String × String)) (file : Option String) : Service :=
  startWith now (environment process file)

/-- Shut the service down: the lines that it logs. -/
def stop (vars : List (String × String)) (r : Run Database) : List String :=
  let (report, _) := r.stop
  line vars "Shutdown requested" ++
    line vars ("notify-scheduler stopped total_partitions=" ++ toString report.partitions ++
      " completed_cycles=" ++ toString report.shutdown.completed ++ " forced_terminations=" ++
      toString report.shutdown.aborted)

end Service

end DueWork

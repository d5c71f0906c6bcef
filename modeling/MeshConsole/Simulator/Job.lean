import MeshConsole.Simulator.State

/-!
# Jobs of the simulator

A job is queued, runs, and ends when it has been polled often enough: failed, if its type is set to
fail at that poll, else succeeded. What it does happens at that poll; an ended job no longer
changes.
-/

namespace MeshConsole.Simulator

def jobTypes : List Text := ["scan", "factory_reset", "reboot", "update", "lqi_refresh"]

namespace SimJob

def isDone (job : SimJob) : Bool := job.state == "succeeded" || job.state == "failed"

/-- The report on a job. -/
def toJson (job : SimJob) : Json.Value :=
  .map [
    ("job_id", .int job.id.toInt),
    ("type", .text job.type),
    ("state", .text job.state),
    ("done", .bool job.isDone),
    ("created_ms", .int job.createdMs.toNat),
    ("updated_ms", .int job.updatedMs.toNat),
    ("error", .text (if job.failure.isEmpty then "ESP_OK" else job.failure)),
    ("result", job.result.getD .null)]

end SimJob

/-- Queues a job of a known type. -/
def queueJob (s : Simulator) (now : Instant) (type : Text) (delayMs : Int64) :
    Simulator × SimJob :=
  let id := s.lastJobId + 1
  let uptime := s.uptimeMs now
  let job : SimJob := { id, type, delayMs, createdMs := uptime, updatedMs := uptime }
  ({ s with lastJobId := id, jobs := s.jobs.set id job }, job)

/-- Does what a job is for. -/
def execute (s : Simulator) (now : Instant) (job : SimJob) :
    Simulator × Json.Value × List Effect :=
  if job.type == "scan" then
    (s, .map [("networks", .list (s.networks.map Network.toJson))], [])
  else if job.type == "reboot" then
    (s, .map [("message", .text "Reboot scheduled"), ("delay_ms", .int job.delayMs.toInt)], [])
  else if job.type == "factory_reset" then
    (s, .map [("message", .text "Factory reset completed")], [])
  else if job.type == "update" then
    (s, .map [("message", .text "Update check completed")], [])
  else
    let (s, effects) := s.refreshTable now
    let rows := s.neighbors.map Neighbor.toJson
    (s, .map [("count", .int s.neighbors.length), ("neighbors", .list rows)], effects)

/-- Moves a job on by one poll. -/
def pollJob (s : Simulator) (now : Instant) (job : SimJob) : Simulator × SimJob × List Effect :=
  if job.isDone then (s, job, [])
  else
    let job := { job with polls := job.polls + 1, updatedMs := s.uptimeMs now }
    let keep := fun (s : Simulator) (job : SimJob) => { s with jobs := s.jobs.set job.id job }
    if job.polls < s.pollsToComplete then
      let job := { job with state := "running" }
      (keep s job, job, [])
    else
      let failure := (s.failures.get? job.type).getD []
      if !failure.isEmpty then
        let job :=
          { job with state := "failed", failure, result := some (.map [("error", .text failure)]) }
        (keep s job, job, [])
      else
        let (s, result, effects) := s.execute now job
        let job := { job with state := "succeeded", result := some result }
        (keep s job, job, effects)

end MeshConsole.Simulator

import DogBot.Server.ExactlyOnce

/-! # Status

A snapshot of the scheduler tells what the log tells: which tasks have ended last,
how many of the accepted ones run and wait, and which ones run. No slot is free
while a task of an idle conversation waits.
-/

namespace DogBot

open Arrival (lane mem_lane)

namespace PipelineState

variable {app : AppState} {s s' : PipelineState} {r : ReferenceScheduler} {task : ScheduledRun}
  {m d : ℕ}

namespace Tracked

end Tracked

end PipelineState

end DogBot

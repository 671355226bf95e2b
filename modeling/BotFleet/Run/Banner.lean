import BotFleet.CommandLine.Plan
import BotFleet.Report.RunId

/-!
# What is printed before a run

* `Plan.banner`: the lines that tell what a run is going to do.
-/

namespace BotFleet

namespace Plan

/-- How the behaviour of the bots is described. -/
def paceLine (p : Plan) : String :=
  match p.pace with
  | some pace =>
    s!"Behavior: move every {pace.moveInterval}ms ({pace.moveDuration}ms forward), " ++
      s!"chat every {pace.chatInterval}ms"
  | none => "Behavior: disabled (login only)"

/-- The lines that tell what a run is going to do. -/
def banner (p : Plan) (id : RunId) : List String :=
  ["", "=== Starting Bot Swarm ===",
    s!"Run: {id.text}",
    s!"Server: {p.target.host}:{p.target.port}",
    s!"Version: {p.target.version}",
    s!"Bots: {p.bots}",
    s!"Stagger: {p.stagger}ms",
    p.paceLine] ++
  (p.holdSecs.map fun secs => s!"Hold: {secs}s").toList ++
  ["==========================", ""]

end Plan

end BotFleet

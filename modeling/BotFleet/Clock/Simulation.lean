/-!
# Running a timed system

A timed system does at each instant what it can do without time passing, and then waits for the
next instant at which something is due.

* `Timed`: a system that settles, waits, and lets time pass;
* `Timed.runUntil`: run until a condition holds, or some time has passed;
* `Timed.await`: the same for a wait, which without any time sees only what is there already.
-/

namespace BotFleet

/-- A system that runs in time. -/
structure Timed (σ : Type) where
  /-- Do everything that can be done at this instant. -/
  settle : σ → σ
  /-- How long it takes until something is due; nothing may be due ever. -/
  wait? : σ → Option Nat
  /-- Let time pass. -/
  pass : Nat → σ → σ

namespace Timed

variable {σ : Type}

/-- Run until a condition holds at a settled instant, for `left` milliseconds at most, and say
whether it held. -/
def runUntil (sys : Timed σ) (done : σ → Bool) (left : Nat) (s : σ) : σ × Bool :=
  let s := sys.settle s
  if done s then (s, true)
  else
    match sys.wait? s with
    | none => (sys.pass left s, false)
    | some d =>
      if _h : 0 < d ∧ d ≤ left then runUntil sys done (left - d) (sys.pass d s)
      else (sys.pass left s, false)
termination_by left
decreasing_by omega

/-- Wait for a condition, for `limit` milliseconds at most, and say whether it held. A wait without
any time is over before anything is done. -/
def await (sys : Timed σ) (done : σ → Bool) (limit : Nat) (s : σ) : σ × Bool :=
  if limit = 0 then (s, done s) else sys.runUntil done limit s

/-- Run for some time. -/
def run (sys : Timed σ) (left : Nat) (s : σ) : σ := (sys.runUntil (fun _ => false) left s).1

end Timed

end BotFleet

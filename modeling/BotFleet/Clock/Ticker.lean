/-!
# Instants and tickers

Time is counted in milliseconds.

* `Clock.last`, `Clock.longestSleep`, `Clock.wake`: the last instant, and when a sleep ends;
* `Ticker`: something that is due once every period, the first time one period after its start;
* `Ticker.start?`, `Ticker.advance`.
-/

namespace BotFleet

namespace Clock

/-- The last instant of the clock, whose seconds are a signed 64-bit number. -/
def last : Nat := 0x8000000000000000 * 1000 - 1

/-- No sleep lasts longer than thirty years of 365 days. -/
def longestSleep : Nat := 30 * 365 * 24 * 60 * 60 * 1000

/-- The instant at which a sleep ends. -/
def wake (now duration : Nat) : Nat := now + min duration longestSleep

end Clock

/-- Something that is due once every period. -/
structure Ticker where
  period : Nat
  due : Nat
  period_pos : 0 < period
deriving DecidableEq

namespace Ticker

/-- A ticker that is due one period from now. It cannot start without a period, nor if it would
first be due after the last instant. -/
def start? (now period : Nat) : Option Ticker :=
  if h : 0 < period ∧ now + period ≤ Clock.last then some ⟨period, now + period, h.1⟩ else none

/-- The ticker after a tick: it sleeps for a period, while its first period was no sleep. -/
def advance (t : Ticker) (now : Nat) : Ticker := { t with due := Clock.wake now t.period }

end Ticker

end BotFleet

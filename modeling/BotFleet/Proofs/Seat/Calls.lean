import BotFleet.Proofs.Seat.Timely

/-!
# The calls of a session

* `Client.Call.Kind`: what a call asks for, apart from what is drawn;
* `Client.Responses.asks`: the calls of a turn of some kind;
* `History.moments`: when a session has its turns, and of which kind they are;
* `Seat.calls`: the calls that a session has made on its client, and when;
* **`Seat.calls_run`**: only the moments and the client's responses decide on them.
-/

namespace BotFleet

namespace Client

/-- What a call asks for. Where a bot turns to, apart from the height, and what it says are drawn. -/
inductive Call.Kind where
  | look (height : Double) (immediate : Bool)
  | control (control : Control) (engaged : Bool)
  | chat
deriving DecidableEq

def Call.kind : Call → Call.Kind
  | .lookAt point immediate => .look point.y immediate
  | .setControl control engaged => .control control engaged
  | .chat _ => .chat

/-- What a turn asks of a client that responds so. -/
def Responses.asks (r : Responses) : Turn.Kind → List Call.Kind
  | .move =>
    match r.sight with
    | .at p => .look p.y true :: if r.look = .done then [.control .forward true] else []
    | _ => []
  | .chat => [.chat]
  | .release => [.control .forward false]

end Client

/-- What an effect asks of the client. -/
def Effect.asked? : Effect → Option Client.Call.Kind
  | .call c => some c.kind
  | _ => none

theorem Effect.asked?_of_not_deed {e : Effect} (h : e.isDeed = false) : e.asked? = none := by
  cases e <;> first | rfl | cases h

/-- **A lawful turn asks for what its kind and the client's responses say.** -/
theorem Turn.Lawful.asks {u : Turn} (h : u.Lawful) :
    u.deeds.filterMap Effect.asked? = u.responses.asks u.kind := by
  unfold Lawful at h
  cases hk : u.kind <;> rw [hk] at h
  case move =>
    cases hs : u.responses.sight <;> rw [hs] at h <;> simp only [Client.Responses.asks, hs]
    case «at» p =>
      obtain ⟨q, hq, hdeeds⟩ := h
      rw [hdeeds, ← hq]
      by_cases hl : u.responses.look = .done <;> by_cases he : u.responses.engage = .done <;>
        simp [hl, he, Effect.asked?, Client.Call.kind]
    all_goals
      rw [show u.deeds = [] from h]
      rfl
  case chat =>
    obtain ⟨line, -, hdeeds⟩ := h
    rw [hdeeds]
    by_cases hc : u.responses.chat = .done <;>
      simp [hc, Effect.asked?, Client.Call.kind, Client.Responses.asks]
  case release =>
    rw [show u.deeds = [_] from h]
    rfl

namespace History

/-- When a session has its turns, and of which kind they are. -/
def moments (h : History) : List (Nat × Turn.Kind) := h.turns.map fun x => (x.1, x.2.kind)

theorem count_moments (h : History) (n : Nat) (k : Turn.Kind) :
    h.moments.count (n, k) = ((h.turnsOf k).map Prod.fst).count n := by
  rw [moments, turnsOf, List.count, List.count, List.countP_map, List.countP_map,
    List.countP_filter]
  refine List.countP_congr fun x _ => ?_
  simp [Prod.ext_iff]

end History

namespace Seat

/-- The calls that a session has made on its client, and when. -/
def calls (seat : Seat) : List (Nat × Client.Call.Kind) :=
  seat.journal.toList.filterMap fun x => x.2.asked?.map (x.1, ·)

theorem calls_eq (seat : Seat) :
    seat.calls = seat.timedDeeds.filterMap fun x => x.2.asked?.map (x.1, ·) := by
  rw [calls, timedDeeds, List.filterMap_filter]
  refine congrArg (List.filterMap · _) (funext fun x => ?_)
  cases hx : x.2.isDeed with
  | true => rfl
  | false => rw [Effect.asked?_of_not_deed hx]; rfl

/-- **Only the moments and the client's responses decide on the calls of a session.** -/
theorem calls_run (start : Nat) (settings : SessionSettings) (pace : Option Pace) (script : Script)
    (ms : List Move) {responses : Client.Responses}
    (hresponses : ∀ x ∈ ((fresh start settings pace script).history ms).turns,
      x.2.responses = responses) :
    ((fresh start settings pace script).run ms).calls =
      ((fresh start settings pace script).history ms).moments.flatMap fun x =>
        (responses.asks x.2).map (x.1, ·) := by
  have hc := coherent_fresh start settings pace script
  have hlawful := lawful_history hc ms
  have hnone : (fresh start settings pace script).timedDeeds = [] := rfl
  rw [calls_eq, timedDeeds_run hc, hnone, List.nil_append, List.filterMap_flatMap, History.moments,
    List.flatMap_map]
  rw [List.flatMap_def, List.flatMap_def]
  refine congrArg List.flatten (List.map_congr_left fun x hx => ?_)
  rw [← hresponses x hx, ← (hlawful x hx).asks, List.filterMap_map, List.map_filterMap]
  rfl

end Seat

end BotFleet

import Orator.Engine

/-! What the engines of one name went through, over all their instances. -/

namespace Orator.Rehearsal

structure Tally where
  starts : Nat
  stops : Nat
  /-- Some instance was started to be spoken with. -/
  startedWithCallback : Bool
  voices : List String
  speeds : List Float32
  pitches : List Float32
  punctuation : List PunctuationLevel
  prose : List String
  characters : List String
  /-- What the callback returned each time, as far as the engine heeded it. -/
  returns : List Bool

def Tally.of (h : History) (returns : List (String × Bool)) (name : String) : Tally :=
  let calls := h.reverse
  let settings := calls.filterMap fun
    | .set engine setting _ => if engine.name = name then some setting else none
    | _ => none
  let speeches := calls.filterMap fun
    | .speak engine speech => if engine.name = name then some speech else none
    | _ => none
  { starts := calls.countP fun
      | .start _ _ (some engine) => engine.name == name
      | _ => false
    stops := calls.countP fun
      | .stop engine => engine.name == name
      | _ => false
    startedWithCallback := calls.any fun
      | .start _ withCallback (some engine) => withCallback && engine.name == name
      | _ => false
    voices := settings.filterMap fun
      | .voice native => some native
      | _ => none
    speeds := settings.filterMap fun
      | .speed factor => some factor
      | _ => none
    pitches := settings.filterMap fun
      | .pitch factor => some factor
      | _ => none
    punctuation := settings.filterMap fun
      | .punctuation level => some level
      | _ => none
    prose := speeches.filterMap fun
      | .prose text => some text
      | _ => none
    characters := speeches.filterMap fun
      | .character text => some text
      | _ => none
    returns := (returns.filter (·.1 == name)).map (·.2) }

end Orator.Rehearsal

import Orator.Audio.Pipeline
import Orator.Rehearsal.Host

/-! The pipeline alone, with one thread that takes both sides in turn. -/

namespace Orator.Rehearsal

structure Bench where
  limits : Pipeline.Limits
  pipe : Pipeline.State := {}
  host : HostState := {}

namespace Bench

/-- The callback from call to return; it takes at most eight steps. `none` if it waits for room. -/
def hand (buffer : List Sample) (engineCancelled : Bool) (b : Bench) : Option (Bool × Bench) :=
  let rec go : Nat → Pipeline.State → Option (Bool × Bench)
    | 0, _ => none
    | fuel + 1, pipe =>
      match pipe.producer with
      | .returned abort => some (abort, { b with pipe })
      | _ => (Pipeline.step b.limits (.produce b.host.stopRequested) pipe).bind (go fuel)
  (Pipeline.step b.limits (.call buffer engineCancelled) b.pipe).bind (go 8)

/-- More steps than it takes to deliver what is in the channel. -/
def work (b : Bench) : Nat :=
  b.pipe.queue.foldl (fun
    | n, .audio frame => n + 2 * frame.samples.length + 8
    | n, .finish => n + 8) 8

/-- Closes the channel and delivers what is in it; `none` if nobody is there to receive. -/
def deliver (b : Bench) : Option Pipeline.Stats × Bench :=
  let b := { b with pipe := b.pipe.endUtterance }
  let rec go : Nat → Bench → Option Pipeline.Stats × Bench
    | 0, b => (none, b)
    | fuel + 1, b =>
      match b.pipe.delivery with
      | .finished stats => (some stats, b)
      | .pushing .. =>
        match b.host.verdict? with
        | none => (none, b)
        | some verdict =>
          match Pipeline.step b.limits (.deliver verdict) b.pipe with
          | some pipe => go fuel { b with pipe, host := b.host.finish }
          | none => (none, b)
      | _ =>
        match Pipeline.step b.limits (.deliver .accepted) b.pipe with
        | some pipe => go fuel { b with pipe }
        | none => (none, b)
  if b.pipe.receiver then go b.work { b with pipe := b.pipe.startDelivery } else (none, b)

def unseen (b : Bench) : List HostEvent :=
  b.pipe.heard.reverse.filter HostEvent.visible

def markShown (b : Bench) : Bench :=
  { b with pipe.heard := [] }

end Bench

end Orator.Rehearsal

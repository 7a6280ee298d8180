/-
  Sources: what a stream of randomness is asked from.

  A source is a seed, a seed sequence, a stream itself, the ambient stream that is used when
  nothing is given, or a generator that cannot be split, which is refused.

  * `Source.openStream`: the stream of a source;
  * `Source.close`: the source after its stream was used.  A seed starts afresh every time,
    a seed sequence remembers how many children it has given out, a stream goes on where it
    stopped;
  * `spawnStreams`: children in a number given as a value.
-/
import Gibbs.Stream.Basic
import Gibbs.Value.Count

namespace Gibbs

/-- What a stream is asked from. -/
inductive Source where
  | seed (n : Int)
  | sequence (s : SeedSequence)
  | stream (s : Stream)
  | ambient (s : Stream)
  | unsplittable

namespace Source

/-- The stream of a source. -/
def openStream : Source → Except Error Stream
  | seed n =>
    match SeedSequence.ofInt? n with
    | some s => .ok (.seeded (Seeded.ofSeeds s))
    | none => .error (.fault .badValue)
  | sequence s => .ok (.seeded (Seeded.ofSeeds s))
  | stream s => .ok s
  | ambient s => .ok s
  | unsplittable => .error .unsplittableGenerator

/-- The source after its stream was used. -/
def close : Source → Stream → Source
  | sequence _, .seeded g => sequence g.seeds
  | stream _, s => stream s
  | ambient _, s => ambient s
  | source, _ => source

/-- The stream that draws may use directly: only a stream itself. -/
def direct? : Source → Option Stream
  | stream s => some s
  | _ => none

end Source

/-- The next children of a stream, in a number that must be at least one and is cut to an
    integer. -/
def spawnStreams (count : Value) : Sampling Stream (List Stream) := fun s =>
  match count.lessThan 1, count.truncated with
  | .error f, _ => (.error f, s)
  | .ok true, _ => (.error (.spawnCount count), s)
  | .ok false, .error f => (.error f, s)
  | .ok false, .ok n =>
    let (children, s) := s.spawn n.toNat
    (.ok children, s)

end Gibbs

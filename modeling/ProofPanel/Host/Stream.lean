/-!
# Octets in time

What flows through a pipe, with the moments at which it gets there. A reader waits for the next
octets, for the end, or for good. Part of the stand-in for the system in which connections to
processes are tried; no theorem is about it.
-/
namespace ProofPanel.Host

abbrev Moment := Nat

abbrev Chunk := Moment × List UInt8

structure Stream where
  /-- What has not been read, by the time at which it gets there. -/
  chunks : List Chunk := []
  /-- What has been written since, the latest first. -/
  added : List Chunk := []
  /-- When the last writer lets go, if ever. -/
  closed : Option Moment := none

namespace Stream

/-- All that has not been read; of chunks that get there together, the one that is written first
comes first. -/
def inOrder (s : Stream) : List Chunk :=
  if s.added.isEmpty then s.chunks
  else (s.chunks ++ s.added.reverse).mergeSort fun a b => a.1 ≤ b.1

def write (s : Stream) (now : Moment) (octets : List UInt8) : Stream :=
  if octets.isEmpty then s else { s with added := (now, octets) :: s.added }

def close (s : Stream) (closed : Option Moment) : Stream := { s with closed }

def ofOctets (octets : List UInt8) : Stream :=
  { chunks := if octets.isEmpty then [] else [(0, octets)], closed := some 0 }

def upTo (s : Stream) (last : Moment) : Stream :=
  { s with chunks := s.inOrder.takeWhile (·.1 ≤ last), added := [] }

def takeUpTo (now : Moment) : (most : Nat) → List Chunk → List UInt8 × List Chunk
  | _, [] => ([], [])
  | most, (at_, octets) :: rest =>
    if now < at_ || most = 0 then ([], (at_, octets) :: rest)
    else if octets.length ≤ most then
      let (more, left) := takeUpTo now (most - octets.length) rest
      (octets ++ more, left)
    else (octets.take most, (at_, octets.drop most) :: rest)

/-- What a reader gets who waits from `now` on: when, which octets (none at the end of the stream),
and the stream after that. Absent if the reader waits for good. -/
def read? (s : Stream) (now : Moment) (most : Nat) : Option (Moment × List UInt8 × Stream) :=
  match s.inOrder, s.closed with
  | (first, octets) :: rest, _ =>
    let (octets, chunks) := takeUpTo (max now first) most ((first, octets) :: rest)
    some (max now first, octets, { s with chunks, added := [] })
  | [], some closed => some (max now closed, [], s)
  | [], none => none

/-- The octets up to the first `stop`, which is taken but not returned, and when it gets there. -/
def takeTo (stop : UInt8) : (now : Moment) → List Chunk → Option (Moment × List UInt8 × List Chunk)
  | _, [] => none
  | now, (at_, octets) :: rest =>
    let now := max now at_
    let before := octets.takeWhile (· != stop)
    match octets.dropWhile (· != stop) with
    | _ :: after => some (now, before, if after.isEmpty then rest else (at_, after) :: rest)
    | [] => (takeTo stop now rest).map fun (now, more, left) => (now, before ++ more, left)

end Stream

end ProofPanel.Host

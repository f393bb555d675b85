import ProofPanel.Host.Stream

/-!
# Programs

What a program does over time with the input that it gets over time. The modules beside this one
are a stand-in for the system that programs run on, with a shell and the usual utilities: with it
connections to processes can be tried on command lines. No theorem is about it; what is proved of
connections holds whatever a program writes.
-/
namespace ProofPanel.Host

structure Outcome where
  /-- The output, by time. -/
  written : List Chunk := []
  /-- From when on nobody reads the input any more, if ever. -/
  inputClosed : Option Moment := some 0
  /-- From when on nobody writes the output any more, if ever. -/
  outputClosed : Option Moment := some 0

/-- A program, as what comes of each input. -/
abbrev Program := (input : List Chunk) → Outcome

namespace Outcome

def hasEnded (o : Outcome) (now : Moment) : Bool := o.outputClosed.any (· ≤ now)

def isDeaf (o : Outcome) (now : Moment) : Bool := o.inputClosed.any (· ≤ now)

def writtenBy (o : Outcome) (now : Moment) : List UInt8 :=
  (o.written.takeWhile (·.1 ≤ now)).flatMap (·.2)

def nextChange? (o : Outcome) (now : Moment) : Option Moment :=
  (((o.written.map (·.1)) ++ o.outputClosed.toList).filter (now < ·)).min?

end Outcome

end ProofPanel.Host

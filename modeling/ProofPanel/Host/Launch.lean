import ProofPanel.Host.Shell.Run
import ProofPanel.Text.Utf8

/-!
# Starting programs

Which program a command line starts, if it starts one, in the stand-in for the system in which
connections to processes are tried.
-/
namespace ProofPanel.Host

/-- The program of a name with its arguments, if it and the directory that it is started in exist.
A name with a slash is a path from that directory. -/
def program? (name : String) (arguments : List String) (directory : Option String) :
    Option Program := do
  if (name :: arguments).any (·.toList.contains '\x00') then none
  let here ← match directory with
    | none => some []
    | some path => Place.directory? [] path
  let _ ← Place.program? here name
  let octets (text : String) := Shell.ofOctets (Utf8.encode text.toList)
  return Shell.namedProgram here name (arguments.map octets)

end ProofPanel.Host

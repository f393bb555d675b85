/-!
# Shell scripts

The commands of a shell. In scripts and in everything that they handle, each character stands for
one octet. Part of the stand-in for the system in which connections to processes are tried; no
theorem is about it.
-/
namespace ProofPanel.Host.Shell

def ofOctets (octets : List UInt8) : String := .ofList (octets.map fun b => Char.ofNat b.toNat)

def toOctets (text : String) : List UInt8 := text.toList.map fun c => UInt8.ofNat c.toNat

/-- What the expansion of a parameter does with its operand. `orEmpty` lets an empty value count
as none. -/
inductive Form
  | plain
  | length
  | default (orEmpty : Bool)
  | assign (orEmpty : Bool)
  | require (orEmpty : Bool)
  | replace (orEmpty : Bool)
  | dropStart (longest : Bool)
  | dropEnd (longest : Bool)
  | malformed
deriving DecidableEq

/-- A part of a word. The scripts, expressions and operands in it are read when it is expanded. -/
inductive Piece
  | text (text : List Char) (quoted : Bool)
  | home
  | parameter (name : List Char) (form : Form) (operand : List Char) (quoted : Bool)
  | command (script : List Char) (quoted : Bool)
  | arithmetic (expression : List Char) (quoted : Bool)
deriving DecidableEq

abbrev Word := List Piece

inductive Redirect
  | input
  | output
  | append
  | both
  | duplicate
  | here
deriving DecidableEq

structure Redirection where
  descriptor : Nat
  kind : Redirect
  target : Word
deriving DecidableEq

structure Assignment where
  name : List Char
  value : Word
deriving DecidableEq

inductive Command
  | simple (assignments : List Assignment) (words : List Word) (redirections : List Redirection)
  | redirected (body : Command) (redirections : List Redirection)
  | both (first second : Command)
  | either (first second : Command)
  | negated (body : Command)
  | pipeline (parts : List Command)
  | background (body : Command)
  | group (body : List Command)
  /-- What the body changes is lost. -/
  | apart (body : List Command)
  | loop (negated : Bool) (condition body : List Command)
  | each (name : List Char) (items : List Word) (body : List Command)
  | branch (condition yes no : List Command)
  | choice (subject : Word) (cases : List (List Word × List Command))
  | define (name : List Char) (body : Command)

end ProofPanel.Host.Shell

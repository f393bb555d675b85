import ProofPanel.Host.Shell.Arithmetic
import ProofPanel.Host.Shell.Pattern
import ProofPanel.Host.Shell.Words

/-!
# Expanding words

Parameters, commands and expressions in a word are replaced by their values, and what comes of
unquoted ones is split into fields. Part of the stand-in for the system in which connections to
processes are tried; no theorem is about it.
-/
namespace ProofPanel.Host.Shell

/-- What a word comes to: characters with whether they are quoted and whether they may separate
fields, and marks. -/
inductive Item
  | char (c : Char) (quoted splits : Bool)
  /-- A field is here even if nothing is in it. -/
  | present
  /-- One field ends and another begins, whatever the separators are. -/
  | cut
deriving DecidableEq

/-! ## Fields -/

structure Splitting where
  fields : List String := []
  begun : Option (List Char) := none
  /-- Whether a separator that is no blank, or the start, comes right before. -/
  afterSeparator : Bool := true

namespace Splitting

def finish (s : Splitting) : Splitting :=
  match s.begun with
  | none => s
  | some text =>
    { fields := .ofList text.reverse :: s.fields, begun := none, afterSeparator := false }

def add (separators : List Char) (s : Splitting) : Item → Splitting
  | .present => { s with begun := some (s.begun.getD []) }
  | .cut =>
    let s := s.finish
    { s with afterSeparator := true }
  | .char c _ splits =>
    if splits && separators.contains c then
      if c = ' ' || c = '\t' || c = '\n' then s.finish
      else if s.begun.isSome then { s.finish with afterSeparator := true }
      else if s.afterSeparator then { s with fields := "" :: s.fields }
      else { s with afterSeparator := true }
    else { s with begun := some (c :: s.begun.getD []) }

end Splitting

def fields (separators : List Char) (items : List Item) : List String :=
  ((items.foldl (Splitting.add separators) {}).finish).fields.reverse

def marked (items : List Item) : List Marked :=
  items.filterMap fun
    | .char c quoted _ => some (c, quoted)
    | .cut => some (' ', true)
    | .present => none

def textOf (items : List Item) : String := .ofList ((marked items).map (·.1))

/-! ## Expansion -/

def chars (quoted splits : Bool) (text : String) : List Item :=
  let items := text.toList.map fun c => Item.char c quoted splits
  if quoted then .present :: items else items

def parameter? (name : String) : Act (Option String) := do
  let s ← get
  match name with
  | "?" => return some (toString s.status)
  | "#" => return some (toString s.arguments.length)
  | "$" => return some "100"
  | "!" => return (s.children.head?).map toString
  | "-" => return some (.ofList s.options)
  | "0" => return some s.name
  | _ =>
    if name.toList.all Char.isDigit then
      return s.arguments[name.toNat?.getD 0 - 1]?
    else return s.valueOf? name

def refuseUnset (name : String) : Act Unit := do
  if (← get).hasOption 'u' then refuse (name ++ ": parameter not set")

def badSubstitution : String := "Bad substitution"

def argumentItems (joined quoted whole : Bool) : Act (List Item) := do
  let s ← get
  if whole || (quoted && joined) then
    let between := String.ofList (s.separators.take 1)
    return chars quoted false (between.intercalate s.arguments)
  else
    let each := s.arguments.map fun a => chars quoted (!quoted) a
    return [Item.cut].intercalate each

/-- The command that a substitution runs gives its output. -/
abbrev Substitute := (script : List Char) → Act String

/-- The items of a word. `splits` lets the unquoted characters of the word itself separate fields,
`whole` says that the word is not split at all. -/
def itemsOf (substitute : Substitute) : (fuel : Nat) → (splits whole : Bool) → Word →
    Act (List Item)
  | 0, _, _, _ => die 2
  | _, _, _, [] => return []
  | fuel + 1, splits, whole, piece :: rest => do
    let items ← match piece with
      | .text text quoted => pure (chars quoted (splits && !quoted) (.ofList text))
      | .home => pure (chars true false (((← get).valueOf? "HOME").getD "~"))
      | .command script quoted => do
        let output ← substitute script
        pure (chars quoted (!quoted) output)
      | .arithmetic expression quoted => do
        match Word.ofText (some .document) expression with
        | .error _ => refuse badSubstitution
        | .ok word =>
          let text := textOf (← itemsOf substitute fuel false true word)
          pure (chars quoted (!quoted) (toString (← evaluate text.toList).toInt))
      | .parameter name form operand quoted => do
        let name := String.ofList name
        let list := name = "@" || name = "*"
        let operandItems : Act (List Item) :=
          match Word.ofText (if quoted then some .operand else none) operand with
          | .error _ => refuse badSubstitution
          | .ok word => do
            let items ← itemsOf substitute fuel (!quoted) whole word
            pure (if quoted then .present :: items else items)
        let value ← if list then do
            let arguments := (← get).arguments
            pure (if arguments.isEmpty then none else some (" ".intercalate arguments))
          else parameter? name
        let plain : Act (List Item) :=
          if list then argumentItems (name = "*") quoted whole
          else return chars quoted (!quoted) (value.getD "")
        let isMissing (orEmpty : Bool) := match value with
          | none => true
          | some text => orEmpty && text.isEmpty
        let trimmed (drop : List Marked → List Char → List Char) : Act (List Item) := do
          match Word.ofText none operand with
          | .error _ => refuse badSubstitution
          | .ok word =>
            let pattern := marked (← itemsOf substitute fuel false true word)
            return chars quoted (!quoted) (.ofList (drop pattern (value.getD "").toList))
        match form with
        | .malformed => refuse badSubstitution
        | .plain =>
          if value.isNone && !list then refuseUnset name
          plain
        | .length =>
          if value.isNone && !list then refuseUnset name
          pure (chars quoted (!quoted) (toString (value.getD "").length))
        | .default orEmpty => if isMissing orEmpty then operandItems else plain
        | .replace orEmpty =>
          if isMissing orEmpty then pure (if quoted then [.present] else []) else operandItems
        | .require orEmpty =>
          if isMissing orEmpty then
            let text := textOf (← operandItems)
            refuse (name ++ ": " ++ if !operand.isEmpty then text
              else if orEmpty then "parameter not set or null" else "parameter not set")
          else plain
        | .assign orEmpty =>
          if isMissing orEmpty then
            if !isName name.toList then refuse badSubstitution
            let text := textOf (← operandItems)
            assign name text
            pure (chars quoted (!quoted) text)
          else plain
        | .dropStart longest => trimmed (dropStart longest)
        | .dropEnd longest => trimmed (dropEnd longest)
    return items ++ (← itemsOf substitute fuel splits whole rest)

def maxPieces : Nat := 10000

def expandAll (substitute : Substitute) : List Word → Act (List String)
  | [] => return []
  | w :: rest => do
    let items ← itemsOf substitute maxPieces false false w
    let fields := fields (← get).separators items
    return fields ++ (← expandAll substitute rest)

def expandWhole (substitute : Substitute) (w : Word) : Act String := do
  return textOf (← itemsOf substitute maxPieces false true w)

def expandPattern (substitute : Substitute) (w : Word) : Act (List Marked) := do
  return marked (← itemsOf substitute maxPieces false true w)

end ProofPanel.Host.Shell

import ProofPanel.Json.Value

/-!
# Reading records out of JSON values

A record stands in JSON as an object, with members it does not know ignored, or as an array of its
fields in their order, with none left over. A tagged message names its variant in one member of
the object, or in the first element of the array.
-/
namespace ProofPanel.Json

inductive Fields
  | members (all : Members)
  | elements (rest : List Json)

abbrev Take := StateT Fields Option

def field (key : String) (decode : Json → Option α) : Take α
  | .members all => do return (← decode (← all.get? key), .members all)
  | .elements (x :: rest) => do return (← decode x, .elements rest)
  | .elements [] => none

/-- A field with a default, which stands for it only where it is missing. -/
def fieldOr (key : String) (default : α) (decode : Json → Option α) : Take α
  | .members all =>
    match all.get? key with
    | none => some (default, .members all)
    | some value => do return (← decode value, .members all)
  | .elements (x :: rest) => do return (← decode x, .elements rest)
  | .elements [] => some (default, .elements [])

def orNull (decode : Json → Option α) : Json → Option (Option α)
  | .null => some none
  | value => (decode value).map some

def field? (key : String) (decode : Json → Option α) : Take (Option α) :=
  fieldOr key none (orNull decode)

/-- A field that may be missing or null in an object, and null in an array. -/
def nullable (key : String) (decode : Json → Option α) : Take (Option α)
  | .elements [] => none
  | fields => field? key decode fields

def record (fields : Take α) : Json → Option α
  | .obj members => (fields (.members members)).map Prod.fst
  | .arr items =>
    match fields (.elements items) with
    | some (a, .elements []) => some a
    | _ => none
  | _ => none

def tagged (tag : String) (variant? : String → Option (Take α)) : Json → Option α
  | .obj members => do
    let name ← (← Members.get? tag members).asString?
    record (← variant? name) (.obj members)
  | .arr (.str name :: items) => do record (← variant? name) (.arr items)
  | _ => none

def nat? : Json → Option Nat := asNat?

def word32? (value : Json) : Option UInt32 := do
  let n ← value.asNat?
  if n < UInt32.size then some (UInt32.ofNat n) else none

def listOf? (decode : Json → Option α) (value : Json) : Option (List α) := do
  (← value.asArray?).mapM decode

/-- Where a value with no content stands: within a tagged message, an empty object will do for
null. -/
inductive Setting
  | alone
  | inMessage

/-- A constant is its name, or an object with one member that has the name and no content. -/
def constant? (setting : Setting) (named? : String → Option α) : Json → Option α
  | .str name => named? name
  | .obj [(name, .null)] => named? name
  | .obj [(name, .obj [])] =>
    match setting with
    | .alone => none
    | .inMessage => named? name
  | _ => none

end ProofPanel.Json

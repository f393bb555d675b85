import ProofPanel.Json.Decode
import ProofPanel.Json.Printer

/-!
# What is wrong with a value

Why a value is none of the kind that is expected: the first of its members that does not fit, or a
field that is missing, in words.
-/
namespace ProofPanel.Json

/-- What is wrong with a value, if anything. -/
abbrev Check := Json → Option String

/-! ## Words -/

def hexadecimal (n : Nat) : List Char := (Nat.toDigits 16 n).map (·.toLower)

/-- A character as a quotation shows it. Beyond the first 256 each stands for itself. -/
def quotedChar (c : Char) : List Char :=
  if c = '\x22' || c = '\\' then ['\\', c]
  else if c = '\x00' then ['\\', '0']
  else if c = '\x09' then ['\\', 't']
  else if c = '\x0a' then ['\\', 'n']
  else if c = '\x0d' then ['\\', 'r']
  else if c.toNat < 0x20 || 0x7f ≤ c.toNat && c.toNat < 0xa1 || c.toNat = 0xad then
    ['\\', 'u', '\x7b'] ++ hexadecimal c.toNat ++ ['\x7d']
  else [c]

def described : Json → String
  | .null => "null"
  | .bool b => "boolean `" ++ toString b ++ "`"
  | .int n => "integer `" ++ toString n ++ "`"
  | .float x => "floating point `" ++ (Json.float x).print ++ "`"
  | .str s => "string " ++ .ofList ('\x22' :: s.toList.flatMap quotedChar ++ ['\x22'])
  | .arr _ => "sequence"
  | .obj _ => "map"

def insteadOf (expected : String) (value : Json) : String :=
  "invalid type: " ++ value.described ++ ", expected " ++ expected

def missing (key : String) : String := "missing field `" ++ key ++ "`"

def unknownName (names : List String) (name : String) : String :=
  "unknown variant `" ++ name ++ "`, expected one of " ++
    ", ".intercalate (names.map fun name => "`" ++ name ++ "`")

def elementCount (n : Nat) : String := toString n ++ if n = 1 then " element" else " elements"

/-! ## Checks -/

namespace Check

def text : Check
  | .str _ => none
  | value => some (value.insteadOf "a string")

def whole (type : String) : Check
  | .int (.ofNat _) => none
  | .int n => some ("invalid value: integer `" ++ toString n ++ "`, expected " ++ type)
  | value => some (value.insteadOf type)

def truth : Check
  | .bool _ => none
  | value => some (value.insteadOf "a boolean")

def orNull (check : Check) : Check
  | .null => none
  | value => check value

def each (check : Check) : Check
  | .arr items => items.findSome? check
  | value => some (value.insteadOf "a sequence")

def constant (names : List String) : Check
  | .str name => if name ∈ names then none else some (unknownName names name)
  | .obj [(name, content)] =>
    if name ∈ names then
      match content with
      | .null | .obj [] => none
      | value => some (value.insteadOf "unit")
    else some (unknownName names name)
  | .obj _ => some "invalid value: map, expected map with a single key"
  | value => some (value.insteadOf "string or map")

end Check

structure FieldCheck where
  key : String
  required : Bool
  check : Check

/-- What is wrong with the members that the fields find: of those that do not fit the first one in
the object, and if all fit the first field that is missing. -/
def FieldCheck.inMembers (fields : List FieldCheck) (all : Members) : Option String :=
  (all.findSome? fun (key, _) =>
    (fields.find? (·.key == key)).bind fun f => (all.get? key).bind f.check).or
  ((fields.find? fun f => f.required && (all.get? f.key).isNone).map (missing ·.key))

/-- What is wrong with the elements that stand for the fields, when so many of them have been taken
of all that a record has. -/
def FieldCheck.inElements (kind : String) (total : Nat) :
    (taken : Nat) → List FieldCheck → List Json → Option String
  | _, [], [] => none
  | taken, [], rest =>
    some ("invalid length " ++ toString (taken + rest.length) ++ ", expected " ++
      elementCount total ++ " in sequence")
  | taken, f :: fields, [] =>
    if f.required then
      some ("invalid length " ++ toString taken ++ ", expected " ++ kind ++ " with " ++
        elementCount total)
    else inElements kind total (taken + 1) fields []
  | taken, f :: fields, value :: rest =>
    (f.check value).or (inElements kind total (taken + 1) fields rest)

namespace Check

def record (kind : String) (fields : List FieldCheck) : Check
  | .obj members => FieldCheck.inMembers fields members
  | .arr items => FieldCheck.inElements kind fields.length 0 fields items
  | value => some (value.insteadOf kind)

def variant (variants : List (String × Check)) (tag content : Json) : Option String :=
  match tag with
  | .str name =>
    match variants.lookup name with
    | some check => check content
    | none => some (unknownName (variants.map (·.1)) name)
  | value => some (value.insteadOf "variant identifier")

def tagged (kind tag : String) (variants : List (String × Check)) : Check
  | .obj members =>
    match Members.get? tag members with
    | some name => variant variants name (.obj members)
    | none => some (missing tag)
  | .arr (name :: items) => variant variants name (.arr items)
  | .arr [] => some (missing tag)
  | value => some (value.insteadOf kind)

end Check

end ProofPanel.Json

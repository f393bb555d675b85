/-!
# JSON values

Whole numbers and floating-point numbers are told apart, as they are in text: a number written
with a point or an exponent is a float. The members of an object stand in increasing order of
their keys, one for each key.
-/
namespace ProofPanel

inductive Json
  | null
  | bool (b : Bool)
  | int (n : Int)
  | float (x : Float)
  | str (s : String)
  | arr (items : List Json)
  | obj (members : List (String × Json))
deriving Inhabited

namespace Json

abbrev Members := List (String × Json)

def Members.insert (key : String) (value : Json) : Members → Members
  | [] => [(key, value)]
  | (k, v) :: rest =>
    if key < k then (key, value) :: (k, v) :: rest
    else if key = k then (key, value) :: rest
    else (k, v) :: Members.insert key value rest

def Members.get? (key : String) : Members → Option Json
  | [] => none
  | (k, v) :: rest => if k = key then some v else Members.get? key rest

/-- Adds members one after the other: of several under one key the last stays. -/
def Members.extend (members added : Members) : Members :=
  added.foldl (fun all (k, v) => all.insert k v) members

def object (members : List (String × Json)) : Json := .obj (Members.extend [] members)

def objectOf (members : List (Option (String × Json))) : Json := object (members.filterMap id)

def optional (key : String) (value : Option Json) : Option (String × Json) := value.map (key, ·)

def ofNat (n : Nat) : Json := .int n

def asString? : Json → Option String
  | .str s => some s
  | _ => none

def asNat? : Json → Option Nat
  | .int (.ofNat n) => some n
  | _ => none

def asBool? : Json → Option Bool
  | .bool b => some b
  | _ => none

def asArray? : Json → Option (List Json)
  | .arr items => some items
  | _ => none

end Json

end ProofPanel

import ProofPanel.Json.Quoted

/-!
# Reading JSON text

Strict JSON, with a limit on how deep arrays and objects may nest. Each call of a reader in
another takes one unit of fuel, and two calls never stand on the same character more than twice,
so twice the length of the text is enough.
-/
namespace ProofPanel.Json

def isSpace (c : Char) : Bool := c = ' ' || c = '\n' || c = '\t' || c = '\r'

def skipSpace (text : List Char) : List Char := text.dropWhile isSpace

def readIdent (value : Json) : (expected text : List Char) → Reads Json
  | [], text => .ok (value, text)
  | _ :: _, [] => .error (Stop.at .endInValue [])
  | e :: expected, c :: text =>
    if e = c then readIdent value expected text else .error ⟨.expectedIdent, c :: text, 1⟩

def readKey (fuel : Nat) (text : List Char) : Reads String :=
  match text with
  | '\x22' :: rest =>
    match readQuotedFrom fuel [] rest with
    | .error stop => .error stop
    | .ok (key, rest) =>
      match skipSpace rest with
      | [] => .error (Stop.at .endInObject [])
      | ':' :: rest => .ok (key, rest)
      | rest => .error (Stop.onNext .expectedColon rest)
  | _ => .error (Stop.onNext .keyNotString text)

mutual

/-- A value, after any space. `depth` is how many levels of nesting are left. -/
def readValue : (fuel depth : Nat) → List Char → Reads Json
  | 0, _, text => .error (Stop.at .endInValue text)
  | fuel + 1, depth, text =>
    match skipSpace text with
    | [] => .error (Stop.at .endInValue [])
    | c :: rest =>
      match c with
      | 'n' => readIdent .null ['u', 'l', 'l'] rest
      | 't' => readIdent (.bool true) ['r', 'u', 'e'] rest
      | 'f' => readIdent (.bool false) ['a', 'l', 's', 'e'] rest
      | '-' => readNumber true rest
      | '\x22' =>
        match readQuotedFrom (fuel + 1) [] rest with
        | .ok (s, rest) => .ok (.str s, rest)
        | .error stop => .error stop
      | '[' =>
        match depth with
        | 0 => .error (Stop.onNext .nestedTooDeep (c :: rest))
        | depth + 1 =>
          match skipSpace rest with
          | [] => .error (Stop.at .endInList [])
          | ']' :: rest => .ok (.arr [], rest)
          | rest => readItems fuel depth [] rest
      | '\x7b' =>
        match depth with
        | 0 => .error (Stop.onNext .nestedTooDeep (c :: rest))
        | depth + 1 =>
          match skipSpace rest with
          | [] => .error (Stop.at .endInObject [])
          | '\x7d' :: rest => .ok (.obj [], rest)
          | rest => readMembers fuel depth [] rest
      | _ =>
        if isDigit c then readNumber false (c :: rest)
        else .error (Stop.onNext .expectedValue (c :: rest))

def readItems : (fuel depth : Nat) → (done : List Json) → List Char → Reads Json
  | 0, _, _, text => .error (Stop.at .endInValue text)
  | fuel + 1, depth, done, text =>
    match readValue fuel depth text with
    | .error stop => .error stop
    | .ok (item, rest) =>
      match skipSpace rest with
      | [] => .error (Stop.at .endInList [])
      | ']' :: rest => .ok (.arr (item :: done).reverse, rest)
      | ',' :: rest =>
        match skipSpace rest with
        | ']' :: rest => .error (Stop.onNext .trailingComma (']' :: rest))
        | rest => readItems fuel depth (item :: done) rest
      | rest => .error (Stop.onNext .expectedListCommaOrEnd rest)

def readMembers : (fuel depth : Nat) → Members → List Char → Reads Json
  | 0, _, _, text => .error (Stop.at .endInValue text)
  | fuel + 1, depth, done, text =>
    match readKey (fuel + 1) text with
    | .error stop => .error stop
    | .ok (key, rest) =>
      match readValue fuel depth rest with
      | .error stop => .error stop
      | .ok (value, rest) =>
        let done := done.insert key value
        match skipSpace rest with
        | [] => .error (Stop.at .endInObject [])
        | '\x7d' :: rest => .ok (.obj done, rest)
        | ',' :: rest =>
          match skipSpace rest with
          | [] => .error (Stop.at .endInValue [])
          | '\x7d' :: rest => .error (Stop.onNext .trailingComma ('\x7d' :: rest))
          | rest => readMembers fuel depth done rest
        | rest => .error (Stop.onNext .expectedObjectCommaOrEnd rest)

end

def parseWithin (depth : Nat) (text : List Char) : Except Fault Json :=
  match readValue (2 * text.length + 2) depth text with
  | .error stop => .error (stop.fault text)
  | .ok (value, rest) =>
    match skipSpace rest with
    | [] => .ok value
    | rest => .error ((Stop.onNext .trailingCharacters rest).fault text)

def maxDepth : Nat := 127

def parse (text : String) : Except Fault Json := parseWithin maxDepth text.toList

end ProofPanel.Json

import ProofPanel.Host.Shell.Condition
import ProofPanel.Host.Shell.Format

/-!
# Utilities

The programs that are not part of the shell. Those that collect their output show it only when they
end. Part of the stand-in for the system in which connections to processes are tried; no theorem is
about it.
-/
namespace ProofPanel.Host.Shell

/-! ## Lines -/

def piecesOf (stop : UInt8) (octets : List UInt8) : List (List UInt8) :=
  let (last, pieces) := octets.foldr
    (fun b (piece, pieces) =>
      if b = stop then ([stop], if piece.isEmpty then pieces else piece :: pieces)
      else (b :: piece, pieces))
    (([] : List UInt8), ([] : List (List UInt8)))
  if last.isEmpty then pieces else last :: pieces

def linesOf (octets : List UInt8) : List (List UInt8) := piecesOf 10 octets

def bare (line : List UInt8) : List UInt8 :=
  if line.getLast? = some 10 then line.dropLast else line

def ended (line : List UInt8) : List UInt8 := line ++ [10]

/-! ## Input -/

/-- Acts with an input file on the standard input, if it can be read; reports what keeps it from
that. -/
def withInput (path : String) (act : Act α) : Act (Option α) := do
  let s ← get
  let isDirectory := match find? s path with
    | some (_, .directory) => path != "-"
    | _ => false
  match ← if path = "-" then pure (s.ends.get? 0) else openInput? path with
  | none =>
    complain (path ++ if path = "-" then ": Bad file descriptor" else ": No such file or directory")
    return none
  | some e =>
    modify fun s => { s with ends := s.ends.set 0 e }
    let result ← if isDirectory then do
        complain (path ++ ": Is a directory")
        pure none
      else if ← canRead 0 then pure (some (← act))
      else do
        complain (path ++ ": Bad file descriptor")
        pure none
    modify fun t => { t with ends := s.ends }
    return result

def fromInputs (paths : List String) (act : String → Act α) : Act (List α) := do
  let mut found : List α := []
  let mut status := 0
  for path in if paths.isEmpty then ["-"] else paths do
    match ← withInput path (act path) with
    | some a => found := a :: found
    | none => status := 1
  setStatus status
  return found.reverse

def gather (paths : List String) : Act (List UInt8) := do
  return (← fromInputs paths fun _ => readAll 0).flatten

def filter (paths : List String) (f : List UInt8 → List UInt8) : Act Unit := do
  let octets ← gather paths
  let status := (← get).status
  if ← write 1 (f octets) then setStatus status
  else failWith "write error: No space left on device"

/-! ## Options -/

structure Options where
  letters : List Char := []
  /-- The values of options that take one, the last one first. -/
  values : List (Char × String) := []
  rest : List String := []

/-- The options that a program knows: letters alone, letters that take a value, and long names for
letters of both kinds. -/
structure Known where
  alone : List Char
  valued : List Char
  long : List (String × Char)

/-- The letter of a long option, which may be cut short as long as it stands for one letter. -/
def Known.letter? (k : Known) (name : String) : Option Char :=
  match k.long.find? (·.1 == name) with
  | some (_, letter) => some letter
  | none =>
    match (k.long.filter fun l => name.toList.isPrefixOf l.1.toList).map (·.2) with
    | [] => none
    | letter :: more => if more.all (· == letter) then some letter else none

/-- Cuts options off the arguments. The error tells which one is unknown or lacks its value. -/
def optionsFrom (k : Known) : (fuel : Nat) → Options → List String → Except String Options
  | 0, _, _ => .error ""
  | _, o, [] => .ok { o with rest := o.rest.reverse }
  | fuel + 1, o, a :: rest =>
    match a.toList with
    | ['-', '-'] => .ok { o with rest := o.rest.reverse ++ rest }
    | '-' :: '-' :: long =>
      let name := String.ofList (long.takeWhile (· != '='))
      let value? := (long.dropWhile (· != '=')).tail?.map String.ofList
      match k.letter? name, value? with
      | none, _ => .error ("unrecognized option \x27" ++ a ++ "\x27")
      | some letter, value? =>
        if k.valued.contains letter then
          match value?, rest with
          | some value, rest =>
            optionsFrom k fuel { o with values := (letter, value) :: o.values } rest
          | none, value :: rest =>
            optionsFrom k fuel { o with values := (letter, value) :: o.values } rest
          | none, [] => .error ("option \x27" ++ a ++ "\x27 requires an argument")
        else if value?.isSome then
          .error ("option \x27--" ++ name ++ "\x27 doesn\x27t allow an argument")
        else optionsFrom k fuel { o with letters := letter :: o.letters } rest
    | '-' :: letter :: more =>
      if k.alone.contains letter then
        let o := { o with letters := letter :: o.letters }
        if more.isEmpty then optionsFrom k fuel o rest
        else optionsFrom k fuel o (.ofList ('-' :: more) :: rest)
      else if k.valued.contains letter then
        match more, rest with
        | _ :: _, _ =>
          optionsFrom k fuel { o with values := (letter, .ofList more) :: o.values } rest
        | [], value :: rest =>
          optionsFrom k fuel { o with values := (letter, value) :: o.values } rest
        | [], [] => .error ("option requires an argument -- \x27" ++ String.ofList [letter, '\x27'])
      else .error ("invalid option -- \x27" ++ String.ofList [letter, '\x27'])
    | _ => optionsFrom k fuel { o with rest := a :: o.rest } rest

def Known.parse (k : Known) (arguments : List String) : Except String Options :=
  optionsFrom k (arguments.foldl (fun n a => n + a.length + 1) 1) {} arguments

def lettersKnown (alone valued : String) : Known := ⟨alone.toList, valued.toList, []⟩

namespace Options

def has (o : Options) (letter : Char) : Bool := o.letters.contains letter

def value? (o : Options) (letter : Char) : Option String :=
  (o.values.find? (·.1 == letter)).map (·.2)

end Options

def withKnown (k : Known) (arguments : List String) (act : Options → Act Unit) : Act Unit :=
  match k.parse arguments with
  | .ok o => act o
  | .error fault => failUsage fault

def withOptions (alone valued : String) (arguments : List String) (act : Options → Act Unit) :
    Act Unit :=
  withKnown (lettersKnown alone valued) arguments act

def count? (text : String) : Option Nat :=
  let text := text.toList.dropWhile isSpace
  let digits := text.takeWhile Char.isDigit
  let unit := match text.drop digits.length with
    | [] => some 1
    | ['b'] => some 512
    | ['k'] | ['K'] | ['K', 'i', 'B'] => some 1024
    | ['k', 'B'] | ['K', 'B'] => some 1000
    | ['M'] | ['M', 'i', 'B'] => some 1048576
    | ['M', 'B'] => some 1000000
    | _ => none
  if digits.isEmpty then none
  else do
    let n := (← (String.ofList digits).toNat?) * (← unit)
    if n < UInt64.size then n else none

/-! ## Copying -/

def passOn (f : σ → List UInt8 → σ × List UInt8) : (most : Nat) → σ → Act σ
  | 0, _ => endless
  | most + 1, state => do
    match ← readSome 0 65536 with
    | none => return state
    | some octets =>
      let (state, changed) := f state octets
      if ← write 1 changed then passOn f most state
      else
        failWith "write error: No space left on device"
        throw .exit

def visible (tabs : Bool) (b : UInt8) : List UInt8 :=
  let low (b : UInt8) : List UInt8 :=
    if b < 32 then [94, b + 64] else if b = 127 then [94, 63] else [b]
  if b = 10 || (b = 9 && !tabs) then [b]
  else if b < 128 then low b
  else [77, 45] ++ low (b - 128)

structure Decorating where
  numbered : Nat := 0
  atStart : Bool := true
  /-- Whether the line before is empty. -/
  afterEmpty : Bool := false

def decorateOne (o : Options) (d : Decorating) (b : UInt8) : Decorating × List UInt8 :=
  let all := o.has 'A'
  let showEnds := all || o.has 'E' || o.has 'e'
  let showTabs := all || o.has 'T' || o.has 't'
  let showOthers := all || o.has 'v' || o.has 'e' || o.has 't'
  let isEmpty := d.atStart && b = 10
  if isEmpty && d.afterEmpty && o.has 's' then (d, [])
  else
    let numbers := d.atStart && if o.has 'b' then !isEmpty else o.has 'n'
    let mark := if numbers then
        let digits := Nat.toDigits 10 (d.numbered + 1)
        toOctets (.ofList (List.replicate (6 - digits.length) ' ' ++ digits ++ ['\t']))
      else []
    let shown := if b = 10 then (if showEnds then [36, 10] else [10])
      else if showOthers then visible showTabs b
      else if b = 9 && showTabs then [94, 73]
      else [b]
    ({ numbered := if numbers then d.numbered + 1 else d.numbered
       atStart := b = 10
       afterEmpty := isEmpty }, mark ++ shown)

def decorate (o : Options) (d : Decorating) (octets : List UInt8) : Decorating × List UInt8 :=
  let (d, shown) := octets.foldl (fun (d, shown) b =>
    let (d, more) := decorateOne o d b
    (d, more :: shown)) (d, [])
  (d, shown.reverse.flatten)

def catKnown : Known where
  alone := "AbeEnstTuv".toList
  valued := []
  long :=
    [("number", 'n'), ("number-nonblank", 'b'), ("show-all", 'A'), ("show-ends", 'E'),
     ("show-nonprinting", 'v'), ("show-tabs", 'T'), ("squeeze-blank", 's')]

def cat (arguments : List String) : Act Unit :=
  withKnown catKnown arguments fun o => do
    let plain := o.letters.all (· == 'u')
    let f := if plain then fun d octets => (d, octets) else decorate o
    let mut d : Decorating := {}
    let mut status := 0
    for path in if o.rest.isEmpty then ["-"] else o.rest do
      match ← withInput path (passOn f maxReads d) with
      | some after => d := after
      | none => status := 1
    setStatus status

def tee (arguments : List String) : Act Unit :=
  withOptions "aip" "" arguments fun o => do
    let mut opened := []
    let mut status := 0
    for path in o.rest do
      match ← openOutput? path (o.has 'a') with
      | some e => opened := e :: opened
      | none =>
        complain (path ++ ": No such file or directory")
        status := 1
    modify fun s =>
      { s with ends := s.ends ++ (opened.reverse.zipIdx 10).map fun (e, n) => (n, e) }
    let rec go : Nat → Act Unit
      | 0 => endless
      | most + 1 => do
        match ← readSome 0 65536 with
        | none => return
        | some octets =>
          let _ ← write 1 octets
          for n in List.range opened.length do
            let _ ← write (n + 10) octets
          go most
    go maxReads
    setStatus status

def yes (arguments : List String) : Act Unit := do
  let line := toOctets ((if arguments.isEmpty then "y" else " ".intercalate arguments) ++ "\n")
  let _ ← write 1 (List.replicate (65536 / line.length + 1) line).flatten
  endless

/-! ## Parts -/

def headBlock : Nat := 8192

def firstLines (stop : UInt8) : (most lines : Nat) → (done : List (List UInt8)) →
    Act (List (List UInt8))
  | 0, _, _ => stuck
  | most + 1, lines, done => do
    if lines = 0 then return done
    match ← readSome 0 headBlock with
    | none => return done
    | some octets =>
      let ls := piecesOf stop octets
      let whole := (ls.filter (·.getLast? = some stop)).length
      if whole < lines then firstLines stop most (lines - whole) (octets :: done)
      else return (ls.take lines).flatten :: done

def firstOctets : (most octets : Nat) → (done : List (List UInt8)) → Act (List (List UInt8))
  | 0, _, _ => stuck
  | most + 1, left, done => do
    if left = 0 then return done
    match ← readSome 0 (min left headBlock) with
    | none => return done
    | some octets => firstOctets most (left - octets.length) (octets :: done)

def signedCount? (text : String) : Option (Option Char × Nat) :=
  match text.toList with
  | '-' :: rest => (count? (.ofList rest)).map (some '-', ·)
  | '+' :: rest => (count? (.ofList rest)).map (some '+', ·)
  | _ => (count? text).map (none, ·)

/-- A bare count with letters, as an older form of the first argument, in options. -/
def olderForm (a : String) : List String :=
  match a.toList with
  | '-' :: rest =>
    let digits := rest.takeWhile Char.isDigit
    let letters := rest.drop digits.length
    if digits.isEmpty || !letters.all "bckmlqv".toList.contains then [a]
    else
      let count := String.ofList digits
      let flags := letters.filter fun c => c = 'q' || c = 'v'
      let sized :=
        if letters.contains 'b' then ["-c", count ++ "b"]
        else if letters.contains 'k' then ["-c", count ++ "k"]
        else if letters.contains 'm' then ["-c", count ++ "M"]
        else if letters.contains 'c' then ["-c", count]
        else ["-n", count]
      sized ++ flags.map fun c => String.ofList ['-', c]
  | _ => [a]

def withOlderForm : List String → List String
  | [] => []
  | first :: rest => olderForm first ++ rest

def banner (isFirst : Bool) (path : String) : List UInt8 :=
  toOctets ((if isFirst then "" else "\n") ++ "==> " ++
    (if path = "-" then "standard input" else path) ++ " <==\n")

def parts (o : Options) (part : Act (List UInt8)) : Act Unit := do
  let named := (1 < o.rest.length || o.has 'v') && !o.has 'q'
  let found ← fromInputs o.rest fun path => return (path, ← part)
  let status := (← get).status
  let shown := found.zipIdx.flatMap fun ((path, octets), n) =>
    if named then banner (n = 0) path ++ octets else octets
  if ← write 1 shown then setStatus status
  else failWith "write error: No space left on device"

/-- What `head` and `tail` are asked for: whether they count octets, the sign of the count and the
count, as the last option says. -/
def portion (o : Options) : Except String (Bool × Option Char × Nat) :=
  let (letter, text) := (o.values.find? fun v => v.1 = 'n' || v.1 = 'c').getD ('n', "10")
  match signedCount? text with
  | some (sign, n) => .ok (letter = 'c', sign, n)
  | none =>
    let kind := if letter = 'c' then "bytes" else "lines"
    .error ("invalid number of " ++ kind ++ ": \x27" ++ text ++ "\x27")

def partsKnown : Known where
  alone := ['q', 'v', 'z']
  valued := ['c', 'n']
  long :=
    [("bytes", 'c'), ("lines", 'n'), ("quiet", 'q'), ("silent", 'q'), ("verbose", 'v'),
     ("zero-terminated", 'z')]

def head (arguments : List String) : Act Unit :=
  withKnown partsKnown (withOlderForm arguments) fun o =>
    let stop := if o.has 'z' then 0 else 10
    match portion o with
    | .error fault => failWith fault
    | .ok (true, some '-', n) => parts o (return (← readAll 0).reverse.drop n |>.reverse)
    | .ok (true, _, n) => parts o (return (← firstOctets maxReads n []).reverse.flatten)
    | .ok (false, some '-', n) =>
      parts o (return ((piecesOf stop (← readAll 0)).reverse.drop n).reverse.flatten)
    | .ok (false, _, n) => parts o (return (← firstLines stop maxReads n []).reverse.flatten)

def tail (arguments : List String) : Act Unit :=
  withKnown partsKnown (withOlderForm arguments) fun o =>
    let stop := if o.has 'z' then 0 else 10
    match portion o with
    | .error fault => failWith fault
    | .ok (true, some '+', n) => parts o (return (← readAll 0).drop (n - 1))
    | .ok (true, _, n) => parts o (return ((← readAll 0).reverse.take n).reverse)
    | .ok (false, some '+', n) =>
      parts o (return ((piecesOf stop (← readAll 0)).drop (n - 1)).flatten)
    | .ok (false, _, n) =>
      parts o (return ((piecesOf stop (← readAll 0)).reverse.take n).reverse.flatten)

/-! ## Counting and changing -/

def wc (arguments : List String) : Act Unit :=
  withOptions "clmwL" "" arguments fun o => do
    let octets ← gather o.rest
    let status := (← get).status
    let lines := octets.count 10
    let words := (octets.foldl (fun (n, inside) b =>
      let blank := b = 32 || (9 ≤ b && b ≤ 13)
      (if !blank && !inside then n + 1 else n, !blank)) (0, false)).1
    let asked := if o.letters.isEmpty then ['l', 'w', 'c'] else o.letters
    let numbers := [('l', lines), ('w', words), ('m', octets.length), ('c', octets.length)].filter
      (asked.contains ·.1)
    let width := if numbers.length = 1 then 0 else 7
    let shown := numbers.map fun (_, n) =>
      let digits := toString n
      String.ofList (List.replicate (width - digits.length) ' ') ++ digits
    let name := match o.rest with
      | [path] => " " ++ path
      | _ => ""
    say (" ".intercalate shown ++ name ++ "\n")
    if (← get).status = 0 then setStatus status

def expandSet : (fuel : Nat) → List Char → List Char
  | 0, _ => []
  | _, [] => []
  | fuel + 1, '[' :: ':' :: rest =>
    let name := rest.takeWhile (· != ':')
    match rest.drop name.length with
    | ':' :: ']' :: rest =>
      ((List.range 256).map Char.ofNat).filter (isClass (.ofList name)) ++ expandSet fuel rest
    | _ => '[' :: expandSet fuel (':' :: rest)
  | fuel + 1, text =>
    let one : List Char → Char × List Char
      | '\\' :: rest => if rest.isEmpty then ('\\', []) else
        match rest with
        | c :: more => if isOctal c || (escapeLetter? c).isSome then escape rest else (c, more)
        | [] => ('\\', [])
      | c :: rest => (c, rest)
      | [] => (' ', [])
    let (c, rest) := one text
    match rest with
    | '-' :: d :: more =>
      let (top, rest) := one (d :: more)
      ((List.range (top.toNat + 1 - c.toNat)).map fun n => Char.ofNat (c.toNat + n)) ++
        expandSet fuel rest
    | _ => c :: expandSet fuel rest

def squeeze (set : List UInt8) : List UInt8 → List UInt8
  | a :: b :: rest =>
    if a = b && set.contains a then squeeze set (b :: rest) else a :: squeeze set (b :: rest)
  | rest => rest

def tr (arguments : List String) : Act Unit :=
  withOptions "cCdst" "" arguments fun o => do
    let set (text : String) : List UInt8 :=
      (expandSet (text.length + 1) text.toList).map fun c => UInt8.ofNat c.toNat
    let complement (s : List UInt8) :=
      if o.has 'c' || o.has 'C' then
        ((List.range 256).map UInt8.ofNat).filter fun b => !s.contains b
      else s
    match o.rest with
    | [first] =>
      let first := complement (set first)
      if o.has 'd' && !o.has 's' then
        filter [] fun octets => octets.filter fun b => !first.contains b
      else if o.has 's' && !o.has 'd' then filter [] (squeeze first)
      else failUsage "missing operand"
    | [first, second] =>
      let first := complement (set first)
      let second := set second
      if o.has 'd' then
        if o.has 's' then
          filter [] fun octets => squeeze second (octets.filter fun b => !first.contains b)
        else failUsage "extra operand"
      else if second.isEmpty then failWith "when not truncating set1, string2 must be non-empty"
      else
        let pairs := first.zip (second ++ List.replicate first.length (second.getLastD 0))
        let change (b : UInt8) := ((pairs.reverse.find? (·.1 == b)).map (·.2)).getD b
        filter [] fun octets =>
          let changed := octets.map change
          if o.has 's' then squeeze second changed else changed
    | _ => failUsage (if o.rest.isEmpty then "missing operand" else "extra operand")

def tac (arguments : List String) : Act Unit :=
  withOptions "" "" arguments fun o =>
    filter o.rest fun octets => (linesOf octets).reverse.flatten

def atMostOctets : List UInt8 → List UInt8 → Bool
  | [], _ => true
  | _, [] => false
  | a :: as, b :: bs => a < b || (a = b && atMostOctets as bs)

def leadingNumber (line : List UInt8) : Int :=
  match (ofOctets line).toList.dropWhile isSpace with
  | '-' :: rest => -((String.ofList (rest.takeWhile Char.isDigit)).toNat?.getD 0 : Nat)
  | rest => ((String.ofList (rest.takeWhile Char.isDigit)).toNat?.getD 0 : Nat)

def dropRepeated [BEq α] : List α → List α
  | a :: b :: rest => if a == b then dropRepeated (b :: rest) else a :: dropRepeated (b :: rest)
  | rest => rest

def sort (arguments : List String) : Act Unit :=
  withOptions "nrus" "" arguments fun o =>
    filter o.rest fun octets =>
      let lines := (linesOf octets).map bare
      let before (a b : List UInt8) : Bool :=
        if o.has 'n' then
          leadingNumber a < leadingNumber b ||
            (leadingNumber a = leadingNumber b && atMostOctets a b)
        else atMostOctets a b
      let sorted := lines.mergeSort (if o.has 'r' then fun a b => before b a else before)
      ((if o.has 'u' then dropRepeated sorted else sorted).map ended).flatten

def runs [BEq α] : List α → List (Nat × α)
  | [] => []
  | a :: rest =>
    match runs rest with
    | (n, b) :: more => if a == b then (n + 1, b) :: more else (1, a) :: (n, b) :: more
    | [] => [(1, a)]

def uniq (arguments : List String) : Act Unit :=
  withOptions "cdu" "" arguments fun o =>
    filter o.rest fun octets =>
      let all := (runs ((linesOf octets).map bare)).filter fun (n, _) =>
        !(o.has 'd' && n = 1) && !(o.has 'u' && 1 < n)
      (all.map fun (n, line) =>
        let digits := Nat.toDigits 10 n
        let mark := if o.has 'c' then
            toOctets (.ofList (List.replicate (7 - digits.length) ' ' ++ digits ++ [' ']))
          else []
        ended (mark ++ line)).flatten

def holdsNumber (ranges : String) (n : Nat) : Bool :=
  (ranges.splitOn ",").any fun range =>
    match range.splitOn "-" with
    | [one] => one.toNat? = some n
    | [low, high] => (low.toNat?.getD 1 ≤ n) && (high.isEmpty || n ≤ high.toNat?.getD 0)
    | _ => false

def pick (ranges : String) (items : List α) : List α :=
  (items.zipIdx 1).filterMap fun (a, n) => if holdsNumber ranges n then some a else none

def cut (arguments : List String) : Act Unit :=
  withOptions "s" "bcfd" arguments fun o =>
    match (o.value? 'b').or (o.value? 'c'), o.value? 'f' with
    | some ranges, _ =>
      filter o.rest fun octets =>
        ((linesOf octets).map fun line => ended (pick ranges (bare line))).flatten
    | none, some ranges =>
      let between := (toOctets ((o.value? 'd').getD "\t")).headD 9
      filter o.rest fun octets =>
        ((linesOf octets).filterMap fun line =>
          let line := bare line
          if line.contains between then
            some (ended ([between].intercalate (pick ranges (line.splitOn between))))
          else if o.has 's' then none
          else some (ended line)).flatten
    | none, none => failUsage "you must specify a list of bytes, characters, or fields"

/-! ## The rest -/

/-- Writes numbers. Negative ones are marked, so that they are not taken for options. -/
def seq (arguments : List String) : Act Unit := do
  let marked := arguments.map fun a =>
    match a.toList with
    | '-' :: c :: _ => if c.isDigit then "\x00" ++ a else a
    | _ => a
  match (lettersKnown "w" "s").parse marked with
  | .error fault => failUsage fault
  | .ok o =>
    let numbers := o.rest.map fun a => number? (.ofList (a.toList.filter (· != '\x00')))
    let bounds : Option (Int × Int × Int) := match numbers with
      | [some last] => some (1, 1, last.toInt)
      | [some first, some last] => some (first.toInt, 1, last.toInt)
      | [some first, some step, some last] =>
        if step = 0 then none else some (first.toInt, step.toInt, last.toInt)
      | _ => none
    match bounds with
    | none => failUsage (if o.rest.isEmpty then "missing operand" else "invalid argument")
    | some (first, step, last) =>
      let size := ((last - first).tdiv step + 1).toNat
      let size := if (0 < step && last < first) || (step < 0 && first < last) then 0 else size
      let shown := (List.range (min size 200000)).map fun n : Nat => toString (first + step * n)
      let width := (shown.map String.length).max?.getD 0
      let shown := if o.has 'w' then
          shown.map fun t => String.ofList (List.replicate (width - t.length) '0') ++ t
        else shown
      if shown.isEmpty then setStatus 0
      else say (((o.value? 's').getD "\n").intercalate shown ++ "\n")

def duration? (text : String) : Option Nat :=
  let whole := text.toList.takeWhile Char.isDigit
  let (fraction, rest) := match text.toList.drop whole.length with
    | '.' :: rest => (rest.takeWhile Char.isDigit, rest.dropWhile Char.isDigit)
    | rest => ([], rest)
  let scale := match rest with
    | [] | ['s'] => some 1
    | ['m'] => some 60
    | ['h'] => some 3600
    | ['d'] => some 86400
    | _ => none
  if whole.isEmpty && fraction.isEmpty then none
  else do
    let thousandths := (fraction ++ ['0', '0', '0']).take 3
    let n := ((String.ofList (whole ++ thousandths)).toNat?).getD 0
    return n * (← scale)

def sleep (arguments : List String) : Act Unit := do
  match arguments.mapM duration? with
  | none | some [] =>
    if arguments = ["infinity"] then stuck
    else failUsage (if arguments.isEmpty then "missing operand" else "invalid time interval")
  | some durations =>
    modify fun s => { s with clock := s.clock + durations.foldl (· + ·) 0, status := 0 }

def nameOf (path : String) : String :=
  let parts := (path.splitOn "/").filter (· != "")
  match parts.getLast? with
  | some last => last
  | none => if path.isEmpty then "" else "/"

def basename (arguments : List String) : Act Unit :=
  match arguments with
  | [path] => say (nameOf path ++ "\n")
  | [path, ending] =>
    let name := (nameOf path).toList
    let stem := name.take (name.length - ending.length)
    say (.ofList (if !stem.isEmpty && name.drop stem.length = ending.toList then stem else name) ++
      "\n")
  | _ => failUsage (if arguments.isEmpty then "missing operand" else "extra operand")

def dirname (arguments : List String) : Act Unit :=
  match arguments with
  | [path] =>
    let trim (cs : List Char) := (cs.reverse.dropWhile (· == '/')).reverse
    let cs := trim path.toList
    let cs := (cs.reverse.dropWhile (· != '/')).reverse
    let shown := match trim cs with
      | [] => if path.toList.head? = some '/' then "/" else "."
      | cs => .ofList cs
    say (shown ++ "\n")
  | _ => failUsage (if arguments.isEmpty then "missing operand" else "extra operand")

def answerTest (say : String → Act Unit) (arguments : List String) : Act Unit := do
  match test? (← get) arguments with
  | some true => setStatus 0
  | some false => setStatus 1
  | none =>
    say "test: syntax error"
    setStatus 2

def answerBracket (say : String → Act Unit) (arguments : List String) : Act Unit := do
  if arguments.getLast? = some "]" then answerTest say arguments.dropLast
  else
    say "[: missing ]"
    setStatus 2

def plainEcho : (escapes quiet : Bool) → List String → String
  | escapes, quiet, arguments =>
    let rec go (escapes quiet : Bool) : List String → String
      | [] => if quiet then "" else "\n"
      | a :: rest =>
        match a.toList with
        | '-' :: letters =>
          if !letters.isEmpty && letters.all "neE".toList.contains then
            go (letters.foldl (fun e c => if c = 'e' then true else if c = 'E' then false else e)
              escapes) (quiet || letters.contains 'n') rest
          else finish escapes quiet (a :: rest)
        | _ => finish escapes quiet (a :: rest)
    go escapes quiet arguments
where
  finish (escapes quiet : Bool) (arguments : List String) : String :=
    let text := " ".intercalate arguments
    if escapes then
      let (text, stop) := unescaped text
      .ofList text ++ if stop || quiet then "" else "\n"
    else text ++ if quiet then "" else "\n"

def utility? (name : String) : Option (List String → Act Unit) :=
  match name with
  | "basename" => some basename
  | "cat" => some cat
  | "cut" => some cut
  | "dirname" => some dirname
  | "echo" => some fun arguments => say (plainEcho false false arguments)
  | "false" => some fun _ => setStatus 1
  | "head" => some head
  | "printf" => some fun arguments => do
    match arguments with
    | [] => failUsage "missing operand"
    | format :: rest =>
      let (text, faults, status) := printf format rest
      for fault in faults do complain fault
      say text
      if status != 0 then setStatus 1
  | "pwd" => some fun _ => do say ((← get).here.toPath ++ "\n")
  | "seq" => some seq
  | "sleep" => some sleep
  | "sort" => some sort
  | "tac" => some tac
  | "tail" => some tail
  | "tee" => some tee
  | "test" => some (answerTest complain)
  | "tr" => some tr
  | "true" => some fun _ => setStatus 0
  | "uniq" => some uniq
  | "wc" => some wc
  | "yes" => some yes
  | "[" => some (answerBracket complain)
  | _ => none

end ProofPanel.Host.Shell

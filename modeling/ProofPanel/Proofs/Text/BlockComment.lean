import Mathlib.Data.List.Basic

/-!
# Block comments

A block comment ends where it is closed as often as comments have been opened in it. The text of a
comment is read piece by piece: between pieces stands what neither opens nor closes a comment, so
that no delimiter lies across them.
-/
namespace ProofPanel.BlockComment

/-- Where the reader of a comment is behind a text: still in the comment, with so many others open
in it, or behind its end, with this text left. -/
inductive Reading
  | inside (depth : Nat)
  | closed (left : List Char)
deriving DecidableEq

def read : Nat → List Char → Reading
  | depth, '/' :: '-' :: rest => read (depth + 1) rest
  | 0, '-' :: '/' :: rest => .closed rest
  | depth + 1, '-' :: '/' :: rest => read depth rest
  | depth, _ :: rest => read depth rest
  | depth, [] => .inside depth

def isLine (text : String) : Bool :=
  match text.toList with
  | '/' :: '-' :: rest => read 0 rest = .closed ['\n']
  | _ => false

def isInert (c : Char) : Bool := c != '/' && c != '-'

def Reading.andThen (more : List Char) : Reading → Reading
  | .inside depth => read depth more
  | .closed left => .closed (left ++ more)

def isDelimiter (c : Char) (next : Option Char) : Bool :=
  (c == '/' && next == some '-') || (c == '-' && next == some '/')

theorem isDelimiter_of_isInert {c : Char} (h : isInert c) (next : Option Char) :
    isDelimiter c next = false := by
  rw [isInert, Bool.and_eq_true, bne_iff_ne, bne_iff_ne] at h
  simp [isDelimiter, h]

theorem isDelimiter_isInert {c : Char} (h : isInert c) (x : Char) :
    isDelimiter x (some c) = false := by
  rw [isInert, Bool.and_eq_true, bne_iff_ne, bne_iff_ne] at h
  simp [isDelimiter, h]

theorem read_cons {depth : Nat} {c : Char} {rest : List Char}
    (h : isDelimiter c rest.head? = false) : read depth (c :: rest) = read depth rest := by
  rw [read]
  all_goals
    intros
    subst_vars
    cases h

/-- No delimiter lies across a character that belongs to none. -/
theorem read_append {c : Char} (h : isInert c) (depth : Nat) (text rest : List Char) :
    read depth (text ++ c :: rest) = (read depth text).andThen (c :: rest) := by
  fun_induction read depth text with
  | case1 depth text ih =>
    simp only [List.cons_append]
    rw [read, ih]
  | case2 text => rfl
  | case3 depth text ih =>
    simp only [List.cons_append]
    rw [read, ih]
  | case4 depth x text hopen hclose hcloses ih =>
    have hx : isDelimiter x (text ++ c :: rest).head? = false := by
      cases text with
      | nil => exact isDelimiter_isInert h x
      | cons y text =>
        rw [Bool.eq_false_iff]
        intro hxy
        simp only [isDelimiter, List.cons_append, List.head?_cons, Bool.or_eq_true,
          Bool.and_eq_true, beq_iff_eq, Option.some_inj] at hxy
        rcases hxy with ⟨rfl, rfl⟩ | ⟨rfl, rfl⟩
        · exact hopen text rfl rfl
        · cases depth with
          | zero => exact hclose text rfl rfl rfl
          | succ depth => exact hcloses depth text rfl rfl rfl
    rw [List.cons_append, read_cons hx, ih]
  | case5 depth => rfl

theorem read_inert {text : List Char} (h : text.all isInert) (depth : Nat) (rest : List Char) :
    read depth (text ++ rest) = read depth rest := by
  induction text with
  | nil => rfl
  | cons c text ih =>
    obtain ⟨hc, htext⟩ := Bool.and_eq_true_iff.mp h
    rw [List.cons_append, read_cons (isDelimiter_of_isInert hc _), ih htext]

/-! ## Pieces of a comment -/

def Reading.depth? : Reading → Option Nat
  | .inside depth => some depth
  | .closed _ => none

def through (depth : Nat) (text : String) : Option Nat := (read depth text.toList).depth?

theorem through_inert {text : String} (h : text.toList.all isInert) (depth : Nat) (more : String) :
    through depth (text ++ more) = through depth more := by
  rw [through, String.toList_append, read_inert h, through]

theorem through_append {between : String} (hne : between ≠ "") (h : between.toList.all isInert)
    (depth : Nat) (text more : String) :
    through depth (text ++ between ++ more) =
      (through depth text).bind fun depth => through depth more := by
  cases hbetween : between.toList with
  | nil => exact absurd (String.toList_eq_nil_iff.mp hbetween) hne
  | cons c rest =>
    rw [hbetween] at h
    obtain ⟨hc, -⟩ := Bool.and_eq_true_iff.mp h
    have hskip (depth : Nat) : read depth (c :: rest ++ more.toList) = read depth more.toList :=
      read_inert h depth more.toList
    simp only [through, String.toList_append, hbetween, List.append_assoc]
    rw [List.cons_append, read_append hc]
    cases read depth text.toList with
    | inside depth => exact congrArg Reading.depth? (hskip depth)
    | closed left => rfl

def Undelimited (text : String) : Prop :=
  ¬ ['/', '-'] <:+: text.toList ∧ ¬ ['-', '/'] <:+: text.toList

instance (text : String) : Decidable (Undelimited text) :=
  inferInstanceAs (Decidable (_ ∧ _))

theorem read_undelimited {text : List Char} (hopen : ¬ ['/', '-'] <:+: text)
    (hclose : ¬ ['-', '/'] <:+: text) (depth : Nat) : read depth text = .inside depth := by
  induction text with
  | nil => rfl
  | cons c text ih =>
    have hc : isDelimiter c text.head? = false := by
      rw [Bool.eq_false_iff]
      intro hc
      simp only [isDelimiter, Bool.or_eq_true, Bool.and_eq_true, beq_iff_eq,
        List.head?_eq_some_iff] at hc
      rcases hc with ⟨rfl, rest, rfl⟩ | ⟨rfl, rest, rfl⟩
      · exact hopen (List.prefix_append ['/', '-'] rest).isInfix
      · exact hclose (List.prefix_append ['-', '/'] rest).isInfix
    rw [read_cons hc]
    exact ih (fun h => hopen (h.trans (List.suffix_cons c text).isInfix))
      fun h => hclose (h.trans (List.suffix_cons c text).isInfix)

theorem Undelimited.through {text : String} (h : Undelimited text) (depth : Nat) :
    through depth text = some depth := by
  rw [BlockComment.through, read_undelimited h.1 h.2]
  rfl

theorem foldlM_through {pieces : List String} (h : ∀ piece ∈ pieces, Undelimited piece)
    (depth : Nat) : pieces.foldlM through depth = some depth := by
  induction pieces with
  | nil => rfl
  | cons piece pieces ih =>
    obtain ⟨hpiece, hpieces⟩ := List.forall_mem_cons.mp h
    rw [List.foldlM_cons, hpiece.through]
    exact ih hpieces

/-- A text with its delimiters around is one comment exactly if all comments that the text opens
are closed in it again, and no more. -/
theorem isLine_iff (text : String) :
    isLine ("/-\n" ++ text ++ "\n-/\n") ↔ through 0 text = some 0 := by
  have hlist : ("/-\n" ++ text ++ "\n-/\n").toList =
      '/' :: '-' :: '\n' :: (text.toList ++ '\n' :: ['-', '/', '\n']) := by
    simp
  have hread : isLine ("/-\n" ++ text ++ "\n-/\n") ↔
      read 0 ('\n' :: (text.toList ++ '\n' :: ['-', '/', '\n'])) = .closed ['\n'] := by
    rw [isLine, hlist]
    exact decide_eq_true_iff
  have hbreak : isInert '\n' := by decide
  rw [hread, read_cons (isDelimiter_of_isInert hbreak _), read_append hbreak, through]
  cases read 0 text.toList with
  | inside depth =>
    cases depth with
    | zero => exact iff_of_true rfl rfl
    | succ depth => exact iff_of_false nofun nofun
  | closed left =>
    refine iff_of_false (fun h => ?_) nofun
    have hlength := congrArg List.length (Reading.closed.inj h)
    simp at hlength

end ProofPanel.BlockComment

import ProofPanel.Markup.Rule
import ProofPanel.Proofs.Markup.Reader

/-!
# What the rules colour

The rules of a text work line by line, and of all rules the first one that matches a line marks it:
what a rule has written begins with a tag, where no rule matches. Entities get in no rule's way, so
that the colours of an escaped text are those of the text itself.
-/
namespace ProofPanel.Markup

/-! ## Matches -/

namespace Pattern

variable {p : Pattern} {text rest : List Char}

theorem suffix_of_shortened {accepts : Char → Bool} (h : rest ∈ shortened accepts text) :
    rest <:+ text := by
  induction text with
  | nil =>
    obtain rfl := List.mem_singleton.mp h
    exact List.suffix_refl _
  | cons c text ih =>
    rw [shortened, List.mem_append, List.mem_singleton] at h
    rcases h with h | rfl
    · split at h
      · exact (ih h).trans (List.suffix_cons c text)
      · cases h
    · exact List.suffix_refl _

theorem suffix_of_rests (h : rest ∈ p.rests text) : rest <:+ text := by
  induction p generalizing text rest with
  | word letters =>
    have hprefix := List.isPrefixOf?_eq_some_iff_append_eq.mp (Option.mem_toList.mp h)
    exact ⟨letters, hprefix⟩
  | one accepts =>
    cases text with
    | nil => cases h
    | cons c text =>
      rw [rests] at h
      split at h
      · obtain rfl := List.mem_singleton.mp h
        exact List.suffix_cons c _
      · cases h
  | many accepts => exact suffix_of_shortened h
  | both first second ih ih' =>
    obtain ⟨between, hfirst, hsecond⟩ := List.mem_flatMap.mp h
    exact (ih' hsecond).trans (ih hfirst)
  | either first second ih ih' => exact (List.mem_append.mp h).elim ih ih'

theorem length_lt_of_rests (htakes : p.takes = true) (h : rest ∈ p.rests text) :
    rest.length < text.length := by
  induction p generalizing text rest with
  | word letters =>
    have hprefix := List.isPrefixOf?_eq_some_iff_append_eq.mp (Option.mem_toList.mp h)
    have hpos : 0 < letters.length := by
      rw [takes] at htakes
      exact List.length_pos_iff.mpr (by simpa using htakes)
    rw [← hprefix, List.length_append]
    omega
  | one accepts =>
    cases text with
    | nil => cases h
    | cons c text =>
      rw [rests] at h
      split at h
      · obtain rfl := List.mem_singleton.mp h
        exact Nat.lt_succ_self _
      · cases h
  | many accepts => cases htakes
  | both first second ih ih' =>
    obtain ⟨between, hfirst, hsecond⟩ := List.mem_flatMap.mp h
    rw [takes, Bool.or_eq_true] at htakes
    rcases htakes with htakes | htakes
    · exact Nat.lt_of_le_of_lt (suffix_of_rests hsecond).length_le (ih htakes hfirst)
    · exact Nat.lt_of_lt_of_le (ih' htakes hsecond) (suffix_of_rests hfirst).length_le
  | either first second ih ih' =>
    rw [takes, Bool.and_eq_true] at htakes
    exact (List.mem_append.mp h).elim (ih htakes.1) (ih' htakes.2)

theorem isPrefixOf?_newline {letters : List Char} (h : '\n' ∉ letters) (line more : List Char) :
    letters.isPrefixOf? (line ++ '\n' :: more) =
      (letters.isPrefixOf? line).map (· ++ '\n' :: more) := by
  induction letters generalizing line with
  | nil => simp [List.isPrefixOf?]
  | cons c letters ih =>
    obtain ⟨hc, hletters⟩ := not_or.mp (mt List.mem_cons.mpr h)
    cases line with
    | nil => simp [List.isPrefixOf?, Ne.symm hc]
    | cons d line =>
      have hih := ih hletters line
      by_cases hd : c = d <;> simp [List.isPrefixOf?, hd, hih]

theorem shortened_newline {accepts : Char → Bool} (h : accepts '\n' = false)
    (line more : List Char) :
    shortened accepts (line ++ '\n' :: more) =
      (shortened accepts line).map (· ++ '\n' :: more) := by
  induction line with
  | nil => simp [shortened, h]
  | cons c line ih =>
    simp only [List.cons_append, shortened, ih]
    split <;> simp

/-- What a pattern leaves of a line does not depend on what comes behind it. -/
theorem rests_newline (h : p.staysOnLine = true) (line more : List Char) :
    p.rests (line ++ '\n' :: more) = (p.rests line).map (· ++ '\n' :: more) := by
  induction p generalizing line with
  | word letters =>
    have hletters : '\n' ∉ letters := by simpa [staysOnLine] using h
    rw [rests, rests, isPrefixOf?_newline hletters]
    cases letters.isPrefixOf? line <;> rfl
  | one accepts =>
    rw [staysOnLine, Bool.not_eq_true'] at h
    cases line with
    | nil => simp [rests, h]
    | cons c line =>
      simp only [List.cons_append, rests]
      split <;> rfl
  | many accepts =>
    rw [staysOnLine, Bool.not_eq_true'] at h
    exact shortened_newline h line more
  | both first second ih ih' =>
    rw [staysOnLine, Bool.and_eq_true] at h
    rw [rests, rests, ih h.1, List.flatMap_map, List.map_flatMap]
    exact List.flatMap_congr fun rest _ => ih' h.2 rest
  | either first second ih ih' =>
    rw [staysOnLine, Bool.and_eq_true] at h
    rw [rests, rests, ih h.1, ih' h.2, List.map_append]

end Pattern

/-! ## One rule on a line -/

namespace Rule

variable {r : Rule} {line marked : List Char}

theorem newline_notMem_behind (r : Rule) : '\n' ∉ r.behind := by
  have h := (Bool.and_eq_true_iff.mp r.staysOnLine).2
  simpa using h

/-- What is marked is not empty, and behind it stands what has to. -/
theorem eq_append_of_marks? {text : List Char} (h : r.marks? text = some marked) :
    marked ≠ [] ∧ ∃ left, text = marked ++ (r.behind ++ left) := by
  obtain ⟨rest, hfound, hmarked⟩ := Option.map_eq_some_iff.mp h
  have hmem := List.mem_of_find?_eq_some hfound
  obtain ⟨left, hleft⟩ := List.isPrefixOf_iff_prefix.mp (List.find?_some hfound)
  obtain ⟨front, hfront⟩ := Pattern.suffix_of_rests hmem
  have hlt := Pattern.length_lt_of_rests r.takes hmem
  have hsame : marked = front := by
    rw [← hmarked, ← hfront, List.length_append, Nat.add_sub_cancel, List.take_left]
  refine ⟨?_, left, ?_⟩
  · rintro rfl
    rw [← hfront, ← hsame] at hlt
    exact Nat.lt_irrefl _ hlt
  · rw [hsame, hleft, hfront]

theorem marks?_nil (r : Rule) : r.marks? [] = none := by
  cases h : r.marks? [] with
  | none => rfl
  | some marked =>
    obtain ⟨hne, left, hnil⟩ := eq_append_of_marks? h
    exact absurd (List.append_eq_nil_iff.mp hnil.symm).1 hne

theorem marks?_newline (r : Rule) (line more : List Char) :
    r.marks? (line ++ '\n' :: more) = r.marks? line := by
  have hbehind : ∀ rest, r.behind.isPrefixOf (rest ++ '\n' :: more) = r.behind.isPrefixOf rest := by
    intro rest
    rw [← List.isSome_isPrefixOf?_eq_isPrefixOf, ← List.isSome_isPrefixOf?_eq_isPrefixOf,
      Pattern.isPrefixOf?_newline r.newline_notMem_behind, Option.isSome_map]
  rw [marks?, marks?, left?, left?, Pattern.rests_newline (Bool.and_eq_true_iff.mp r.staysOnLine).1,
    List.find?_map, Option.map_map]
  have hfind : (r.behind.isPrefixOf ·) ∘ (· ++ '\n' :: more) = (r.behind.isPrefixOf ·) :=
    funext hbehind
  rw [hfind]
  refine Option.map_congr fun rest hrest => ?_
  have hle := (Pattern.suffix_of_rests (List.mem_of_find?_eq_some hrest)).length_le
  simp only [Function.comp_apply, List.length_append]
  rw [Nat.add_sub_add_right, List.take_append_of_le_length (Nat.sub_le _ _)]

def applied (r : Rule) (line : List Char) : List Char :=
  match r.marks? line with
  | none => line
  | some marked => r.mark.opening ++ marked ++ strongClosing ++ line.drop marked.length

/-- Within a line no other match begins. -/
theorem replace_within (r : Rule) (h : '\n' ∉ line) {matched : Nat} (hm : matched ≤ line.length)
    (tail : List Char) :
    r.replace false matched (line ++ tail) = line.drop matched ++ r.replace false 0 tail := by
  induction line generalizing matched with
  | nil =>
    obtain rfl : matched = 0 := Nat.le_zero.mp hm
    rfl
  | cons c line ih =>
    obtain ⟨hc, hline⟩ := not_or.mp (mt List.mem_cons.mpr h)
    have hfresh : (c == '\n') = false := beq_eq_false_iff_ne.mpr (Ne.symm hc)
    cases matched with
    | zero =>
      have hrest := ih hline (Nat.zero_le _)
      simp only [List.cons_append, replace, hfresh, Bool.false_eq_true, if_false, hrest,
        List.drop_zero]
    | succ matched =>
      simp only [List.cons_append, replace, hfresh, List.drop_succ_cons]
      exact ih hline (Nat.le_of_succ_le_succ hm)

theorem replace_of_marks? {c : Char} {rest : List Char} (h : '\n' ∉ c :: line)
    (hmarks : r.marks? (c :: rest) = r.marks? (c :: line)) {tail : List Char}
    (hrest : rest = line ++ tail) :
    r.replace true 0 (c :: rest) = r.applied (c :: line) ++ r.replace false 0 tail := by
  obtain ⟨hc, hline⟩ := not_or.mp (mt List.mem_cons.mpr h)
  have hfresh : (c == '\n') = false := beq_eq_false_iff_ne.mpr (Ne.symm hc)
  rw [replace, if_pos rfl, hmarks, applied, hfresh]
  cases hm : r.marks? (c :: line) with
  | none =>
    simp only [hrest, r.replace_within hline (Nat.zero_le _), List.drop_zero, List.cons_append]
  | some marked =>
    obtain ⟨hne, left, hleft⟩ := eq_append_of_marks? hm
    have hpos := List.length_pos_iff.mpr hne
    have hlength := congrArg List.length hleft
    simp only [List.length_cons, List.length_append] at hlength
    have hdrop : line.drop (marked.length + r.behind.length - 1) = left := by
      have hskip : (c :: line).drop (marked.length + r.behind.length) = left := by
        rw [hleft, ← List.append_assoc, ← List.length_append, List.drop_left]
      obtain ⟨n, hn⟩ := Nat.exists_eq_succ_of_ne_zero
        (Nat.ne_of_gt (Nat.add_pos_left hpos r.behind.length))
      rw [hn] at hskip ⊢
      exact hskip
    have hbehind : (c :: line).drop marked.length = r.behind ++ left := by
      rw [hleft, List.drop_left]
    have hwithin := r.replace_within hline
      (by omega : marked.length + r.behind.length - 1 ≤ line.length) tail
    simp only [hrest, hwithin, hdrop, hbehind, List.append_assoc]

/-- A rule does to a line what it does, whatever the lines behind it are. -/
theorem replace_newline (r : Rule) (h : '\n' ∉ line) (more : List Char) :
    r.replace true 0 (line ++ '\n' :: more) = r.applied line ++ '\n' :: r.replace true 0 more := by
  have htail : r.replace false 0 ('\n' :: more) = '\n' :: r.replace true 0 more := rfl
  rw [← htail]
  cases line with
  | nil =>
    have hmarks := r.marks?_newline [] more
    rw [List.nil_append] at hmarks
    rw [List.nil_append, applied, r.marks?_nil, replace, if_pos rfl, hmarks, r.marks?_nil]
    rfl
  | cons c line => exact replace_of_marks? h (r.marks?_newline (c :: line) more) rfl

theorem replace_line (r : Rule) (h : '\n' ∉ line) : r.replace true 0 line = r.applied line := by
  cases line with
  | nil =>
    rw [applied, r.marks?_nil]
    rfl
  | cons c line =>
    refine (replace_of_marks? h rfl (List.append_nil line).symm).trans ?_
    rw [replace, List.append_nil]

end Rule

/-! ## All rules on a line -/

theorem newline_notMem_opening (m : Mark) : '\n' ∉ m.opening := by
  cases m <;> decide

theorem exists_opening_eq (m : Mark) : ∃ name, m.opening = '<' :: name := by
  cases m <;> exact ⟨_, rfl⟩

theorem Rule.newline_notMem_applied {r : Rule} {line : List Char} (h : '\n' ∉ line) :
    '\n' ∉ r.applied line := by
  unfold applied
  split
  · exact h
  · next marked hm =>
    obtain ⟨-, left, hleft⟩ := eq_append_of_marks? hm
    have hmarked : '\n' ∉ marked := fun hmem => h (hleft ▸ List.mem_append_left _ hmem)
    have hdrop : '\n' ∉ line.drop marked.length := fun hmem => h (List.mem_of_mem_drop hmem)
    have hclosing : '\n' ∉ strongClosing := by decide
    simp only [List.mem_append, not_or]
    exact ⟨⟨⟨newline_notMem_opening r.mark, hmarked⟩, hclosing⟩, hdrop⟩

theorem foldl_replace_newline (rs : List Rule) {line : List Char} (h : '\n' ∉ line)
    (more : List Char) :
    rs.foldl (fun text r => r.replace true 0 text) (line ++ '\n' :: more) =
      rs.foldl (fun line r => r.applied line) line ++
        '\n' :: rs.foldl (fun text r => r.replace true 0 text) more := by
  induction rs generalizing line more with
  | nil => rfl
  | cons r rs ih =>
    rw [List.foldl_cons, List.foldl_cons, List.foldl_cons, r.replace_newline h,
      ih (Rule.newline_notMem_applied h)]

theorem foldl_replace_line (rs : List Rule) {line : List Char} (h : '\n' ∉ line) :
    rs.foldl (fun text r => r.replace true 0 text) line =
      rs.foldl (fun line r => r.applied line) line := by
  induction rs generalizing line with
  | nil => rfl
  | cons r rs ih =>
    rw [List.foldl_cons, List.foldl_cons, r.replace_line h, ih (Rule.newline_notMem_applied h)]

def firstMarks? (rs : List Rule) (line : List Char) : Option (Mark × List Char) :=
  rs.findSome? fun r => (r.marks? line).map (r.mark, ·)

def decorated (line : List Char) : Option (Mark × List Char) → List Char
  | none => line
  | some (mark, marked) => mark.opening ++ marked ++ strongClosing ++ line.drop marked.length

def SkipsTags (rs : List Rule) : Prop := ∀ r ∈ rs, ∀ text, r.marks? ('<' :: text) = none

theorem foldl_applied_tag {rs : List Rule} (h : SkipsTags rs) (text : List Char) :
    rs.foldl (fun line r => r.applied line) ('<' :: text) = '<' :: text := by
  induction rs with
  | nil => rfl
  | cons r rs ih =>
    obtain ⟨hr, hrs⟩ := List.forall_mem_cons.mp h
    rw [List.foldl_cons, Rule.applied, hr]
    exact ih hrs

/-- What one rule has marked begins with a tag, so that the others leave the line alone. -/
theorem foldl_applied {rs : List Rule} (h : SkipsTags rs) (line : List Char) :
    rs.foldl (fun line r => r.applied line) line = decorated line (firstMarks? rs line) := by
  induction rs with
  | nil => rfl
  | cons r rs ih =>
    have hrs : SkipsTags rs := (List.forall_mem_cons.mp h).2
    rw [List.foldl_cons, Rule.applied, firstMarks?, List.findSome?_cons]
    cases hm : r.marks? line with
    | none => exact ih hrs
    | some marked =>
      obtain ⟨name, hname⟩ := exists_opening_eq r.mark
      simp only [Option.map_some, decorated, hname, List.cons_append]
      exact foldl_applied_tag hrs _

end ProofPanel.Markup

import Mathlib.Data.List.TakeWhile
import ProofPanel.Proofs.Markup.Rule

/-!
# Colours of escaped text

The rules on an escaped line and the marks in the line itself are the same colours: the entities in
an escaped line stop no match before its end and begin none of their own.
-/
namespace ProofPanel.Markup

/-! ## Escaped text -/

def significant : List Char := ['&', '<', '>', '\x22', '\x27']

def entityChars : List Char := significant.flatMap fun c => c :: escapeChar c

theorem notMem_of_all {chars text : List Char} (h : chars.all (!text.contains ·)) :
    ∀ c ∈ chars, c ∉ text := by
  simpa using h

theorem escapeChar_eq_self {c : Char} (h : c ∉ significant) : escapeChar c = [c] := by
  simp [significant] at h
  simp [escapeChar, h]

theorem exists_entity {c : Char} (h : c ∈ significant) : ∃ name, escapeChar c = '&' :: name := by
  simp only [significant, List.mem_cons, List.not_mem_nil, or_false] at h
  rcases h with rfl | rfl | rfl | rfl | rfl <;> exact ⟨_, rfl⟩

theorem mem_escapeChar {c : Char} (h : c ∉ entityChars) (d : Char) : c ∈ escapeChar d ↔ c = d := by
  by_cases hd : d ∈ significant
  · have hnot : c ∉ d :: escapeChar d := fun hmem => h (List.mem_flatMap.mpr ⟨d, hd, hmem⟩)
    rw [List.mem_cons, not_or] at hnot
    exact iff_of_false hnot.2 hnot.1
  · rw [escapeChar_eq_self hd, List.mem_singleton]

theorem mem_escapeChars {c : Char} (h : c ∉ entityChars) (text : List Char) :
    c ∈ escapeChars text ↔ c ∈ text := by
  simp [escapeChars, mem_escapeChar h]

theorem escapeChars_append (text more : List Char) :
    escapeChars (text ++ more) = escapeChars text ++ escapeChars more := List.flatMap_append

theorem escapeChars_cons (c : Char) (text : List Char) :
    escapeChars (c :: text) = escapeChar c ++ escapeChars text := List.flatMap_cons

/-! ## Plain patterns -/

theorem isPrefixOf?_escapeChars {letters : List Char} (h : ∀ c ∈ letters, c ∉ significant)
    (text : List Char) :
    letters.isPrefixOf? (escapeChars text) = (letters.isPrefixOf? text).map escapeChars := by
  induction letters generalizing text with
  | nil => rfl
  | cons c letters ih =>
    obtain ⟨hc, hletters⟩ := List.forall_mem_cons.mp h
    cases text with
    | nil => rfl
    | cons d text =>
      rw [escapeChars_cons]
      by_cases hd : d ∈ significant
      · obtain ⟨name, hname⟩ := exists_entity hd
        have hand : c ≠ '&' := by
          rintro rfl
          exact hc (by decide)
        have hne : c ≠ d := by
          rintro rfl
          exact hc hd
        simp [hname, List.isPrefixOf?, hand, hne]
      · rw [escapeChar_eq_self hd]
        have hih := ih hletters text
        by_cases he : c = d <;> simp [List.isPrefixOf?, he, hih]

namespace Pattern

def plain : Pattern → Bool
  | .word letters => letters.all (!significant.contains ·)
  | .one accepts | .many accepts => significant.all (!accepts ·)
  | .both first second | .either first second => first.plain && second.plain

theorem rejects {accepts : Char → Bool} (h : significant.all (!accepts ·)) {c : Char}
    (hc : c ∈ significant) : accepts c = false := by
  simpa using List.all_eq_true.mp h c hc

theorem shortened_escapeChars {accepts : Char → Bool} (h : significant.all (!accepts ·))
    (text : List Char) :
    shortened accepts (escapeChars text) = (shortened accepts text).map escapeChars := by
  induction text with
  | nil => rfl
  | cons c text ih =>
    rw [shortened]
    by_cases hc : c ∈ significant
    · obtain ⟨name, hname⟩ := exists_entity hc
      have hand : accepts '&' = false := rejects h (by decide)
      simp [escapeChars_cons, hname, shortened, hand, rejects h hc]
    · rw [escapeChars_cons, escapeChar_eq_self hc, List.singleton_append, shortened, ih]
      split <;> simp [escapeChars_cons, escapeChar_eq_self hc]

/-- What a plain pattern leaves of an escaped text is what it leaves of the text, escaped. -/
theorem rests_escapeChars {p : Pattern} (h : p.plain) (text : List Char) :
    p.rests (escapeChars text) = (p.rests text).map escapeChars := by
  induction p generalizing text with
  | word letters =>
    have hletters : ∀ c ∈ letters, c ∉ significant := notMem_of_all h
    rw [rests, rests, isPrefixOf?_escapeChars hletters]
    cases letters.isPrefixOf? text <;> rfl
  | one accepts =>
    cases text with
    | nil => rfl
    | cons c text =>
      by_cases hc : c ∈ significant
      · obtain ⟨name, hname⟩ := exists_entity hc
        have hand : accepts '&' = false := rejects h (by decide)
        simp [escapeChars_cons, hname, rests, hand, rejects h hc]
      · rw [escapeChars_cons, escapeChar_eq_self hc, List.singleton_append, rests, rests]
        split <;> rfl
  | many accepts => exact shortened_escapeChars h text
  | both first second ih ih' =>
    rw [plain, Bool.and_eq_true] at h
    rw [rests, rests, ih h.1, List.flatMap_map, List.map_flatMap]
    exact List.flatMap_congr fun rest _ => ih' h.2 rest
  | either first second ih ih' =>
    rw [plain, Bool.and_eq_true] at h
    rw [rests, rests, ih h.1, ih' h.2, List.map_append]

end Pattern

/-! ## The rules on a line -/

namespace Rule

variable {r : Rule} {line : List Char} {after : Option Nat}

theorem left?_escapeChars (h : r.marked.plain) (hbehind : ∀ c ∈ r.behind, c ∉ significant)
    (line : List Char) : r.left? (escapeChars line) = (r.left? line).map escapeChars := by
  have hsame : (r.behind.isPrefixOf ·) ∘ escapeChars = (r.behind.isPrefixOf ·) := by
    funext rest
    simp only [Function.comp_apply, ← List.isSome_isPrefixOf?_eq_isPrefixOf,
      isPrefixOf?_escapeChars hbehind, Option.isSome_map]
  rw [left?, left?, Pattern.rests_escapeChars h, List.find?_map, hsame]

/-- What a rule marks in an escaped line, from what it leaves of it. -/
theorem marks?_of_left?
    (h : r.left? (escapeChars line) = after.map fun n => escapeChars (line.drop n)) :
    r.marks? (escapeChars line) = after.map fun n => escapeChars (line.take n) := by
  rw [marks?, h, Option.map_map]
  refine Option.map_congr fun n _ => ?_
  have hsplit : escapeChars line = escapeChars (line.take n) ++ escapeChars (line.drop n) := by
    rw [← escapeChars_append, List.take_append_drop]
  simp only [Function.comp_apply]
  rw [hsplit, List.length_append, Nat.add_sub_cancel, List.take_left]

theorem marks?_of_plain (hplain : r.marked.plain) (hbehind : ∀ c ∈ r.behind, c ∉ significant)
    (h : r.left? line = after.map (line.drop ·)) :
    r.marks? (escapeChars line) = after.map fun n => escapeChars (line.take n) := by
  refine marks?_of_left? ?_
  rw [left?_escapeChars hplain hbehind, h, Option.map_map]
  rfl

theorem left?_turnstile (line : List Char) :
    turnstile.left? line = (afterTurnstile? line).map (line.drop ·) := by
  unfold afterTurnstile?
  split
  · rfl
  · rfl
  · next hturnstile hbar =>
    refine List.find?_eq_none.mpr fun rest hrest hspace => ?_
    obtain ⟨left, rfl⟩ := List.isPrefixOf_iff_prefix.mp hspace
    cases line with
    | nil => cases hrest
    | cons c text =>
      change _ ∈ (if c == '|' || c == '⊢' then [text] else []) at hrest
      split at hrest
      · next hc =>
        obtain rfl := List.mem_singleton.mp hrest
        rw [Bool.or_eq_true, beq_iff_eq, beq_iff_eq] at hc
        rcases hc with rfl | rfl
        · exact hbar left rfl
        · exact hturnstile left rfl
      · cases hrest

/-- Behind accepted characters alone nothing is found where one of them stands. -/
theorem flatMap_shortened {accepts : Char → Bool} {f : List Char → List (List Char)}
    (h : ∀ c rest, accepts c → f (c :: rest) = []) (text : List Char) :
    (Pattern.shortened accepts text).flatMap f = f (text.dropWhile accepts) := by
  induction text with
  | nil => simp [Pattern.shortened]
  | cons c text ih =>
    rw [Pattern.shortened]
    cases hc : accepts c with
    | false => simp [hc]
    | true => simp [hc, ih, h c text hc]

theorem drop_length_takeWhile (accepts : Char → Bool) (text : List Char) :
    text.drop (text.takeWhile accepts).length = text.dropWhile accepts := by
  have hsplit : (text.takeWhile accepts ++ text.dropWhile accepts).drop
      (text.takeWhile accepts).length = text.dropWhile accepts := List.drop_left
  rwa [List.takeWhile_append_dropWhile] at hsplit

/-- A word matches with what has to stand behind it as one longer word does. -/
theorem find?_word (letters behind text : List Char) :
    ((Pattern.word letters).rests text).find? (behind.isPrefixOf ·) =
      if (letters ++ behind).isPrefixOf text then some (text.drop letters.length) else none := by
  rw [Pattern.rests]
  cases hletters : letters.isPrefixOf? text with
  | none =>
    have hnot : (letters ++ behind).isPrefixOf text = false := by
      rw [Bool.eq_false_iff]
      intro h
      have hprefix := (List.prefix_append letters behind).trans (List.isPrefixOf_iff_prefix.mp h)
      have hsome := List.isPrefixOf_iff_prefix.mpr hprefix
      rw [← List.isSome_isPrefixOf?_eq_isPrefixOf, hletters] at hsome
      cases hsome
    rw [hnot]
    rfl
  | some rest =>
    obtain rfl := List.isPrefixOf?_eq_some_iff_append_eq.mp hletters
    have hsame : (letters ++ behind).isPrefixOf (letters ++ rest) = behind.isPrefixOf rest := by
      rw [Bool.eq_iff_iff, List.isPrefixOf_iff_prefix, List.isPrefixOf_iff_prefix,
        List.prefix_append_right_inj]
    rw [hsame, List.drop_left]
    exact List.find?_singleton

theorem left?_count (line : List Char) :
    count.left? line = (afterCount? line).map (line.drop ·) := by
  cases line with
  | nil => rfl
  | cons c text =>
    have hrests : count.left? (c :: text) =
        ((if Text.isDecimalDigit c then [text] else []).flatMap fun rest =>
          (Pattern.shortened Text.isDecimalDigit rest).flatMap
            (Pattern.word " goals".toList).rests).find? ([].isPrefixOf ·) := rfl
    -- The word begins with a space, so that no shorter run of digits can match.
    have hspace : ∀ d rest, Text.isDecimalDigit d →
        (Pattern.word " goals".toList).rests (d :: rest) = [] := by
      intro d rest hd
      have hne : ' ' ≠ d := by
        rintro rfl
        revert hd
        decide
      simp [Pattern.rests, List.isPrefixOf?, hne]
    unfold afterCount?
    cases hc : Text.isDecimalDigit c with
    | false =>
      rw [hrests, hc]
      simp [hc]
    | true =>
      rw [hrests, hc, if_pos rfl, List.flatMap_singleton, flatMap_shortened hspace, find?_word,
        List.append_nil, List.takeWhile_cons_of_pos hc, List.dropWhile_cons_of_pos hc]
      simp only [List.isEmpty_cons, Bool.not_false, Bool.true_and]
      split_ifs
      · rw [Option.map_some, ← List.drop_drop, List.length_cons, List.drop_succ_cons,
          drop_length_takeWhile]
      · rfl

theorem left?_header (line : List Char) :
    header.left? line = (afterHeader? line).map (line.drop ·) := by
  have hwords : header.left? line = ((Pattern.word "context".toList).rests line ++
      (Pattern.word "state".toList).rests line).find? ([':'].isPrefixOf ·) := rfl
  rw [hwords, List.find?_append, find?_word, find?_word, afterHeader?]
  have hcontext : "context".toList ++ [':'] = "context:".toList := by decide
  have hstate : "state".toList ++ [':'] = "state:".toList := by decide
  rw [hcontext, hstate]
  split_ifs <;> rfl

theorem left?_caseTag (line : List Char) :
    caseTag.left? line = (afterCase? line).map (line.drop ·) := by
  have hword : caseTag.left? line =
      ((Pattern.word "case".toList).rests line).find? ([' '].isPrefixOf ·) := rfl
  have hcase : "case".toList ++ [' '] = "case ".toList := by decide
  rw [hword, find?_word, hcase, afterCase?]
  split_ifs <;> rfl

/-- Names reach to the first colon, behind a space. -/
theorem find?_names {names : List Char} (hcolon : ':' ∉ names) (hbreak : '\n' ∉ names)
    (after : List Char) :
    (Pattern.shortened isInNames (names ++ ':' :: after)).find? ([' ', ':'].isPrefixOf ·) =
      if names.getLast? = some ' ' ∧ '⊢' ∉ names then some (' ' :: ':' :: after) else none := by
  -- What is left of the names is tried from its end on: first the colon, then what is before it.
  induction names with
  | nil => rfl
  | cons c names ih =>
    obtain ⟨hc, hcolon⟩ := not_or.mp (mt List.mem_cons.mpr hcolon)
    obtain ⟨hb, hbreak⟩ := not_or.mp (mt List.mem_cons.mpr hbreak)
    rw [List.cons_append, Pattern.shortened, List.find?_append]
    by_cases hturnstile : '⊢' = c
    · subst hturnstile
      simp [isInNames]
    · have hin : isInNames c = true := by
        simp [isInNames, Ne.symm hc, Ne.symm hb, Ne.symm hturnstile]
      rw [if_pos hin, ih hcolon hbreak]
      cases names with
      | nil =>
        by_cases hspace : c = ' '
        · subst hspace
          simp
        · simp [hspace, Ne.symm hspace]
      | cons d names =>
        obtain ⟨hd, -⟩ := not_or.mp (mt List.mem_cons.mpr hcolon)
        simp [hd, hturnstile]

theorem find?_names_none {text : List Char} (h : ':' ∉ text) :
    (Pattern.shortened isInNames text).find? ([' ', ':'].isPrefixOf ·) = none := by
  refine List.find?_eq_none.mpr fun rest hrest hcolon => ?_
  obtain ⟨left, rfl⟩ := List.isPrefixOf_iff_prefix.mp hcolon
  exact h ((Pattern.suffix_of_shortened hrest).subset (by simp))

end Rule

/-- A text ends with a character of no entity as its escaped form does, whatever stands before. -/
theorem getLast?_escapeChars {c : Char} (h : c ∉ entityChars) {name : List Char} (hname : c ∉ name)
    (text : List Char) :
    (name ++ escapeChars text).getLast? = some c ↔ text.getLast? = some c := by
  rcases text.eq_nil_or_concat with rfl | ⟨init, d, rfl⟩
  · refine iff_of_false (fun hlast => hname ?_) nofun
    simpa [escapeChars] using List.mem_of_getLast? hlast
  · have hsplit : name ++ escapeChars (init.concat d) =
        (name ++ escapeChars init) ++ escapeChar d := by
      simp [escapeChars]
    rw [hsplit, List.getLast?_append, List.concat_eq_append, List.getLast?_concat, Option.some_inj]
    by_cases hd : d ∈ significant
    · have hne : d ≠ c := by
        rintro rfl
        exact h (List.mem_flatMap.mpr ⟨d, hd, List.mem_cons_self⟩)
      obtain ⟨entity, hentity⟩ := exists_entity hd
      have hlast : (escapeChar d).getLast? ≠ some c := fun hlast =>
        hne ((mem_escapeChar h d).mp (List.mem_of_getLast? hlast)).symm
      refine iff_of_false ?_ hne
      rw [hentity, List.getLast?_cons] at hlast ⊢
      exact hlast
    · simp [escapeChar_eq_self hd]

def nameMarks : List Char := [':', ' ', '\n', '⊢']

theorem nameMarks_inert : ∀ d ∈ nameMarks, d ∉ entityChars := notMem_of_all (by decide)

/-- How an escaped character begins, and that nothing in the rest of it matters to names. -/
theorem exists_escapeChar_eq {c : Char} (hbreak : c ≠ '\n') :
    ∃ first name, escapeChar c = first :: name ∧
      Rule.startsNames first = (c != ':' && c != ' ') ∧ ∀ d ∈ nameMarks, d ∉ name := by
  by_cases hc : c ∈ significant
  · simp only [significant, List.mem_cons, List.not_mem_nil, or_false] at hc
    rcases hc with rfl | rfl | rfl | rfl | rfl <;>
      exact ⟨_, _, rfl, by decide, notMem_of_all (by decide)⟩
  · refine ⟨c, [], escapeChar_eq_self hc, ?_, fun _ _ => List.not_mem_nil⟩
    have hless : c ≠ '<' := by
      rintro rfl
      exact hc (by decide)
    rw [Bool.eq_iff_iff]
    simp [Rule.startsNames, hbreak, hless]

namespace Rule

theorem afterHypothesis?_names {c : Char} {names : List Char} (hstart : c != ':' && c != ' ')
    (h : ':' ∉ names) (after : List Char) :
    afterHypothesis? (c :: (names ++ ':' :: after)) =
      if names.getLast? = some ' ' ∧ '⊢' ∉ names then some names.length else none := by
  have htake : (names ++ ':' :: after).takeWhile (· != ':') = names := by
    have hall : ∀ d ∈ names, (d != ':') = true := by
      intro d hd
      rw [bne_iff_ne]
      rintro rfl
      exact h hd
    rw [List.takeWhile_append_of_pos hall]
    simp
  have hshort : names.length < (names ++ ':' :: after).length := by
    rw [List.length_append, List.length_cons]
    omega
  simp only [afterHypothesis?, hstart, htake, hshort, decide_true, Bool.true_and]
  congr 1
  simp

theorem afterHypothesis?_none (c : Char) {rest : List Char} (h : ':' ∉ rest) :
    afterHypothesis? (c :: rest) = none := by
  have htake : rest.takeWhile (· != ':') = rest := by
    rw [List.takeWhile_eq_self_iff]
    intro d hd
    rw [bne_iff_ne]
    rintro rfl
    exact h hd
  simp [afterHypothesis?, htake]

/-- Names in escaped text, behind the rest of the entity with which they may begin. -/
theorem find?_names_escapeChars {name names : List Char} (hclean : ∀ d ∈ nameMarks, d ∉ name)
    (hcolon : ':' ∉ names) (hbreak : '\n' ∉ names) (after : List Char) :
    (Pattern.shortened isInNames (name ++ escapeChars (names ++ ':' :: after))).find?
        ([' ', ':'].isPrefixOf ·) =
      if names.getLast? = some ' ' ∧ '⊢' ∉ names then
        some (escapeChars (' ' :: ':' :: after))
      else none := by
  have hmem : ∀ d ∈ nameMarks, (d ∈ name ++ escapeChars names ↔ d ∈ names) := by
    intro d hd
    rw [List.mem_append, mem_escapeChars (nameMarks_inert d hd), or_iff_right (hclean d hd)]
  have hlast : (name ++ escapeChars names).getLast? = some ' ' ↔ names.getLast? = some ' ' :=
    getLast?_escapeChars (nameMarks_inert ' ' (by decide)) (hclean ' ' (by decide)) names
  have hescaped : name ++ escapeChars (names ++ ':' :: after) =
      (name ++ escapeChars names) ++ ':' :: escapeChars after := by
    rw [escapeChars_append, List.append_assoc]
    rfl
  rw [hescaped, find?_names ((hmem ':' (by decide)).not.mpr hcolon)
    ((hmem '\n' (by decide)).not.mpr hbreak)]
  simp only [hlast, hmem '⊢' (by decide)]
  rfl

theorem left?_hypothesis {line : List Char} (h : '\n' ∉ line) :
    hypothesis.left? (escapeChars line) =
      (afterHypothesis? line).map fun n => escapeChars (line.drop n) := by
  cases line with
  | nil => rfl
  | cons c rest =>
    obtain ⟨hc, hrest⟩ := not_or.mp (mt List.mem_cons.mpr h)
    obtain ⟨first, name, hname, hfirst, hclean⟩ := exists_escapeChar_eq (Ne.symm hc)
    have hfound : hypothesis.left? (escapeChars (c :: rest)) =
        ((if startsNames first then [name ++ escapeChars rest] else []).flatMap
          (Pattern.shortened isInNames)).find? ([' ', ':'].isPrefixOf ·) := by
      rw [escapeChars_cons, hname]
      rfl
    rw [hfound, hfirst]
    cases hstart : c != ':' && c != ' ' with
    | false => simp [afterHypothesis?, hstart]
    | true =>
      rw [if_pos rfl, List.flatMap_singleton]
      by_cases hcolon : ':' ∈ rest
      · obtain ⟨names, after, rfl, hnames⟩ := List.eq_append_cons_of_mem hcolon
        have hbreak : '\n' ∉ names := fun hmem => hrest (List.mem_append_left _ hmem)
        rw [find?_names_escapeChars hclean hnames hbreak, afterHypothesis?_names hstart hnames]
        split
        · next hlast =>
          obtain ⟨init, rfl⟩ := List.getLast?_eq_some_iff.mp hlast.1
          have hdrop : (c :: (init ++ [' '] ++ ':' :: after)).drop (init ++ [' ']).length =
              ' ' :: ':' :: after := by
            simp
          rw [Option.map_some, hdrop]
        · rfl
      · have hescaped : ':' ∉ name ++ escapeChars rest := by
          rw [List.mem_append, mem_escapeChars (nameMarks_inert ':' (by decide)), not_or]
          exact ⟨hclean ':' (by decide), hcolon⟩
        rw [find?_names_none hescaped, afterHypothesis?_none c hcolon]
        rfl

end Rule

/-! ## Lines -/

theorem skipsTags_rules : SkipsTags rules := by
  intro r hr text
  simp only [rules, List.mem_cons, List.not_mem_nil, or_false] at hr
  rcases hr with rfl | rfl | rfl | rfl | rfl <;> rfl

/-- What the rules mark in an escaped line is what is marked in the line. -/
theorem firstMarks?_rules {line : List Char} (h : '\n' ∉ line) :
    firstMarks? rules (escapeChars line) =
      (mark? line).map fun (mark, n) => (mark, escapeChars (line.take n)) := by
  have hturnstile := Rule.marks?_of_plain (by decide) (notMem_of_all (by decide))
    (Rule.left?_turnstile line)
  have hcount := Rule.marks?_of_plain (by decide) (notMem_of_all (by decide))
    (Rule.left?_count line)
  have hheader := Rule.marks?_of_plain (by decide) (notMem_of_all (by decide))
    (Rule.left?_header line)
  have hcase := Rule.marks?_of_plain (by decide) (notMem_of_all (by decide))
    (Rule.left?_caseTag line)
  have hhypothesis := Rule.marks?_of_left? (Rule.left?_hypothesis h)
  simp only [firstMarks?, rules, List.findSome?_cons, List.findSome?_nil, hturnstile, hcount,
    hheader, hcase, hhypothesis, mark?]
  cases afterTurnstile? line with
  | some n => rfl
  | none =>
  cases afterCount? line with
  | some n => rfl
  | none =>
  cases afterHeader? line with
  | some n => rfl
  | none =>
  cases afterCase? line with
  | some n => rfl
  | none => cases afterHypothesis? line <;> rfl

end ProofPanel.Markup

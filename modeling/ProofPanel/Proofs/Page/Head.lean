import ProofPanel.Page
import ProofPanel.Proofs.Markup.Reader

/-!
# The head of the page

The style of a page ends where the page means it to end, whatever the configuration and the base
style are, and so does the head. Behind the style there is at most the script.
-/
namespace ProofPanel

namespace Markup

/-! ## Marks in a text -/

/-- A mark does not begin anywhere in a text, as it is followed by the rest. -/
def Passes (mark : List Char) : List Char → List Char → Prop
  | [], _ => True
  | c :: front, rest => ¬ mark <+: c :: front ++ rest ∧ Passes mark front rest

theorem Passes.append {mark front more rest : List Char} (hfront : Passes mark front (more ++ rest))
    (hmore : Passes mark more rest) : Passes mark (front ++ more) rest := by
  induction front with
  | nil => exact hmore
  | cons c front ih =>
    have hassoc : c :: (front ++ more) ++ rest = c :: front ++ (more ++ rest) := by simp
    refine ⟨fun hp => hfront.1 ?_, ih hfront.2⟩
    rw [← hassoc]
    exact hp

theorem Passes.drop {mark front rest : List Char} (h : Passes mark front rest) {n : Nat}
    (hn : n < front.length) : ¬ mark <+: front.drop n ++ rest := by
  induction front generalizing n with
  | nil => cases hn
  | cons c front ih =>
    cases n with
    | zero => exact h.1
    | succ n => exact ih h.2 (by simpa using hn)

/-- A mark that does not begin before is found where it stands. -/
theorem dropInfix?_of_passes {mark front behind : List Char}
    (h : Passes mark front (mark ++ behind)) :
    (front ++ (mark ++ behind)).dropInfix? mark = some (front, behind) := by
  refine List.dropInfix?_eq_some_iff.mpr ⟨⟨mark, by simp, by simp⟩, fun before mark' rest he hm => ?_⟩
  obtain rfl : mark' = mark := by simpa using hm
  by_contra hshort
  have hlt : before.length < front.length := by omega
  refine h.drop hlt ⟨rest, ?_⟩
  have hdrop := congrArg (List.drop before.length) he
  rw [List.drop_append_of_le_length (Nat.le_of_lt hlt), List.append_assoc, List.drop_left] at hdrop
  exact hdrop.symm

theorem not_infix_of_passes {mark front rest : List Char} (h : Passes mark front rest)
    (hne : mark ≠ []) : ¬ mark <:+: front := by
  rintro ⟨before, behind, he⟩
  have hlt : before.length < front.length := by
    have hpos := List.length_pos_of_ne_nil hne
    rw [← he]
    simp only [List.length_append]
    omega
  refine h.drop hlt ⟨behind ++ rest, ?_⟩
  rw [← he]
  simp

/-- A mark does not begin where its first character does not stand. -/
theorem passes_of_notMem {first : Char} {front : List Char} (h : first ∉ front)
    (more rest : List Char) : Passes (first :: more) front rest := by
  induction front with
  | nil => trivial
  | cons c front ih =>
    obtain ⟨hc, hfront⟩ := not_or.mp (mt List.mem_cons.mpr h)
    exact ⟨fun hp => hc (List.cons_prefix_cons.mp hp).1, ih hfront⟩

/-- Whether every place of a text shows by itself that a mark does not begin there. -/
def isClear (mark : List Char) : List Char → Bool
  | [] => true
  | c :: front => (mark.zip (c :: front)).any (fun p => p.1 != p.2) && isClear mark front

theorem passes_of_isClear {mark front : List Char} (h : isClear mark front) (rest : List Char) :
    Passes mark front rest := by
  induction front with
  | nil => trivial
  | cons c front ih =>
    obtain ⟨hhere, hfront⟩ := Bool.and_eq_true_iff.mp h
    refine ⟨?_, ih hfront⟩
    rintro ⟨behind, he⟩
    obtain ⟨⟨x, y⟩, hmem, hne⟩ := List.any_eq_true.mp hhere
    obtain ⟨n, hn⟩ := List.mem_iff_getElem?.mp hmem
    obtain ⟨hx, hy⟩ := List.getElem?_zip_eq_some.mp hn
    have hboth := congrArg (·[n]?) he
    simp only [List.getElem?_append_left (List.getElem?_eq_some_iff.mp hx).1, hx,
      List.getElem?_append_left (List.getElem?_eq_some_iff.mp hy).1, hy] at hboth
    obtain rfl : x = y := by simpa using hboth
    simp at hne

end Markup

namespace Page

open Markup

/-! ## The style -/

/-- Guarding a text keeps its first character. -/
theorem exists_guardClosing_cons (c : Char) (text : List Char) :
    ∃ rest, guardClosing (c :: text) = c :: rest := by
  unfold guardClosing
  split
  · cases ‹_ = _›
    exact ⟨_, rfl⟩
  · cases ‹_ = _›
    exact ⟨_, rfl⟩
  · cases ‹_ = _›

/-- No end tag begins in a guarded text, nor at its end when a bracket follows. -/
theorem passes_guardClosing (text more rest : List Char) :
    Passes ('<' :: '/' :: more) (guardClosing text) ('<' :: rest) := by
  induction text using guardClosing.induct with
  | case1 text ih =>
    rw [guardClosing]
    refine ⟨?_, ?_, ?_, ih⟩
    all_goals simp [List.cons_prefix_cons]
  | case2 c text h ih =>
    have hkept : guardClosing (c :: text) = c :: guardClosing text := by
      rw [guardClosing]
      exact h
    rw [hkept]
    refine ⟨fun hp => ?_, ih⟩
    obtain ⟨rfl, hslash⟩ := List.cons_prefix_cons.mp hp
    -- A slash behind the bracket would be the next character of the text itself.
    cases text with
    | nil => simp [guardClosing] at hslash
    | cons d text =>
      obtain ⟨guarded, hd⟩ := exists_guardClosing_cons d text
      rw [hd] at hslash
      obtain rfl := (List.cons_prefix_cons.mp hslash).1
      exact h text rfl rfl
  | case3 => trivial

/-! ## The parts of the head -/

def preamble : List Char :=
  "<!DOCTYPE html>\n<html>\n<head>\n".toList ++
    "<meta http-equiv=\x22Content-type\x22 content=\x22text/html;charset=utf-8\x22>\n".toList

def script (a : Assets) : List Token :=
  if a.script = "" then []
  else element "script" [.valued "charset" "utf-8", .valued "src" a.script] [] ++ [lineBreak]

def remainder (a : Assets) : List Char := (lineBreak :: script a).flatMap Token.write

theorem flatMap_write_script (a : Assets) : (script a).flatMap Token.write =
    (if a.script = "" then ""
      else "<script charset=\x22utf-8\x22 src=\x22" ++ escape a.script ++
        "\x22></script>\n").toList := by
  unfold script
  split
  · rfl
  · have hcharset : escapeChars ['u', 't', 'f', '-', '8'] = ['u', 't', 'f', '-', '8'] := by decide
    have hbreak : escapeChars ['\n'] = ['\n'] := by decide
    simp [escape, element, lineBreak, Token.write, Attribute.write, hcharset, hbreak]

theorem toList_render (s : Snapshot) (c : Config) (a : Assets) :
    (render s c a).toList = preamble ++ ("<style>".toList ++ (guardClosing (style c a).toList ++
      ("</style>".toList ++ (remainder a ++ ("</head>".toList ++
        (lineBreak :: body s a).flatMap Token.write))))) := by
  have hbreak : escapeChars ['\n'] = ['\n'] := by decide
  unfold render head preamble remainder write
  simp [flatMap_write_script, lineBreak, Token.write, hbreak]

/-! ## The marks in the head -/

theorem passes_remainder (a : Assets) (rest : List Char) :
    Passes "</head>".toList (remainder a) rest := by
  have hbreak : remainder a = ['\n'] ++ (script a).flatMap Token.write := rfl
  rw [hbreak, flatMap_write_script]
  refine Passes.append (passes_of_isClear (by decide) _) ?_
  split
  · trivial
  · have hsrc : (escape a.script).toList = escapeChars a.script.toList := String.toList_ofList
    rw [String.toList_append, String.toList_append, hsrc]
    refine Passes.append (Passes.append (passes_of_isClear (by decide) _) ?_)
      (passes_of_isClear (by decide) _)
    exact passes_of_notMem (notMem_escapeChars (.inl rfl) _) _ _

theorem passes_style (mark rest : List Char) (c : Config) (a : Assets) :
    Passes ('<' :: '/' :: mark) (guardClosing (style c a).toList) ("</style>".toList ++ rest) :=
  passes_guardClosing _ _ _

/-- The first end of a head in a page is the one of its own head. -/
theorem dropInfix?_head (s : Snapshot) (c : Config) (a : Assets) :
    (render s c a).toList.dropInfix? "</head>".toList = some
      (preamble ++ ("<style>".toList ++ (guardClosing (style c a).toList ++
        ("</style>".toList ++ remainder a))), (lineBreak :: body s a).flatMap Token.write) := by
  rw [toList_render]
  have hpasses (rest : List Char) : Passes "</head>".toList
      (preamble ++ ("<style>".toList ++ (guardClosing (style c a).toList ++
        ("</style>".toList ++ remainder a)))) rest := by
    refine Passes.append (passes_of_isClear (by decide) _) ?_
    refine Passes.append (passes_of_isClear (by decide) _) ?_
    refine Passes.append ?_ (Passes.append (passes_of_isClear (by decide) _) (passes_remainder a _))
    rw [List.append_assoc]
    exact passes_style _ _ c a
  have hfound := dropInfix?_of_passes (hpasses ("</head>".toList ++
    (lineBreak :: body s a).flatMap Token.write))
  simpa only [List.append_assoc] using hfound

theorem dropInfix?_style (rest : List Char) :
    (preamble ++ ("<style>".toList ++ rest)).dropInfix? "<style>".toList = some (preamble, rest) :=
  dropInfix?_of_passes (passes_of_isClear (by decide) _)

theorem dropInfix?_endOfStyle (c : Config) (a : Assets) (rest : List Char) :
    (guardClosing (style c a).toList ++ ("</style>".toList ++ rest)).dropInfix?
      "</style>".toList = some (guardClosing (style c a).toList, rest) :=
  dropInfix?_of_passes (passes_style _ _ c a)

end Page

end ProofPanel

import Mathlib.Data.String.Basic
import ProofPanel.Json.Printer
import ProofPanel.Json.Reader

/-!
# Reading what is written

The compact text of a value is read back as that value. Floating-point numbers are left out, whole
numbers have to fit into 64 bits, and an object's members have to stand in the order of their keys,
where the reader puts them.
-/
namespace ProofPanel.Json

/-- The values that are read back exactly, at most so many levels deep. -/
def Exact : Nat → Json → Prop
  | _, .null | _, .bool _ | _, .str _ => True
  | _, .int n => -(UInt64.size / 2 : Nat) ≤ n ∧ n < UInt64.size
  | _, .float _ => False
  | 0, .arr _ | 0, .obj _ => False
  | depth + 1, .arr items => ∀ item ∈ items, Exact depth item
  | depth + 1, .obj members =>
    members.Pairwise (·.1 < ·.1) ∧ ∀ member ∈ members, Exact depth member.2

def Closes : List Char → Prop
  | [] => True
  | c :: _ => c = ',' ∨ c = ']' ∨ c = '\x7d'

/-! ## Strings -/

theorem hexValue?_hexDigit : ∀ n < 16, hexValue? (hexDigit n) = some n := by decide

theorem readQuotedFrom_escapeChar (fuel : Nat) (done : List Char) (c : Char) (rest : List Char) :
    readQuotedFrom (fuel + 1) done (escapeChar c ++ rest) = readQuotedFrom fuel (c :: done) rest := by
  unfold escapeChar
  split_ifs with h1 h2 h3 h4 h5 h6 h7 h8
  · simp [readQuotedFrom, readEscape, h1]
  · simp [readQuotedFrom, readEscape, h2]
  · simp [readQuotedFrom, readEscape, h3]
  · simp [readQuotedFrom, readEscape, h4]
  · simp [readQuotedFrom, readEscape, h5]
  · simp [readQuotedFrom, readEscape, h6]
  · simp [readQuotedFrom, readEscape, h7]
  · have hhigh := hexValue?_hexDigit (c.toNat / 16) (by omega)
    have hlow := hexValue?_hexDigit (c.toNat % 16) (by omega)
    have hzero : hexValue? '0' = some 0 := by decide
    have hunit : c.toNat / 16 * 16 + c.toNat % 16 = c.toNat := by omega
    have hbelow : isLowSurrogate c.toNat = false ∧ isHighSurrogate c.toNat = false := by
      simp only [isLowSurrogate, isHighSurrogate, Bool.and_eq_false_iff, decide_eq_false_iff_not]
      omega
    simp [readQuotedFrom, readEscape, readHex, hzero, hhigh, hlow, hunit, hbelow, bind, Except.bind,
      pure, Except.pure]
  · simp [readQuotedFrom, h1, h2, h8]

theorem readQuotedFrom_quoted {fuel : Nat} {text : List Char} (hf : text.length < fuel)
    (done rest : List Char) :
    readQuotedFrom fuel done (text.flatMap escapeChar ++ '\x22' :: rest) =
      .ok (.ofList (done.reverse ++ text), rest) := by
  obtain ⟨fuel, rfl⟩ := Nat.exists_eq_add_of_lt hf
  clear hf
  induction text generalizing done with
  | nil => simp [readQuotedFrom]
  | cons c text ih =>
    have hfuel : (c :: text).length + fuel + 1 = text.length + fuel + 1 + 1 := by
      simp only [List.length_cons]
      omega
    rw [List.flatMap_cons, List.append_assoc, hfuel, readQuotedFrom_escapeChar, ih]
    simp

theorem length_le_escaped (text : List Char) : text.length ≤ (text.flatMap escapeChar).length := by
  induction text with
  | nil => simp
  | cons c text ih =>
    have hc : 1 ≤ (escapeChar c).length := by
      unfold escapeChar
      split_ifs <;> simp
    rw [List.flatMap_cons, List.length_append, List.length_cons]
    omega

/-! ## Whole numbers -/

theorem le_ofDigitChars (digits : List Char) (n : Nat) : n ≤ Nat.ofDigitChars 10 digits n := by
  rw [Nat.ofDigitChars_eq_ofDigitChars_zero]
  exact (Nat.le_mul_of_pos_left n (Nat.pow_pos (by decide))).trans (Nat.le_add_right _ _)

theorem takeDigits_append {bound n : Nat} {digits rest : List Char}
    (hd : ∀ c ∈ digits, isDigit c = true) (hb : Nat.ofDigitChars 10 digits n ≤ bound)
    (hr : startsWithDigit rest = false) (taken : Nat) :
    takeDigits bound n taken (digits ++ rest) =
      (Nat.ofDigitChars 10 digits n, taken + digits.length, rest) := by
  induction digits generalizing n taken with
  | nil =>
    cases rest with
    | nil => rfl
    | cons c rest =>
      have hc : isDigit c = false := hr
      simp [takeDigits, hc]
  | cons c digits ih =>
    have hc : isDigit c = true := hd c List.mem_cons_self
    have hstep : Nat.ofDigitChars 10 (c :: digits) n =
        Nat.ofDigitChars 10 digits (n * 10 + digitValue c) := by
      rw [Nat.ofDigitChars_cons, Nat.mul_comm]
      rfl
    rw [hstep] at hb ⊢
    have hle : n * 10 + digitValue c ≤ bound := (le_ofDigitChars _ _).trans hb
    have ih := ih (fun d hd' => hd d (List.mem_cons_of_mem c hd')) hb (taken + 1)
    simp only [List.cons_append, takeDigits, hc, hle, decide_true, Bool.and_self, if_true, ih,
      List.length_cons]
    rw [Nat.add_assoc, Nat.add_comm 1]

theorem digitChar_ne_zero : ∀ n < 10, 0 < n → n.digitChar ≠ '0' := by decide

theorem head?_toDigits {n : Nat} (h : 0 < n) : (Nat.toDigits 10 n).head? ≠ some '0' := by
  induction n using Nat.strong_induction_on with
  | _ n ih =>
    rw [Nat.toDigits_eq_if (by decide)]
    split_ifs with hn
    · simpa using digitChar_ne_zero n hn h
    · have hne : Nat.toDigits 10 (n / 10) ≠ [] := Nat.toDigits_ne_nil
      rw [List.head?_append_of_ne_nil _ hne]
      exact ih (n / 10) (by omega) (by omega)

theorem Closes.startsWithDigit {rest : List Char} (h : Closes rest) :
    startsWithDigit rest = false := by
  cases rest with
  | nil => rfl
  | cons c rest => rcases h with rfl | rfl | rfl <;> rfl

theorem readSuffix_closed (negative : Bool) (n : Nat) {rest : List Char} (h : Closes rest) :
    readSuffix negative n rest = .ok (wholeNumber negative n, rest) := by
  cases rest with
  | nil => rfl
  | cons c rest => rcases h with rfl | rfl | rfl <;> rfl

theorem readNumber_toDigits (negative : Bool) {n : Nat} (hn : n < UInt64.size) {rest : List Char}
    (h : Closes rest) :
    readNumber negative (Nat.toDigits 10 n ++ rest) = .ok (wholeNumber negative n, rest) := by
  rcases Nat.eq_zero_or_pos n with rfl | hpos
  · rw [Nat.toDigits_zero]
    simp only [List.singleton_append, readNumber, h.startsWithDigit]
    exact readSuffix_closed negative 0 h
  · have hdigits : ∀ c ∈ Nat.toDigits 10 n, isDigit c = true := fun c hc =>
      Nat.isDigit_of_mem_toDigits (by decide) (by decide) hc
    have hbound : Nat.ofDigitChars 10 (Nat.toDigits 10 n) 0 ≤ maxSignificand := by
      rw [Nat.ofDigitChars_ten_toDigits, maxSignificand]
      omega
    have htake := takeDigits_append hdigits hbound h.startsWithDigit 0
    have hhead := head?_toDigits hpos
    cases hd : Nat.toDigits 10 n with
    | nil => exact absurd hd Nat.toDigits_ne_nil
    | cons c digits =>
      rw [hd] at htake hhead hdigits
      have hc : isDigit c = true := hdigits c List.mem_cons_self
      have hne : c ≠ '0' := fun he => hhead (by rw [he]; rfl)
      rw [List.cons_append] at htake ⊢
      unfold readNumber
      split
      · next heq => cases heq
      · next heq =>
        cases heq
        exact absurd rfl hne
      · next heq =>
        cases heq
        rw [if_pos hc, htake, ← hd, Nat.ofDigitChars_ten_toDigits]
        exact readSuffix_closed negative n h

/-! ## Values -/

theorem skipSpace_cons {c : Char} (h : isSpace c = false) (rest : List Char) :
    skipSpace (c :: rest) = c :: rest := by
  rw [skipSpace, List.dropWhile_cons_of_neg (by simp [h])]

theorem not_isSpace_of_isDigit {c : Char} (h : isDigit c = true) : isSpace c = false := by
  simp only [isSpace, Bool.or_eq_false_iff, decide_eq_false_iff_not]
  refine ⟨⟨⟨?_, ?_⟩, ?_⟩, ?_⟩ <;> (rintro rfl; exact absurd h (by decide))

/-- Written values start with a character that is no space and closes no array. -/
theorem write_eq_cons {depth : Nat} {value : Json} (h : Exact depth value) :
    ∃ c rest, write value = c :: rest ∧ isSpace c = false ∧ c ≠ ']' := by
  cases value with
  | null => exact ⟨_, _, by rw [write], by decide, by decide⟩
  | bool b => cases b <;> exact ⟨_, _, by rw [write], by decide, by decide⟩
  | int n =>
    rw [write]
    cases n with
    | negSucc n => exact ⟨_, _, rfl, by decide, by decide⟩
    | ofNat n =>
      cases hd : Nat.toDigits 10 n with
      | nil => exact absurd hd Nat.toDigits_ne_nil
      | cons c digits =>
        have hc : isDigit c = true :=
          Nat.isDigit_of_mem_toDigits (b := 10) (n := n) (by decide) (by decide)
            (by rw [hd]; exact List.mem_cons_self)
        refine ⟨c, digits, hd, not_isSpace_of_isDigit hc, ?_⟩
        rintro rfl
        exact absurd hc (by decide)
  | float x => cases depth <;> exact h.elim
  | str s => exact ⟨_, _, by rw [write, quote]; rfl, by decide, by decide⟩
  | arr items =>
    cases items with
    | nil => exact ⟨_, _, by rw [write], by decide, by decide⟩
    | cons item items => exact ⟨'[', _, by rw [write]; rfl, by decide, by decide⟩
  | obj members =>
    rcases members with _ | ⟨⟨key, value⟩, members⟩
    · exact ⟨_, _, by rw [write], by decide, by decide⟩
    · exact ⟨'\x7b', _, by rw [write]; rfl, by decide, by decide⟩

theorem readValue_digit {c : Char} (h : isDigit c = true) (fuel depth : Nat) (rest : List Char) :
    readValue (fuel + 1) depth (c :: rest) = readNumber false (c :: rest) := by
  rw [readValue, skipSpace_cons (not_isSpace_of_isDigit h)]
  dsimp only
  split
  case h_8 => exact if_pos h
  all_goals exact absurd h (by decide)

theorem readValue_int {n : Int} (h : Exact 0 (.int n)) {rest : List Char} (hr : Closes rest)
    (fuel depth : Nat) :
    readValue (fuel + 1) depth (writeInt n ++ rest) = .ok (.int n, rest) := by
  obtain ⟨hlow, hhigh⟩ := h
  have hsize : UInt64.size = 2 ^ 64 := rfl
  cases n with
  | ofNat n =>
    have hread := readNumber_toDigits false (n := n) (Int.ofNat_lt.mp hhigh) hr
    cases hd : Nat.toDigits 10 n with
    | nil => exact absurd hd Nat.toDigits_ne_nil
    | cons c digits =>
      have hc : isDigit c = true :=
        Nat.isDigit_of_mem_toDigits (b := 10) (n := n) (by decide) (by decide)
          (by rw [hd]; exact List.mem_cons_self)
      rw [hd] at hread
      simp only [writeInt, hd]
      exact (readValue_digit hc fuel depth _).trans hread
  | negSucc n =>
    have hn : n + 1 ≤ UInt64.size / 2 := by omega
    have hread := readNumber_toDigits true (n := n + 1) (by omega) hr
    rw [writeInt, List.cons_append, readValue, skipSpace_cons (by decide)]
    refine hread.trans ?_
    simp [wholeNumber, hn, Int.negSucc_eq]

def ReadsBack (depth : Nat) : Prop :=
  ∀ value, Exact depth value → ∀ rest, Closes rest → ∀ fuel, (write value).length ≤ fuel →
    readValue fuel depth (write value ++ rest) = .ok (value, rest)

theorem readValue_str (s : String) (depth : Nat) (rest : List Char) {fuel : Nat}
    (hf : (quote s).length ≤ fuel + 1) :
    readValue (fuel + 1) depth (quote s ++ rest) = .ok (.str s, rest) := by
  have hlen := length_le_escaped s.toList
  have hfuel : s.toList.length < fuel + 1 := by
    simp only [quote, List.length_cons, List.length_append] at hf
    omega
  have hquoted := readQuotedFrom_quoted hfuel [] rest
  simp only [quote, List.cons_append, List.append_assoc, List.nil_append]
  rw [readValue, skipSpace_cons (by decide)]
  simp [hquoted]

theorem closes_writeItems (items : List Json) (rest : List Char) :
    Closes (writeItems items ++ rest) := by
  cases items with
  | nil => exact .inr (.inl rfl)
  | cons item items => exact .inl rfl

theorem closes_writeMembers (members : Members) (rest : List Char) :
    Closes (writeMembers members ++ rest) := by
  rcases members with _ | ⟨⟨key, value⟩, members⟩
  · exact .inr (.inr rfl)
  · exact .inl rfl

theorem readItems_write {depth : Nat} (hb : ReadsBack depth) {item : Json} {items : List Json}
    (h : ∀ i ∈ item :: items, Exact depth i) (done : List Json) (rest : List Char) {fuel : Nat}
    (hf : (write item ++ writeItems items).length ≤ fuel) :
    readItems fuel depth done (write item ++ writeItems items ++ rest) =
      .ok (.arr (done.reverse ++ item :: items), rest) := by
  induction items generalizing item done fuel with
  | nil =>
    simp only [writeItems, List.length_append, List.length_singleton] at hf
    obtain ⟨fuel, rfl⟩ := Nat.exists_eq_add_of_lt (Nat.lt_of_lt_of_le (Nat.lt_succ_self _) hf)
    have hitem := hb item (h item List.mem_cons_self) (']' :: rest) (.inr (.inl rfl))
      ((write item).length + fuel) (Nat.le_add_right _ _)
    simp only [writeItems, List.append_assoc, List.singleton_append, readItems, hitem,
      skipSpace_cons (show isSpace ']' = false by decide), List.reverse_cons]
  | cons next items ih =>
    simp only [writeItems, List.length_append, List.cons_append, List.length_cons] at hf
    obtain ⟨c, tail, hw, -, -⟩ := write_eq_cons (h item List.mem_cons_self)
    have hpos : 1 ≤ (write item).length := by rw [hw, List.length_cons]; omega
    obtain ⟨fuel, rfl⟩ : ∃ k, fuel = k + 1 := ⟨fuel - 1, by omega⟩
    have hnext : Exact depth next := h next (by simp)
    have hitem := hb item (h item List.mem_cons_self) (writeItems (next :: items) ++ rest)
      (closes_writeItems _ _) fuel (by omega)
    have hfuel : (write next ++ writeItems items).length ≤ fuel := by
      rw [List.length_append]
      omega
    have hrest := ih (fun i hi => h i (List.mem_cons_of_mem _ hi)) (item :: done) hfuel
    rw [List.append_assoc, readItems, hitem]
    simp only [writeItems, List.cons_append, skipSpace_cons (show isSpace ',' = false by decide)]
    -- The next item does not start with the bracket that would end the array here.
    obtain ⟨c, tail, hw, hspace, hc⟩ := write_eq_cons hnext
    rw [hw] at hrest ⊢
    simp only [List.cons_append, skipSpace_cons hspace] at hrest ⊢
    split
    · next heq =>
      cases heq
      exact absurd rfl hc
    · rw [hrest, List.reverse_cons, List.append_assoc, List.singleton_append]

/-! Members are read in the order of their keys, so that each one comes last where it is inserted. -/

theorem insert_last {key : String} {value : Json} {members : Members}
    (h : ∀ member ∈ members, member.1 < key) :
    members.insert key value = members ++ [(key, value)] := by
  induction members with
  | nil => rfl
  | cons member members ih =>
    obtain ⟨k, v⟩ := member
    have hk : k < key := h (k, v) List.mem_cons_self
    rw [Members.insert, if_neg (lt_asymm hk), if_neg hk.ne', List.cons_append,
      ih fun m hm => h m (List.mem_cons_of_mem _ hm)]

theorem readKey_quote (key : String) (rest : List Char) {fuel : Nat}
    (hf : (quote key).length ≤ fuel) :
    readKey fuel (quote key ++ ':' :: rest) = .ok (key, rest) := by
  have hlen := length_le_escaped key.toList
  have hfuel : key.toList.length < fuel := by
    simp only [quote, List.length_cons, List.length_append] at hf
    omega
  have hquoted := readQuotedFrom_quoted hfuel [] (':' :: rest)
  simp only [quote, List.cons_append, List.append_assoc, List.nil_append]
  simp [readKey, hquoted, skipSpace_cons (show isSpace ':' = false by decide)]

theorem readMembers_write {depth : Nat} (hb : ReadsBack depth) {key : String} {value : Json}
    {members done : Members} (hp : (done ++ (key, value) :: members).Pairwise (·.1 < ·.1))
    (h : ∀ m ∈ (key, value) :: members, Exact depth m.2) (rest : List Char) {fuel : Nat}
    (hf : (quote key ++ ':' :: write value ++ writeMembers members).length ≤ fuel) :
    readMembers fuel depth done (quote key ++ ':' :: write value ++ writeMembers members ++ rest) =
      .ok (.obj (done ++ (key, value) :: members), rest) := by
  induction members generalizing key value done fuel with
  | nil =>
    simp only [writeMembers, List.length_append, List.length_cons, List.length_nil] at hf
    obtain ⟨fuel, rfl⟩ : ∃ k, fuel = k + 1 := ⟨fuel - 1, by omega⟩
    have hlast : done.insert key value = done ++ [(key, value)] :=
      insert_last fun m hm => (List.pairwise_append.mp hp).2.2 m hm _ List.mem_cons_self
    have hfuel : (quote key).length ≤ fuel + 1 := by omega
    have hkey := readKey_quote key (write value ++ '\x7d' :: rest) hfuel
    have hvalue := hb value (h (key, value) List.mem_cons_self) ('\x7d' :: rest) (.inr (.inr rfl))
      fuel (by omega)
    simp only [writeMembers, List.append_assoc, List.cons_append, List.nil_append, readMembers, hkey,
      hvalue, hlast, skipSpace_cons (show isSpace '\x7d' = false by decide)]
  | cons next members ih =>
    obtain ⟨nextKey, nextValue⟩ := next
    simp only [writeMembers, List.length_append, List.cons_append, List.length_cons] at hf
    obtain ⟨fuel, rfl⟩ : ∃ k, fuel = k + 1 := ⟨fuel - 1, by omega⟩
    have hlast : done.insert key value = done ++ [(key, value)] :=
      insert_last fun m hm => (List.pairwise_append.mp hp).2.2 m hm _ List.mem_cons_self
    have hfuel : (quote key).length ≤ fuel + 1 := by omega
    have hkey := readKey_quote key
      (write value ++ (writeMembers ((nextKey, nextValue) :: members) ++ rest)) hfuel
    have hvalue := hb value (h (key, value) List.mem_cons_self)
      (writeMembers ((nextKey, nextValue) :: members) ++ rest) (closes_writeMembers _ _) fuel
      (by omega)
    have hsorted : ((done ++ [(key, value)]) ++ (nextKey, nextValue) :: members).Pairwise
        (·.1 < ·.1) := by
      rwa [List.append_assoc, List.singleton_append]
    have hlater : (quote nextKey ++ ':' :: write nextValue ++ writeMembers members).length ≤
        fuel := by
      simp only [List.length_append, List.length_cons]
      omega
    have hrest := ih hsorted (fun m hm => h m (List.mem_cons_of_mem _ hm)) hlater
    have hquote : quote nextKey = '\x22' :: (nextKey.toList.flatMap escapeChar ++ ['\x22']) := rfl
    simp only [List.append_assoc, List.cons_append] at hrest ⊢
    rw [readMembers, hkey]
    dsimp only
    rw [hvalue]
    simp only [writeMembers, List.cons_append, List.append_assoc, hlast,
      skipSpace_cons (show isSpace ',' = false by decide), hquote] at hrest ⊢
    rw [skipSpace_cons (by decide)]
    simpa using hrest

theorem readValue_arr {depth : Nat} (hb : ReadsBack depth) {items : List Json}
    (h : ∀ item ∈ items, Exact depth item) (rest : List Char) {fuel : Nat}
    (hf : (write (.arr items)).length ≤ fuel + 1) :
    readValue (fuel + 1) (depth + 1) (write (.arr items) ++ rest) = .ok (.arr items, rest) := by
  cases items with
  | nil => rfl
  | cons item items =>
    simp only [write, List.cons_append, List.length_cons] at hf
    have hfuel : (write item ++ writeItems items).length ≤ fuel := by omega
    have hitems := readItems_write hb h [] rest hfuel
    obtain ⟨c, tail, hw, hspace, hc⟩ := write_eq_cons (h item List.mem_cons_self)
    rw [hw] at hitems
    rw [write, hw, List.cons_append, List.cons_append, readValue, skipSpace_cons (by decide)]
    simp only [List.cons_append, skipSpace_cons hspace] at hitems ⊢
    split
    · next heq => cases heq
    · next heq =>
      cases heq
      exact absurd rfl hc
    · exact hitems

theorem readValue_obj {depth : Nat} (hb : ReadsBack depth) {members : Members}
    (hp : members.Pairwise (·.1 < ·.1)) (h : ∀ m ∈ members, Exact depth m.2) (rest : List Char)
    {fuel : Nat} (hf : (write (.obj members)).length ≤ fuel + 1) :
    readValue (fuel + 1) (depth + 1) (write (.obj members) ++ rest) = .ok (.obj members, rest) := by
  rcases members with _ | ⟨⟨key, value⟩, members⟩
  · rfl
  · simp only [write, List.cons_append, List.length_cons] at hf
    have hsorted : List.Pairwise (·.1 < ·.1) (([] : Members) ++ (key, value) :: members) := hp
    have hfuel : (quote key ++ ':' :: write value ++ writeMembers members).length ≤ fuel := by
      simpa using hf
    have hmembers := readMembers_write hb hsorted h rest hfuel
    rw [write, List.cons_append, List.cons_append, List.cons_append, readValue,
      skipSpace_cons (by decide)]
    simpa [quote, skipSpace_cons (show isSpace '\x22' = false by decide)] using hmembers

theorem readValue_flat {value : Json} (h : Exact 0 value) (depth : Nat) {rest : List Char}
    (hr : Closes rest) {fuel : Nat} (hf : (write value).length ≤ fuel + 1) :
    readValue (fuel + 1) depth (write value ++ rest) = .ok (value, rest) := by
  cases value with
  | null => rfl
  | bool b => cases b <;> rfl
  | int n => exact readValue_int h hr fuel depth
  | float x => exact h.elim
  | str s => exact readValue_str s depth rest hf
  | arr items => exact h.elim
  | obj members => exact h.elim

theorem readsBack (depth : Nat) : ReadsBack depth := by
  induction depth with
  | zero =>
    intro value h rest hr fuel hf
    obtain ⟨c, tail, hw, -, -⟩ := write_eq_cons h
    obtain ⟨fuel, rfl⟩ : ∃ k, fuel = k + 1 := ⟨fuel - 1, by rw [hw, List.length_cons] at hf; omega⟩
    exact readValue_flat h 0 hr hf
  | succ depth ih =>
    intro value h rest hr fuel hf
    obtain ⟨c, tail, hw, -, -⟩ := write_eq_cons h
    obtain ⟨fuel, rfl⟩ : ∃ k, fuel = k + 1 := ⟨fuel - 1, by rw [hw, List.length_cons] at hf; omega⟩
    cases value with
    | arr items => exact readValue_arr ih h rest hf
    | obj members => exact readValue_obj ih h.1 h.2 rest hf
    | _ =>
      refine readValue_flat ?_ (depth + 1) hr hf
      exact h

/-- Reading undoes writing. -/
theorem parse_print {value : Json} (h : Exact maxDepth value) : parse value.print = .ok value := by
  have hread := readsBack maxDepth value h [] trivial (2 * (write value).length + 2) (by omega)
  rw [List.append_nil] at hread
  simp [parse, print, parseWithin, hread, skipSpace]

end ProofPanel.Json

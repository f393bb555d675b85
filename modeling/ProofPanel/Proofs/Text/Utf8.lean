import Mathlib.Data.String.Basic
import ProofPanel.Text.Utf8

/-!
# Octets and characters

The octets that lead the machine from between two characters to a character are exactly the ones
that character is encoded by. So strict decoding accepts encoded texts and nothing else, and lossy
decoding changes nothing in them.
-/
namespace ProofPanel.Utf8

inductive Spells : Option Partial → List UInt8 → Char → Prop
  | last {begun : Option Partial} {b : UInt8} {c : Char} (read : step begun b = .char c) :
      Spells begun [b] c
  | more {begun : Option Partial} {b : UInt8} {p : Partial} {octets : List UInt8} {c : Char}
      (read : step begun b = .more p) (rest : Spells (some p) octets c) :
      Spells begun (b :: octets) c

variable {begun : Option Partial} {b : UInt8} {c : Char} {p : Partial} {octets rest : List UInt8}

/-! ## One octet -/

theorem first_eq_char_iff : first b = .char c ↔ b.toNat < 0x80 ∧ c = Char.ofNat b.toNat := by
  unfold first
  simp only [UInt8.lt_iff_toNat_lt, UInt8.reduceToNat]
  split_ifs <;> grind

theorem first_eq_more_iff : first b = .more p ↔
    (0xC2 ≤ b.toNat ∧ b.toNat < 0xE0 ∧ p = ⟨1, 0x80, 0xBF, b.toNat % 32⟩) ∨
    (0xE0 ≤ b.toNat ∧ b.toNat < 0xF0 ∧ p = ⟨2, if b = 0xE0 then 0xA0 else 0x80,
      if b = 0xED then 0x9F else 0xBF, b.toNat % 16⟩) ∨
    (0xF0 ≤ b.toNat ∧ b.toNat < 0xF5 ∧ p = ⟨3, if b = 0xF0 then 0x90 else 0x80,
      if b = 0xF4 then 0x8F else 0xBF, b.toNat % 8⟩) := by
  unfold first
  simp only [UInt8.lt_iff_toNat_lt, UInt8.reduceToNat]
  split_ifs <;> grind

theorem next_eq_char_iff : p.next b = .char c ↔
    p.low ≤ b ∧ b ≤ p.high ∧ p.owed = 1 ∧ c = Char.ofNat (p.bits * 64 + b.toNat % 64) := by
  unfold Partial.next
  grind

theorem next_eq_more_iff {q : Partial} : p.next b = .more q ↔
    p.low ≤ b ∧ b ≤ p.high ∧ p.owed ≠ 1 ∧
      q = ⟨p.owed - 1, 0x80, 0xBF, p.bits * 64 + b.toNat % 64⟩ := by
  unfold Partial.next
  grind

/-! ## One character -/

theorem spells_owed_one_iff {low high : UInt8} {bits : Nat} :
    Spells (some ⟨1, low, high, bits⟩) octets c ↔
      ∃ b, octets = [b] ∧ low ≤ b ∧ b ≤ high ∧ c = Char.ofNat (bits * 64 + b.toNat % 64) := by
  constructor
  · intro h
    cases h with
    | last read =>
      obtain ⟨hl, hh, -, rfl⟩ := next_eq_char_iff.mp read
      exact ⟨_, rfl, hl, hh, rfl⟩
    | more read => exact absurd rfl (next_eq_more_iff.mp read).2.2.1
  · rintro ⟨b, rfl, hl, hh, rfl⟩
    exact .last (next_eq_char_iff.mpr ⟨hl, hh, rfl, rfl⟩)

theorem spells_owed_succ_iff {n : Nat} {low high : UInt8} {bits : Nat} :
    Spells (some ⟨n + 2, low, high, bits⟩) octets c ↔
      ∃ b rest, octets = b :: rest ∧ low ≤ b ∧ b ≤ high ∧
        Spells (some ⟨n + 1, 0x80, 0xBF, bits * 64 + b.toNat % 64⟩) rest c := by
  constructor
  · intro h
    cases h with
    | last read =>
      obtain ⟨-, -, howed, -⟩ := next_eq_char_iff.mp read
      exact absurd howed (by simp)
    | more read rest =>
      obtain ⟨hl, hh, -, rfl⟩ := next_eq_more_iff.mp read
      exact ⟨_, _, rfl, hl, hh, rest⟩
  · rintro ⟨b, rest, rfl, hl, hh, h⟩
    exact .more (next_eq_more_iff.mpr ⟨hl, hh, by simp, rfl⟩) h

theorem spells_none_iff : Spells none octets c ↔
    (∃ b, octets = [b] ∧ first b = .char c) ∨
      ∃ b p rest, octets = b :: rest ∧ first b = .more p ∧ Spells (some p) rest c := by
  constructor
  · intro h
    cases h with
    | last read => exact .inl ⟨_, rfl, read⟩
    | more read rest => exact .inr ⟨_, _, _, rfl, read, rest⟩
  · rintro (⟨b, rfl, read⟩ | ⟨b, p, rest, rfl, read, h⟩)
    · exact .last read
    · exact .more read h

theorem toNat_ofNat_of_valid {n : Nat} (h : n.isValidChar) : (Char.ofNat n).toNat = n := by
  rw [Char.ofNat, dif_pos h]
  rfl

/-- A bound on an octet that depends on the one before it. -/
theorem le_ite_iff {n m k : Nat} {P : Prop} [Decidable P] :
    n ≤ (if P then m else k) ↔ (P → n ≤ m) ∧ (¬P → n ≤ k) := by
  split_ifs with h <;> simp [h]

theorem ite_le_iff {n m k : Nat} {P : Prop} [Decidable P] :
    (if P then m else k) ≤ n ↔ (P → m ≤ n) ∧ (¬P → k ≤ n) := by
  split_ifs with h <;> simp [h]

theorem eq_encodeChar_of_spells (h : Spells none octets c) : octets = String.utf8EncodeChar c := by
  rcases spells_none_iff.mp h with ⟨b, rfl, read⟩ | ⟨b, p, rest, rfl, read, h⟩
  · obtain ⟨hb, rfl⟩ := first_eq_char_iff.mp read
    have hv : (Char.ofNat b.toNat).toNat = b.toNat := toNat_ofNat_of_valid (.inl (by omega))
    rw [String.utf8EncodeChar]
    simp only [Char.toNat_val, hv]
    rw [if_pos (by omega), UInt8.ofNat_toNat]
  rcases first_eq_more_iff.mp read with ⟨hl, hh, rfl⟩ | ⟨hl, hh, rfl⟩ | ⟨hl, hh, rfl⟩
  · obtain ⟨x, rfl, hx, hx', rfl⟩ := spells_owed_one_iff.mp h
    simp only [UInt8.le_iff_toNat_le, UInt8.reduceToNat] at hx hx'
    generalize hn : b.toNat % 32 * 64 + x.toNat % 64 = n
    rw [String.utf8EncodeChar]
    simp only [Char.toNat_val, toNat_ofNat_of_valid (n := n) (.inl (by omega))]
    rw [if_neg (by omega), if_pos (by omega)]
    simp only [List.cons.injEq, ← UInt8.toNat_inj, UInt8.toNat_ofNat', and_true]
    omega
  · obtain ⟨x, rest, rfl, hx, hx', h⟩ := spells_owed_succ_iff.mp h
    obtain ⟨y, rfl, hy, hy', rfl⟩ := spells_owed_one_iff.mp h
    simp only [UInt8.le_iff_toNat_le, UInt8.reduceToNat, apply_ite UInt8.toNat, ← UInt8.toNat_inj,
      le_ite_iff, ite_le_iff] at hx hx' hy hy'
    generalize hn : (b.toNat % 16 * 64 + x.toNat % 64) * 64 + y.toNat % 64 = n
    have hv : n.isValidChar := by
      unfold Nat.isValidChar
      omega
    rw [String.utf8EncodeChar]
    simp only [Char.toNat_val, toNat_ofNat_of_valid hv]
    rw [if_neg (by omega), if_neg (by omega), if_pos (by omega)]
    simp only [List.cons.injEq, ← UInt8.toNat_inj, UInt8.toNat_ofNat', and_true]
    omega
  · obtain ⟨x, rest, rfl, hx, hx', h⟩ := spells_owed_succ_iff.mp h
    obtain ⟨y, rest, rfl, hy, hy', h⟩ := spells_owed_succ_iff.mp h
    obtain ⟨z, rfl, hz, hz', rfl⟩ := spells_owed_one_iff.mp h
    simp only [UInt8.le_iff_toNat_le, UInt8.reduceToNat, apply_ite UInt8.toNat, ← UInt8.toNat_inj,
      le_ite_iff, ite_le_iff] at hx hx' hy hy' hz hz'
    generalize hn : ((b.toNat % 8 * 64 + x.toNat % 64) * 64 + y.toNat % 64) * 64 + z.toNat % 64 = n
    have hv : n.isValidChar := by
      unfold Nat.isValidChar
      omega
    rw [String.utf8EncodeChar]
    simp only [Char.toNat_val, toNat_ofNat_of_valid hv]
    rw [if_neg (by omega), if_neg (by omega), if_neg (by omega)]
    simp only [List.cons.injEq, ← UInt8.toNat_inj, UInt8.toNat_ofNat', and_true]
    omega

theorem eq_ofNat {n : Nat} (h : n = c.toNat) : c = Char.ofNat n := by
  rw [h, Char.ofNat_toNat]

theorem spells_encodeChar (c : Char) : Spells none (String.utf8EncodeChar c) c := by
  have hv : c.toNat.isValidChar := c.valid
  unfold Nat.isValidChar at hv
  rw [spells_none_iff, String.utf8EncodeChar]
  simp only [Char.toNat_val]
  split_ifs with h1 h2 h3
  · refine .inl ⟨_, rfl, first_eq_char_iff.mpr ⟨?_, eq_ofNat ?_⟩⟩
    all_goals
      rw [UInt8.toNat_ofNat']
      omega
  · refine .inr ⟨_, _, _, rfl, first_eq_more_iff.mpr (.inl ⟨?_, ?_, rfl⟩),
      spells_owed_one_iff.mpr ⟨_, rfl, ?_, ?_, eq_ofNat ?_⟩⟩
    all_goals
      simp only [UInt8.le_iff_toNat_le, UInt8.reduceToNat, UInt8.toNat_ofNat']
      omega
  · refine .inr ⟨_, _, _, rfl, first_eq_more_iff.mpr (.inr (.inl ⟨?_, ?_, rfl⟩)),
      spells_owed_succ_iff.mpr ⟨_, _, rfl, ?_, ?_,
        spells_owed_one_iff.mpr ⟨_, rfl, ?_, ?_, eq_ofNat ?_⟩⟩⟩
    all_goals
      simp only [UInt8.le_iff_toNat_le, UInt8.reduceToNat, UInt8.toNat_ofNat',
        apply_ite UInt8.toNat, ← UInt8.toNat_inj, le_ite_iff, ite_le_iff]
      omega
  · refine .inr ⟨_, _, _, rfl, first_eq_more_iff.mpr (.inr (.inr ⟨?_, ?_, rfl⟩)),
      spells_owed_succ_iff.mpr ⟨_, _, rfl, ?_, ?_, spells_owed_succ_iff.mpr ⟨_, _, rfl, ?_, ?_,
        spells_owed_one_iff.mpr ⟨_, rfl, ?_, ?_, eq_ofNat ?_⟩⟩⟩⟩
    all_goals
      simp only [UInt8.le_iff_toNat_le, UInt8.reduceToNat, UInt8.toNat_ofNat',
        apply_ite UInt8.toNat, ← UInt8.toNat_inj, le_ite_iff, ite_le_iff]
      omega

/-! ## Octets of characters -/

theorem encodeChar_of_lt (h : c.toNat < 0x80) :
    String.utf8EncodeChar c = [UInt8.ofNat c.toNat] := by
  rw [String.utf8EncodeChar]
  simp only [Char.toNat_val]
  rw [if_pos (by omega)]

/-- The octets of a character beyond the first 128 are beyond them too. -/
theorem le_of_mem_encodeChar (h : 0x80 ≤ c.toNat) (hb : b ∈ String.utf8EncodeChar c) :
    0x80 ≤ b.toNat := by
  have hv : c.toNat.isValidChar := c.valid
  unfold Nat.isValidChar at hv
  rw [String.utf8EncodeChar] at hb
  simp only [Char.toNat_val] at hb
  rw [if_neg (by omega)] at hb
  split_ifs at hb <;> simp only [List.mem_cons, List.not_mem_nil, or_false] at hb
  all_goals
    rcases hb with rfl | rfl | rfl | rfl <;> simp only [UInt8.toNat_ofNat'] <;> omega

/-! ## Texts -/

theorem decodeFrom_of_spells (h : Spells begun octets c) (done : List Char) :
    decodeFrom begun done (octets ++ rest) = decodeFrom none (c :: done) rest := by
  induction h with
  | last read => simp only [List.singleton_append, decodeFrom, read]
  | more read _ ih => simp only [List.cons_append, decodeFrom, read, ih]

theorem decodeLossyFrom_of_spells (h : Spells begun octets c) (done : List Char) :
    decodeLossyFrom begun done (octets ++ rest) = decodeLossyFrom none (c :: done) rest := by
  induction h with
  | @last begun b c read => cases begun <;> simp only [List.singleton_append, decodeLossyFrom, read]
  | @more begun b p octets c read _ ih =>
    cases begun <;> simp only [List.cons_append, decodeLossyFrom, read, ih]

@[simp] theorem encode_nil : encode [] = [] := rfl

@[simp] theorem encode_cons (c : Char) (text : List Char) :
    encode (c :: text) = String.utf8EncodeChar c ++ encode text := rfl

@[simp] theorem encode_append (text more : List Char) :
    encode (text ++ more) = encode text ++ encode more := List.flatMap_append

/-- An octet below 128 stands for its character wherever it stands. -/
theorem mem_encode_iff {text : List Char} (h : c.toNat < 0x80) :
    UInt8.ofNat c.toNat ∈ encode text ↔ c ∈ text := by
  rw [encode, List.mem_flatMap]
  constructor
  · rintro ⟨d, hd, hb⟩
    by_cases hlt : d.toNat < 0x80
    · rw [encodeChar_of_lt hlt, List.mem_singleton, ← UInt8.toNat_inj, UInt8.toNat_ofNat',
        UInt8.toNat_ofNat'] at hb
      have hcd : c = d := Char.toNat_inj.mp (by omega)
      rwa [hcd]
    · have hle := le_of_mem_encodeChar (Nat.le_of_not_lt hlt) hb
      rw [UInt8.toNat_ofNat'] at hle
      omega
  · intro hc
    exact ⟨c, hc, by rw [encodeChar_of_lt h]; exact List.mem_singleton_self _⟩

theorem decodeFrom_encode (done text : List Char) :
    decodeFrom none done (encode text) = some (done.reverse ++ text) := by
  induction text generalizing done with
  | nil => simp [decodeFrom]
  | cons c text ih =>
    rw [encode_cons, decodeFrom_of_spells (spells_encodeChar c), ih]
    simp

theorem decodeLossyFrom_encode (done text : List Char) :
    decodeLossyFrom none done (encode text) = done.reverse ++ text := by
  induction text generalizing done with
  | nil => simp [decodeLossyFrom]
  | cons c text ih =>
    rw [encode_cons, decodeLossyFrom_of_spells (spells_encodeChar c), ih]
    simp

/-- Encoded text has nothing to be replaced. -/
theorem decodeLossy_encode (text : List Char) : decodeLossy (encode text) = text :=
  decodeLossyFrom_encode [] text

inductive Tells : Option Partial → List UInt8 → List Char → Prop
  | nil : Tells none [] []
  | cons {begun : Option Partial} {octets rest : List UInt8} {c : Char} {text : List Char}
      (char : Spells begun octets c) (more : Tells none rest text) :
      Tells begun (octets ++ rest) (c :: text)

theorem tells_of_decodeFrom {done text : List Char} (h : decodeFrom begun done octets = some text) :
    ∃ more, text = done.reverse ++ more ∧ Tells begun octets more := by
  induction octets generalizing begun done with
  | nil =>
    cases begun with
    | none =>
      simp only [decodeFrom, Option.some.injEq] at h
      exact ⟨[], by simp [h], .nil⟩
    | some p => simp [decodeFrom] at h
  | cons b octets ih =>
    simp only [decodeFrom] at h
    cases hs : step begun b with
    | refused => simp [hs] at h
    | char c =>
      rw [hs] at h
      obtain ⟨more, rfl, hm⟩ := ih h
      exact ⟨c :: more, by simp, .cons (.last hs) hm⟩
    | more p =>
      rw [hs] at h
      obtain ⟨more, rfl, hm⟩ := ih h
      cases hm with
      | cons char more => exact ⟨_, rfl, .cons (.more hs char) more⟩

theorem eq_encode_of_tells {text : List Char} (h : Tells none octets text) :
    octets = encode text := by
  generalize hb : (none : Option Partial) = begun at h
  induction h with
  | nil => rfl
  | cons char more ih =>
    subst hb
    rw [encode_cons, eq_encodeChar_of_spells char, ih rfl]

/-- Octets are decoded to a text exactly if they are what it is encoded by. -/
theorem decode?_eq_some_iff {text : List Char} :
    decode? octets = some text ↔ octets = encode text := by
  constructor
  · intro h
    obtain ⟨more, rfl, hm⟩ := tells_of_decodeFrom h
    exact eq_encode_of_tells hm
  · rintro rfl
    exact decodeFrom_encode [] text

end ProofPanel.Utf8

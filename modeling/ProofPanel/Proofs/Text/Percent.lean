import ProofPanel.Proofs.Text.Utf8
import ProofPanel.Text.Percent

/-!
# Decoding what is percent-encoded

Decoding undoes every way to write a text in which no percent sign stands for itself. The encoders
write texts in such a way, and use few characters.
-/
namespace ProofPanel.Percent

/-- Octets written one by one, as they are or escaped with digits of any case. A percent sign is
always escaped. -/
inductive Writes : List UInt8 → List UInt8 → Prop
  | nil : Writes [] []
  | kept {b : UInt8} {coded octets : List UInt8} (plain : b ≠ 0x25) (rest : Writes coded octets) :
      Writes (b :: coded) (b :: octets)
  | escaped {high low h l : UInt8} {coded octets : List UInt8} (high_eq : hexValue? high = some h)
      (low_eq : hexValue? low = some l) (rest : Writes coded octets) :
      Writes (0x25 :: high :: low :: coded) ((h * 16 + l) :: octets)

theorem Writes.append {coded octets more rest : List UInt8} (h : Writes coded octets)
    (h' : Writes more rest) : Writes (coded ++ more) (octets ++ rest) := by
  induction h with
  | nil => exact h'
  | kept plain _ ih => exact .kept plain ih
  | escaped high_eq low_eq _ ih => exact .escaped high_eq low_eq ih

theorem decodeOctets_cons {b : UInt8} (h : b ≠ 0x25) (rest : List UInt8) :
    decodeOctets (b :: rest) = b :: decodeOctets rest := by
  have hb : (b == 0x25) = false := by simpa using h
  match rest with
  | [] => rfl
  | [_] => rfl
  | high :: low :: rest => simp only [decodeOctets, hb]

theorem decodeOctets_of_writes {coded octets : List UInt8} (h : Writes coded octets) :
    decodeOctets coded = octets := by
  induction h with
  | nil => rfl
  | kept plain _ ih => rw [decodeOctets_cons plain, ih]
  | escaped high_eq low_eq _ ih => simp [decodeOctets, high_eq, low_eq, ih]

/-! ## Characters -/

def IsDigitOf (n : Nat) (c : Char) : Prop := c = n.digitChar ∨ c = n.digitChar.toUpper

inductive Escapes : List Char → List UInt8 → Prop
  | nil : Escapes [] []
  | cons {high low : Char} {b : UInt8} {coded : List Char} {octets : List UInt8}
      (high_digit : IsDigitOf (b.toNat / 16) high) (low_digit : IsDigitOf (b.toNat % 16) low)
      (rest : Escapes coded octets) : Escapes ('%' :: high :: low :: coded) (b :: octets)

/-- A text written character by character, each as it is or with all its octets escaped. A percent
sign is always escaped. -/
inductive Encodes : List Char → List Char → Prop
  | nil : Encodes [] []
  | kept {c : Char} {coded text : List Char} (plain : c ≠ '%') (rest : Encodes coded text) :
      Encodes (c :: coded) (c :: text)
  | escaped {c : Char} {escapes coded text : List Char}
      (octets : Escapes escapes (String.utf8EncodeChar c)) (rest : Encodes coded text) :
      Encodes (escapes ++ coded) (c :: text)

def ReadsDigit (n : Nat) (c : Char) : Prop :=
  Utf8.encode [c] = [UInt8.ofNat c.toNat] ∧
    hexValue? (UInt8.ofNat c.toNat) = some (UInt8.ofNat n)

instance (n : Nat) : DecidablePred (ReadsDigit n) := fun _ => inferInstanceAs (Decidable (_ ∧ _))

theorem readsDigit_digitChar :
    ∀ n < 16, ReadsDigit n n.digitChar ∧ ReadsDigit n n.digitChar.toUpper := by
  decide

theorem IsDigitOf.reads {n : Nat} {c : Char} (h : IsDigitOf n c) (hn : n < 16) :
    ReadsDigit n c := by
  obtain ⟨hlower, hupper⟩ := readsDigit_digitChar n hn
  rcases h with rfl | rfl
  · exact hlower
  · exact hupper

theorem writes_of_escapes {coded : List Char} {octets : List UInt8} (h : Escapes coded octets) :
    Writes (Utf8.encode coded) octets := by
  induction h with
  | nil => exact .nil
  | @cons high low b coded octets high_digit low_digit _ ih =>
    have hlt := b.toNat_lt
    obtain ⟨hhigh, hh⟩ := high_digit.reads (by omega)
    obtain ⟨hlow, hl⟩ := low_digit.reads (by omega)
    have hb : UInt8.ofNat (b.toNat / 16) * 16 + UInt8.ofNat (b.toNat % 16) = b := by
      rw [← UInt8.toNat_inj]
      simp
      omega
    have hsplit : Utf8.encode ('%' :: high :: low :: coded) =
        0x25 :: (Utf8.encode [high] ++ (Utf8.encode [low] ++ Utf8.encode coded)) := by
      rw [← Utf8.encode_append, ← Utf8.encode_append]
      rfl
    have hw := Writes.escaped hh hl ih
    rw [hb] at hw
    rw [hsplit, hhigh, hlow]
    exact hw

theorem writes_plain {octets : List UInt8} (h : 0x25 ∉ octets) : Writes octets octets := by
  induction octets with
  | nil => exact .nil
  | cons b octets ih =>
    rw [List.mem_cons, not_or] at h
    exact .kept (Ne.symm h.1) (ih h.2)

theorem writes_of_encodes {coded text : List Char} (h : Encodes coded text) :
    Writes (Utf8.encode coded) (Utf8.encode text) := by
  induction h with
  | nil => exact .nil
  | @kept c coded text plain _ ih =>
    rw [Utf8.encode_cons, Utf8.encode_cons]
    refine (writes_plain fun hb => plain ?_).append ih
    have hc : (0x25 : UInt8) ∈ Utf8.encode [c] := by simpa using hb
    have hpercent : '%' ∈ [c] := (Utf8.mem_encode_iff (c := '%') (by decide)).mp hc
    exact (List.mem_singleton.mp hpercent).symm
  | escaped octets _ ih =>
    rw [Utf8.encode_append, Utf8.encode_cons]
    exact (writes_of_escapes octets).append ih

theorem decode_of_encodes {coded text : String} (h : Encodes coded.toList text.toList) :
    decode coded = text := by
  rw [decode, decodeOctets_of_writes (writes_of_encodes h), Utf8.decodeLossy_encode,
    String.ofList_toList]

/-! ## The encoders -/

def Keeps (keep : UInt8 → Bool) : Prop := ∀ b, keep b = true → b.toNat < 0x80 ∧ b ≠ 0x25

theorem isUnreserved_iff {b : UInt8} : isUnreserved b = true ↔
    (0x41 ≤ b.toNat ∧ b.toNat ≤ 0x5A) ∨ (0x61 ≤ b.toNat ∧ b.toNat ≤ 0x7A) ∨
      (0x30 ≤ b.toNat ∧ b.toNat ≤ 0x39) ∨ b.toNat = 0x2D ∨ b.toNat = 0x2E ∨ b.toNat = 0x5F ∨
      b.toNat = 0x7E := by
  simp only [isUnreserved, Bool.or_eq_true, Bool.and_eq_true, decide_eq_true_eq,
    UInt8.le_iff_toNat_le, ← UInt8.toNat_inj, UInt8.reduceToNat, or_assoc]

theorem keeps_unreserved : Keeps isUnreserved := by
  intro b h
  rw [isUnreserved_iff] at h
  simp only [ne_eq, ← UInt8.toNat_inj, UInt8.reduceToNat]
  omega

theorem keeps_path : Keeps fun b => isUnreserved b || isSlash b := by
  intro b h
  rw [Bool.or_eq_true] at h
  rcases h with h | h
  · exact keeps_unreserved b h
  · simp only [isSlash, decide_eq_true_eq] at h
    subst h
    decide

theorem hexDigit_eq : ∀ n < 16, hexDigit n = n.digitChar.toUpper := by decide

theorem escapes_octet (b : UInt8) {coded : List Char} {octets : List UInt8}
    (h : Escapes coded octets) :
    Escapes ('%' :: hexDigit (b.toNat / 16) :: hexDigit (b.toNat % 16) :: coded) (b :: octets) :=
  .cons (.inr (hexDigit_eq _ (by have := b.toNat_lt; omega)))
    (.inr (hexDigit_eq _ (by omega))) h

/-- Octets that are no characters of their own are all escaped. -/
theorem escapes_octets {keep : UInt8 → Bool} {octets : List UInt8}
    (h : ∀ b ∈ octets, keep b = false) :
    Escapes (octets.flatMap (encodeOctet keep)) octets := by
  induction octets with
  | nil => exact .nil
  | cons b octets ih =>
    rw [List.flatMap_cons, encodeOctet, if_neg (by simp [h b List.mem_cons_self])]
    exact escapes_octet b (ih fun x hx => h x (List.mem_cons_of_mem b hx))

/-- What an encoder makes of a character is one of its encodings. -/
theorem encodes_char {keep : UInt8 → Bool} (hk : Keeps keep) (c : Char) {coded text : List Char}
    (h : Encodes coded text) :
    Encodes ((String.utf8EncodeChar c).flatMap (encodeOctet keep) ++ coded) (c :: text) := by
  by_cases hc : c.toNat < 0x80
  · rw [Utf8.encodeChar_of_lt hc, List.flatMap_singleton, encodeOctet]
    have hn : (UInt8.ofNat c.toNat).toNat = c.toNat := by
      rw [UInt8.toNat_ofNat']
      omega
    split_ifs with hkeep
    · rw [hn, Char.ofNat_toNat]
      refine .kept ?_ h
      rintro rfl
      exact (hk _ hkeep).2 rfl
    · refine .escaped ?_ h
      rw [Utf8.encodeChar_of_lt hc]
      exact escapes_octet _ .nil
  · -- No octet of a longer character is one that may be kept.
    refine .escaped (escapes_octets fun b hb => ?_) h
    have hlarge := Utf8.le_of_mem_encodeChar (Nat.le_of_not_lt hc) hb
    rw [Bool.eq_false_iff]
    intro hkeep
    have hsmall := (hk b hkeep).1
    omega

theorem encodes_encodeWith {keep : UInt8 → Bool} (hk : Keeps keep) (text : String) :
    Encodes (encodeWith keep text).toList text.toList := by
  rw [encodeWith, String.toList_ofList]
  induction text.toList with
  | nil => exact .nil
  | cons c text ih =>
    rw [Utf8.encode_cons, List.flatMap_append]
    exact encodes_char hk c ih

theorem decode_encodeWith {keep : UInt8 → Bool} (hk : Keeps keep) (text : String) :
    decode (encodeWith keep text) = text := decode_of_encodes (encodes_encodeWith hk text)

theorem decode_encodePath (path : String) : decode (encodePath path) = path :=
  decode_encodeWith keeps_path path

theorem decode_encodeComponent (text : String) : decode (encodeComponent text) = text :=
  decode_encodeWith keeps_unreserved text

/-! ## The characters of encoded text -/

def Unreserved (c : Char) : Prop := c.isAlphanum ∨ c ∈ ['-', '.', '_', '~']

instance : DecidablePred Unreserved := fun c => inferInstanceAs (Decidable (c.isAlphanum ∨ _))

def upperDigits : List Char := "0123456789ABCDEF".toList

/-- Characters of one kind, and escapes with upper-case digits between them. -/
inductive Coded (plain : Char → Prop) : List Char → Prop
  | nil : Coded plain []
  | kept {c : Char} {rest : List Char} (char : plain c) (more : Coded plain rest) :
      Coded plain (c :: rest)
  | escaped {high low : Char} {rest : List Char} (high_mem : high ∈ upperDigits)
      (low_mem : low ∈ upperDigits) (more : Coded plain rest) :
      Coded plain ('%' :: high :: low :: rest)

theorem unreserved_octet {b : UInt8} (h : isUnreserved b = true) :
    Unreserved (Char.ofNat b.toNat) := by
  have hall : ∀ n < 256, isUnreserved (UInt8.ofNat n) = true → Unreserved (Char.ofNat n) := by
    decide +kernel
  exact hall b.toNat b.toNat_lt (by rwa [UInt8.ofNat_toNat])

theorem hexDigit_mem : ∀ n < 16, hexDigit n ∈ upperDigits := by decide

theorem coded_encodeWith {keep : UInt8 → Bool} {plain : Char → Prop}
    (h : ∀ b, keep b = true → plain (Char.ofNat b.toNat)) (text : String) :
    Coded plain (encodeWith keep text).toList := by
  rw [encodeWith, String.toList_ofList]
  induction Utf8.encode text.toList with
  | nil => exact .nil
  | cons b octets ih =>
    rw [List.flatMap_cons, encodeOctet]
    split_ifs with hb
    · exact .kept (h b hb) ih
    · have hlt := b.toNat_lt
      exact .escaped (hexDigit_mem _ (by omega)) (hexDigit_mem _ (by omega)) ih

theorem coded_encodeComponent (text : String) : Coded Unreserved (encodeComponent text).toList :=
  coded_encodeWith (fun _ => unreserved_octet) text

theorem coded_encodePath (path : String) :
    Coded (fun c => Unreserved c ∨ c = '/') (encodePath path).toList := by
  refine coded_encodeWith (fun b hb => ?_) path
  rw [Bool.or_eq_true, isSlash, decide_eq_true_eq] at hb
  rcases hb with hb | rfl
  · exact .inl (unreserved_octet hb)
  · exact .inr rfl

theorem Coded.mem {plain : Char → Prop} {coded : List Char} (h : Coded plain coded) {c : Char}
    (hc : c ∈ coded) : c = '%' ∨ plain c ∨ c ∈ upperDigits := by
  induction h with
  | nil => cases hc
  | kept char _ ih =>
    rcases List.mem_cons.mp hc with rfl | hc
    · exact .inr (.inl char)
    · exact ih hc
  | escaped high_mem low_mem _ ih =>
    simp only [List.mem_cons] at hc
    rcases hc with rfl | rfl | rfl | hc
    · exact .inl rfl
    · exact .inr (.inr high_mem)
    · exact .inr (.inr low_mem)
    · exact ih hc

/-- A component is encoded in percent signs and unreserved characters. -/
theorem mem_encodeComponent {text : String} {c : Char} (h : c ∈ (encodeComponent text).toList) :
    c = '%' ∨ Unreserved c := by
  have hdigits : upperDigits.all (fun d => Unreserved d) = true := by decide
  rcases (coded_encodeComponent text).mem h with hc | hc | hc
  · exact .inl hc
  · exact .inr hc
  · exact .inr (of_decide_eq_true (List.all_eq_true.mp hdigits c hc))

theorem encodeComponent_ne_nil {text : String} (h : text.toList ≠ []) :
    (encodeComponent text).toList ≠ [] := by
  intro hnil
  have hdecode := decode_encodeComponent text
  rw [String.toList_eq_nil_iff] at hnil
  rw [hnil] at hdecode
  exact h (hdecode ▸ rfl)

/-- Decoding undoes every encoding of a text, and the encoders write such encodings, in few
characters. -/
theorem decode_undoes :
    (∀ coded text : String, Encodes coded.toList text.toList → decode coded = text) ∧
    ∀ text : String,
      (Encodes (encodeComponent text).toList text.toList ∧ decode (encodeComponent text) = text ∧
        Coded Unreserved (encodeComponent text).toList) ∧
      (Encodes (encodePath text).toList text.toList ∧ decode (encodePath text) = text ∧
        Coded (fun c => Unreserved c ∨ c = '/') (encodePath text).toList) := by
  refine ⟨fun _ _ => decode_of_encodes, fun text => ⟨?_, ?_⟩⟩
  · exact ⟨encodes_encodeWith keeps_unreserved text, decode_encodeComponent text,
      coded_encodeComponent text⟩
  · exact ⟨encodes_encodeWith keeps_path text, decode_encodePath text, coded_encodePath text⟩

/-- A character escaped in digits of both cases, the same one as it is, and a percent sign at the
end. -/
theorem decode_undoes_mixed :
    Encodes "%c3%A9é%25".toList "éé%".toList ∧ decode "%c3%A9é%25" = "éé%" := by
  have hletter : Escapes "%c3%A9".toList (String.utf8EncodeChar 'é') :=
    .cons (.inl (by decide)) (.inl (by decide))
      (.cons (.inr (by decide)) (.inl (by decide)) .nil)
  have hpercent : Escapes "%25".toList (String.utf8EncodeChar '%') :=
    .cons (.inl (by decide)) (.inl (by decide)) .nil
  have h : Encodes "%c3%A9é%25".toList "éé%".toList :=
    .escaped hletter (.kept (by decide) (.escaped hpercent .nil))
  exact ⟨h, decode_undoes.1 _ _ h⟩

end ProofPanel.Percent

import ProofPanel.FileUri
import ProofPanel.Proofs.Text.Percent

/-!
# File names in URIs

A file name comes back from its URI in a normal form: with slashes only, and absolute or behind a
drive letter. Names have the same URI exactly if they have the same normal form.
-/
namespace ProofPanel.FileUri

/-- The normal form of a file name: slashes for backslashes, a slash in front, and then none in
front of a drive letter. -/
def normal (fileName : String) : String := .ofList (dropDriveSlash (slashed fileName.toList))

theorem slashed_eq_cons (fileName : List Char) : ∃ rest, slashed fileName = '/' :: rest := by
  unfold slashed
  split
  · exact ⟨_, rfl⟩
  · exact ⟨_, rfl⟩

/-! ## Normal forms -/

def forward (name : List Char) : List Char := name.map fun c => if c = '\\' then '/' else c

def IsDrive (path : List Char) : Prop :=
  ∃ letter rest, letter.isAlpha ∧ path = letter :: ':' :: rest

inductive Normalizes (name : List Char) : List Char → Prop
  | drive {path : List Char} (path_drive : IsDrive path)
      (eq : forward name = path ∨ forward name = '/' :: path) : Normalizes name path
  | absolute {path : List Char} (eq : forward name = '/' :: path) (no_drive : ¬ IsDrive path) :
      Normalizes name ('/' :: path)
  | relative (no_slash : (forward name).head? ≠ some '/') (no_drive : ¬ IsDrive (forward name)) :
      Normalizes name ('/' :: forward name)

def IsNormal (name : List Char) : Prop :=
  '\\' ∉ name ∧ (IsDrive name ∨ ∃ path, name = '/' :: path ∧ ¬ IsDrive path)

variable {name path : List Char}

theorem IsDrive.head? (h : IsDrive path) : path.head? ≠ some '/' := by
  obtain ⟨letter, rest, hletter, rfl⟩ := h
  rw [List.head?_cons, Ne, Option.some_inj]
  rintro rfl
  exact absurd hletter (by decide)

theorem startsWithDrive_slash : startsWithDrive ('/' :: path) = true ↔ IsDrive path := by
  constructor
  · intro h
    rcases path with _ | ⟨letter, _ | ⟨colon, rest⟩⟩
    · cases h
    · cases h
    · by_cases hc : colon = ':'
      · subst hc
        exact ⟨letter, rest, h, rfl⟩
      · simp [startsWithDrive, hc] at h
  · rintro ⟨letter, rest, hletter, rfl⟩
    exact hletter

theorem dropDriveSlash_drive (h : IsDrive path) : dropDriveSlash ('/' :: path) = path := by
  rw [dropDriveSlash, if_pos (startsWithDrive_slash.mpr h), List.drop_one, List.tail_cons]

theorem dropDriveSlash_other (h : ¬ IsDrive path) : dropDriveSlash ('/' :: path) = '/' :: path := by
  rw [dropDriveSlash, if_neg (mt startsWithDrive_slash.mp h)]

theorem slashed_absolute (h : forward name = '/' :: path) : slashed name = '/' :: path := by
  rw [forward] at h
  rw [slashed, h]
  rfl

theorem slashed_relative (h : (forward name).head? ≠ some '/') :
    slashed name = '/' :: forward name := by
  rw [slashed]
  split
  · next rest hrest =>
    rw [forward, hrest] at h
    exact absurd rfl h
  · rfl

theorem forward_cases (name : List Char) :
    (∃ path, forward name = '/' :: path) ∨ (forward name).head? ≠ some '/' := by
  rcases h : forward name with _ | ⟨c, path⟩
  · exact .inr (by simp)
  · by_cases hc : c = '/'
    · exact .inl ⟨path, by rw [hc]⟩
    · exact .inr (by simpa using hc)

theorem normalizes_iff : Normalizes name path ↔ path = dropDriveSlash (slashed name) := by
  constructor
  · intro h
    cases h with
    | drive path_drive eq =>
      rcases eq with rfl | eq
      · rw [slashed_relative path_drive.head?, dropDriveSlash_drive path_drive]
      · rw [slashed_absolute eq, dropDriveSlash_drive path_drive]
    | absolute eq no_drive => rw [slashed_absolute eq, dropDriveSlash_other no_drive]
    | relative no_slash no_drive =>
      rw [slashed_relative no_slash, dropDriveSlash_other no_drive]
  · rintro rfl
    rcases forward_cases name with ⟨path, h⟩ | h
    · rw [slashed_absolute h]
      by_cases hd : IsDrive path
      · rw [dropDriveSlash_drive hd]
        exact .drive hd (.inr h)
      · rw [dropDriveSlash_other hd]
        exact .absolute h hd
    · rw [slashed_relative h]
      by_cases hd : IsDrive (forward name)
      · rw [dropDriveSlash_drive hd]
        exact .drive hd (.inl rfl)
      · rw [dropDriveSlash_other hd]
        exact .relative h hd

theorem notMem_forward (name : List Char) : '\\' ∉ forward name := by
  rw [forward, List.mem_map]
  rintro ⟨c, -, hc⟩
  split_ifs at hc with h
  · cases hc
  · exact h hc

theorem forward_eq_self (h : '\\' ∉ name) : forward name = name := by
  have hkept : ∀ c ∈ name, (if c = '\\' then '/' else c) = c := by
    intro c hc
    rw [if_neg]
    rintro rfl
    exact h hc
  rw [forward, List.map_congr_left hkept, List.map_id']

theorem isNormal_of_normalizes (h : Normalizes name path) : IsNormal path := by
  have hplain := notMem_forward name
  cases h with
  | drive path_drive eq =>
    rcases eq with rfl | eq
    · exact ⟨hplain, .inl path_drive⟩
    · rw [eq] at hplain
      exact ⟨fun h => hplain (List.mem_cons_of_mem _ h), .inl path_drive⟩
  | absolute eq no_drive =>
    rw [eq] at hplain
    exact ⟨hplain, .inr ⟨_, rfl, no_drive⟩⟩
  | relative no_slash no_drive =>
    refine ⟨fun h => ?_, .inr ⟨_, rfl, no_drive⟩⟩
    rcases List.mem_cons.mp h with h | h
    · cases h
    · exact hplain h

theorem normalizes_self (h : IsNormal name) : Normalizes name name := by
  obtain ⟨hplain, hd | ⟨path, rfl, hd⟩⟩ := h
  · exact .drive hd (.inl (forward_eq_self hplain))
  · exact .absolute (forward_eq_self hplain) hd

/-- A name and its normal form have the same path in a URI. -/
theorem slashed_of_normalizes (h : Normalizes name path) : slashed path = slashed name := by
  -- Nothing is left to replace in a normal form, so only its beginning decides.
  have hself : forward path = path := forward_eq_self (isNormal_of_normalizes h).1
  cases h with
  | drive path_drive eq =>
    have hrelative : slashed path = '/' :: path := by
      rw [slashed_relative (hself.symm ▸ path_drive.head?), hself]
    rcases eq with rfl | eq
    · rw [hrelative, slashed_relative path_drive.head?]
    · rw [hrelative, slashed_absolute eq]
  | absolute eq no_drive => rw [slashed_absolute hself, slashed_absolute eq]
  | relative no_slash no_drive => rw [slashed_absolute hself, slashed_relative no_slash]

theorem normalizes_normal (fileName : String) :
    Normalizes fileName.toList (normal fileName).toList := by
  rw [normalizes_iff, normal, String.toList_ofList]

theorem normal_eq_self_iff (fileName : String) :
    normal fileName = fileName ↔ IsNormal fileName.toList := by
  constructor
  · intro h
    have hn := isNormal_of_normalizes (normalizes_normal fileName)
    rwa [h] at hn
  · intro h
    rw [normal, ← normalizes_iff.mp (normalizes_self h), String.ofList_toList]

theorem ofFileName_normal (fileName : String) :
    ofFileName (normal fileName) = ofFileName fileName := by
  rw [ofFileName, slashed_of_normalizes (normalizes_normal fileName), ofFileName]

/-! ## URIs -/

theorem encodePath_slash (rest : List Char) :
    (Percent.encodePath (.ofList ('/' :: rest))).toList =
      '/' :: (Percent.encodePath (.ofList rest)).toList := by
  have hs : String.utf8EncodeChar '/' = [0x2F] := by decide
  have hk : Percent.encodeOctet (fun b => Percent.isUnreserved b || Percent.isSlash b) 0x2F =
      ['/'] := by decide
  simp only [Percent.encodePath, Percent.encodeWith, String.toList_ofList, Utf8.encode_cons, hs,
    List.singleton_append, List.flatMap_cons, hk]

theorem isPrefixOf?_append (text rest : List Char) : text.isPrefixOf? (text ++ rest) = some rest :=
  List.isPrefixOf?_eq_some_iff_append_eq.mpr rfl

/-- A file name comes back from its URI in normal form. -/
theorem toFileName?_ofFileName (fileName : String) :
    toFileName? (ofFileName fileName) = some (normal fileName) := by
  obtain ⟨rest, hrest⟩ := slashed_eq_cons fileName.toList
  -- The path is encoded with its first slash kept, so all of it is found behind the scheme.
  have hpath : (Percent.encodePath (.ofList ('/' :: rest))).toList.dropWhile (· != '/') =
      (Percent.encodePath (.ofList ('/' :: rest))).toList := by
    rw [encodePath_slash, List.dropWhile_cons_of_neg (by decide)]
  simp only [toFileName?, ofFileName, String.toList_ofList, isPrefixOf?_append, hrest, hpath]
  split
  · next hnil =>
    rw [encodePath_slash] at hnil
    cases hnil
  · rw [String.ofList_toList, Percent.decode_encodePath, String.toList_ofList, normal, hrest]

/-- A file name comes back from its URI in normal form, and no other. Normal forms stay as they are,
they have the URIs of the names they come from, and names have one URI if they have one normal
form. -/
theorem ofFileName_normalizes (fileName : String) :
    (∀ name, toFileName? (ofFileName fileName) = some name ↔
      Normalizes fileName.toList name.toList) ∧
    toFileName? (ofFileName fileName) = some (normal fileName) ∧
    normal (normal fileName) = normal fileName ∧
    ofFileName (normal fileName) = ofFileName fileName ∧
    (normal fileName = fileName ↔ IsNormal fileName.toList) ∧
    (toFileName? (ofFileName fileName) = some fileName ↔ IsNormal fileName.toList) ∧
    ∀ other, ofFileName fileName = ofFileName other ↔ normal fileName = normal other := by
  have hback := toFileName?_ofFileName fileName
  have hself := normal_eq_self_iff fileName
  refine ⟨fun name => ?_, hback, ?_, ofFileName_normal fileName, hself, ?_, fun other => ?_⟩
  · rw [hback, Option.some_inj, normalizes_iff, normal, String.ext_iff, String.toList_ofList,
      eq_comm]
  · exact (normal_eq_self_iff _).mpr (isNormal_of_normalizes (normalizes_normal fileName))
  · rw [hback, Option.some_inj, hself]
  · constructor
    · intro h
      have hother := toFileName?_ofFileName other
      rw [← h, hback] at hother
      exact Option.some_inj.mp hother
    · intro h
      rw [← ofFileName_normal fileName, h, ofFileName_normal]

/-- Backslashes, a drive letter and a relative name. -/
example : normal "C:\\a" = "C:/a" ∧ normal "/c:/a" = "c:/a" ∧ normal "a:b" = "a:b" ∧
    normal "ab:c" = "/ab:c" ∧ normal "" = "/" := by decide

end ProofPanel.FileUri

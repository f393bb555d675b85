import Mathlib.Data.String.Basic
import ProofPanel.Json.Decode

/-!
# The members a record looks at

A record is read by its own keys: members under any other key change nothing, wherever they stand
in the object. What is written under the keys of a record is what its fields find there.
-/
namespace ProofPanel.Json

variable {α β : Type}

/-! ## Members -/

@[simp] theorem Members.get?_insert (key k : String) (value : Json) (all : Members) :
    (all.insert k value).get? key = if k = key then some value else all.get? key := by
  induction all with
  | nil => rfl
  | cons first rest ih =>
    obtain ⟨k', value'⟩ := first
    by_cases hlt : k < k'
    · simp only [Members.insert, if_pos hlt, Members.get?]
    · by_cases hsame : k = k'
      · subst hsame
        simp only [Members.insert, if_neg hlt, if_true, Members.get?]
        split_ifs <;> rfl
      · simp only [Members.insert, if_neg hlt, if_neg hsame, Members.get?, ih]
        -- the two keys differ, so at most one of them is the key looked for
        by_cases hkey : k' = key
        · subst hkey
          rw [if_pos rfl, if_neg hsame, if_pos rfl]
        · rw [if_neg hkey, if_neg hkey]

/-- Of the added members the last under a key is found, and one that stood there before only where
none is added. -/
theorem Members.get?_extend (key : String) (all added : Members) :
    (all.extend added).get? key = (Members.get? key (Members.extend [] added)).or (all.get? key) := by
  induction added generalizing all with
  | nil => rfl
  | cons first rest ih =>
    have hstep (start : Members) : Members.extend start (first :: rest) =
        Members.extend (start.insert first.1 first.2) rest := rfl
    rw [hstep, hstep, ih, ih (Members.insert _ _ _), Members.get?_insert, Members.get?_insert]
    split_ifs <;> simp [Members.get?]

theorem Members.get?_extend_of_notMem {key : String} {added : Members}
    (h : ∀ member ∈ added, member.1 ≠ key) (all : Members) :
    (all.extend added).get? key = all.get? key := by
  induction added generalizing all with
  | nil => rfl
  | cons first rest ih =>
    have hrest : ∀ member ∈ rest, member.1 ≠ key :=
      fun member hm => h member (List.mem_cons_of_mem first hm)
    calc (all.extend (first :: rest)).get? key
        = (all.insert first.1 first.2).get? key := ih hrest _
      _ = all.get? key := by rw [get?_insert, if_neg (h first List.mem_cons_self)]

/-! What is found among written members: one equation for each kind of entry. -/

@[simp] theorem Members.get?_extend_nil (key : String) :
    Members.get? key (Members.extend [] []) = none := rfl

@[simp] theorem Members.get?_extend_cons (key k : String) (value : Json) (rest : Members) :
    Members.get? key (Members.extend [] ((k, value) :: rest)) =
      (Members.get? key (Members.extend [] rest)).or (if k = key then some value else none) :=
  get?_extend key [(k, value)] rest

@[simp] theorem Members.get?_extend_present (key : String) (first : Option (String × Json))
    (rest : List (Option (String × Json))) :
    Members.get? key (Members.extend [] ((first :: rest).filterMap fun entry => entry)) =
      (Members.get? key (Members.extend [] (rest.filterMap fun entry => entry))).or
        (first.bind fun member => if member.1 = key then some member.2 else none) := by
  cases first with
  | none => simp
  | some member => exact get?_extend key [member] (rest.filterMap fun entry => entry)

@[simp] theorem bind_optional (key k : String) (value : Option Json) :
    ((optional k value).bind fun member => if member.1 = key then some member.2 else none) =
      if k = key then value else none := by
  cases value <;> simp [optional]

/-! ## Fields of an object -/

@[simp] theorem pure_members (a : α) (fields : Fields) :
    (pure a : Take α) fields = some (a, fields) := rfl

@[simp] theorem bind_members (take : Take α) (next : α → Take β) (fields : Fields) :
    (take >>= next) fields = (take fields).bind fun found => next found.1 found.2 := rfl

@[simp] theorem map_members (f : α → β) (take : Take α) (fields : Fields) :
    (f <$> take) fields = (take fields).map fun found => (f found.1, found.2) := by
  rw [map_eq_pure_bind, bind_members]
  cases take fields <;> rfl

@[simp] theorem field_members (key : String) (decode : Json → Option α) (all : Members) :
    field key decode (.members all) = ((all.get? key).bind decode).map (·, .members all) := by
  cases h : all.get? key with
  | none => simp [field, h]
  | some value => cases hd : decode value <;> simp [field, h, hd]

@[simp] theorem fieldOr_members (key : String) (default : α) (decode : Json → Option α)
    (all : Members) :
    fieldOr key default decode (.members all) =
      (((all.get? key).map decode).getD (some default)).map (·, .members all) := by
  cases h : all.get? key with
  | none => simp [fieldOr, h]
  | some value => cases hd : decode value <;> simp [fieldOr, h, hd]

@[simp] theorem field?_members (key : String) (decode : Json → Option α) (all : Members) :
    field? key decode (.members all) =
      (((all.get? key).map (orNull decode)).getD (some none)).map (·, .members all) :=
  fieldOr_members key none (orNull decode) all

@[simp] theorem nullable_members (key : String) (decode : Json → Option α) (all : Members) :
    nullable key decode (.members all) =
      (((all.get? key).map (orNull decode)).getD (some none)).map (·, .members all) :=
  field?_members key decode all

/-! ## Written values -/

def Recovers (encode : α → Json) (decode : Json → Option α) : Prop :=
  ∀ a, encode a ≠ .null ∧ decode (encode a) = some a

@[simp] theorem nat?_ofNat (n : Nat) : nat? (ofNat n) = some n := rfl

@[simp] theorem word32?_ofNat (n : UInt32) : word32? (ofNat n.toNat) = some n := by
  have hn : n.toNat < UInt32.size := n.toNat_lt
  simp [word32?, ofNat, asNat?, hn]

@[simp] theorem asString?_str (s : String) : asString? (.str s) = some s := rfl

@[simp] theorem asBool?_bool (b : Bool) : asBool? (.bool b) = some b := rfl

namespace Recovers

variable {encode : α → Json} {decode : Json → Option α}

theorem nat : Recovers ofNat nat? := fun n => ⟨nofun, nat?_ofNat n⟩

theorem word32 : Recovers (fun n : UInt32 => ofNat n.toNat) word32? :=
  fun n => ⟨nofun, word32?_ofNat n⟩

theorem string : Recovers .str asString? := fun s => ⟨nofun, asString?_str s⟩

theorem bool : Recovers .bool asBool? := fun b => ⟨nofun, asBool?_bool b⟩

theorem orNull (h : Recovers encode decode) (a : α) :
    Json.orNull decode (encode a) = some (some a) := by
  obtain ⟨hnull, hread⟩ := h a
  cases hv : encode a with
  | null => exact absurd hv hnull
  | _ => simp only [Json.orNull, ← hv, hread, Option.map_some]

/-- A field that is left out where there is no value. -/
theorem getD_map (h : Recovers encode decode) (a : Option α) :
    (a.map (Json.orNull decode ∘ encode)).getD (some none) = some a := by
  cases a with
  | none => rfl
  | some a => exact h.orNull a

/-- A field that is null where there is no value. -/
theorem orNull_getD (h : Recovers encode decode) (a : Option α) :
    Json.orNull decode ((a.map encode).getD .null) = some a := by
  cases a with
  | none => rfl
  | some a => exact h.orNull a

theorem listOf? (h : Recovers encode decode) (as : List α) :
    Json.listOf? decode (.arr (as.map encode)) = some as := by
  have hall : (as.map encode).mapM decode = some as := by
    induction as with
    | nil => rfl
    | cons a as ih => simp [List.mapM_cons, (h a).2, ih]
  simpa [Json.listOf?, asArray?] using hall

end Recovers

/-! ## What a reader looks at -/

def Sees (keys : List String) (take : Take α) : Prop :=
  ∀ all more : Members, (∀ key ∈ keys, more.get? key = all.get? key) →
    ∃ found : Option α, take (.members all) = found.map (·, .members all) ∧
      take (.members more) = found.map (·, .members more)

namespace Sees

variable {keys : List String} {key : String}

theorem of_get? {take : Take α} (read : Option Json → Option α)
    (h : ∀ all, take (.members all) = (read (all.get? key)).map (·, .members all))
    (hkey : key ∈ keys) : Sees keys take :=
  fun all more hsame => ⟨read (all.get? key), h all, by rw [h more, hsame key hkey]⟩

theorem field (decode : Json → Option α) (hkey : key ∈ keys) :
    Sees keys (Json.field key decode) :=
  of_get? (·.bind decode) (field_members key decode) hkey

theorem fieldOr (default : α) (decode : Json → Option α) (hkey : key ∈ keys) :
    Sees keys (Json.fieldOr key default decode) :=
  of_get? (fun found => (found.map decode).getD (some default))
    (fieldOr_members key default decode) hkey

theorem field? (decode : Json → Option α) (hkey : key ∈ keys) :
    Sees keys (Json.field? key decode) :=
  of_get? (fun found => (found.map (orNull decode)).getD (some none))
    (field?_members key decode) hkey

theorem nullable (decode : Json → Option α) (hkey : key ∈ keys) :
    Sees keys (Json.nullable key decode) :=
  of_get? (fun found => (found.map (orNull decode)).getD (some none))
    (nullable_members key decode) hkey

theorem pure (a : α) : Sees keys (Pure.pure a : Take α) :=
  fun _ _ _ => ⟨some a, rfl, rfl⟩

theorem bind {take : Take α} {next : α → Take β} (ht : Sees keys take)
    (hn : ∀ a, Sees keys (next a)) : Sees keys (take >>= next) := by
  intro all more hsame
  obtain ⟨found, hall, hmore⟩ := ht all more hsame
  cases found with
  | none => exact ⟨none, by rw [bind_members, hall]; rfl, by rw [bind_members, hmore]; rfl⟩
  | some a =>
    obtain ⟨result, hall', hmore'⟩ := hn a all more hsame
    exact ⟨result, by rw [bind_members, hall]; exact hall',
      by rw [bind_members, hmore]; exact hmore'⟩

theorem mono {more : List String} {take : Take α} (ht : Sees keys take)
    (hsub : ∀ key ∈ keys, key ∈ more) : Sees more take :=
  fun all others hsame => ht all others fun key hkey => hsame key (hsub key hkey)

/-- Members under other keys change nothing of what is read. -/
theorem record_extend {take : Take α} (ht : Sees keys take) {extra : Members}
    (hextra : ∀ member ∈ extra, member.1 ∉ keys) (all : Members) :
    record take (.obj (all.extend extra)) = record take (.obj all) := by
  have hsame : ∀ key ∈ keys, (all.extend extra).get? key = all.get? key := fun key hkey =>
    Members.get?_extend_of_notMem (fun member hm heq => hextra member hm (heq ▸ hkey)) all
  obtain ⟨found, hall, hmore⟩ := ht all _ hsame
  cases found <;> simp [record, hall, hmore]

end Sees

/-! ## What a codec reads -/

/-- What is written is an object that is read back, also with members added under other keys. -/
def Tolerates (keys : List String) (encode : α → Json) (decode : Json → Option α) : Prop :=
  ∀ a, ∃ all : Members, encode a = .obj all ∧ decode (.obj all) = some a ∧
    ∀ extra : Members, (∀ member ∈ extra, member.1 ∉ keys) →
      decode (.obj (all.extend extra)) = some a

namespace Tolerates

variable {keys : List String} {encode : α → Json}

theorem recovers {decode : Json → Option α} (h : Tolerates keys encode decode) :
    Recovers encode decode := by
  intro a
  obtain ⟨all, hall, hread, -⟩ := h a
  rw [hall]
  exact ⟨nofun, hread⟩

theorem record {take : Take α} (ht : Sees keys take)
    (h : ∀ a, ∃ all, encode a = .obj all ∧ Json.record take (.obj all) = some a) :
    Tolerates keys encode (Json.record take) := by
  intro a
  obtain ⟨all, hall, hread⟩ := h a
  exact ⟨all, hall, hread, fun extra hextra => (ht.record_extend hextra all).trans hread⟩

theorem tagged {tag : String} {variant? : String → Option (Take α)} (htag : tag ∈ keys)
    (h : ∀ a, ∃ (all : Members) (name : String) (take : Take α),
        encode a = .obj all ∧ all.get? tag = some (.str name) ∧
        variant? name = some take ∧ Sees keys take ∧ Json.record take (.obj all) = some a) :
    Tolerates keys encode (Json.tagged tag variant?) := by
  intro a
  obtain ⟨all, name, take, hall, hname, hvariant, ht, hread⟩ := h a
  refine ⟨all, hall, by simp [Json.tagged, hname, asString?, hvariant, hread], ?_⟩
  intro extra hextra
  have hname' : (all.extend extra).get? tag = some (.str name) :=
    (Members.get?_extend_of_notMem (fun m hm heq => hextra m hm (heq ▸ htag)) all).trans hname
  simp [Json.tagged, hname', asString?, hvariant, ht.record_extend hextra, hread]

end Tolerates

end ProofPanel.Json

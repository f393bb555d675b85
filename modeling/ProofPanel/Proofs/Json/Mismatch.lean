import Mathlib.Data.List.Nodup
import ProofPanel.Json.Mismatch
import ProofPanel.Proofs.Json.Fields

/-!
# Checks and decoders

A check finds nothing wrong with a value exactly where a decoder reads it. For a record the check
goes through the members as they stand while the decoder takes the fields in their order; they
agree as long as no two fields share a key.
-/
namespace ProofPanel.Json

variable {α β : Type}

/-- The check has nothing against just the values that the decoder reads. -/
def Judges (check : Check) (decode : Json → Option α) : Prop :=
  ∀ value, check value = none ↔ (decode value).isSome

theorem Members.mem_of_get? {key : String} {value : Json} {all : Members}
    (h : all.get? key = some value) : (key, value) ∈ all := by
  induction all with
  | nil => cases h
  | cons first rest ih =>
    rw [Members.get?] at h
    split_ifs at h with hkey
    · cases h
      exact hkey ▸ List.mem_cons_self
    · exact List.mem_cons_of_mem first (ih h)

/-! ## Values -/

namespace Judges

variable {check : Check} {decode : Json → Option α}

theorem text : Judges .text asString? := by
  intro value
  cases value <;> simp [Check.text, asString?]

theorem whole (type : String) : Judges (.whole type) nat? := by
  intro value
  match value with
  | .int (.ofNat _) | .int (.negSucc _) => simp [Check.whole, nat?, asNat?]
  | .null | .bool _ | .float _ | .str _ | .arr _ | .obj _ => simp [Check.whole, nat?, asNat?]

theorem truth : Judges .truth asBool? := by
  intro value
  cases value <;> simp [Check.truth, asBool?]

theorem orNull (h : Judges check decode) : Judges (.orNull check) (Json.orNull decode) := by
  intro value
  cases value with
  | null => simp [Check.orNull, Json.orNull]
  | _ => simpa only [Check.orNull, Json.orNull, Option.isSome_map] using h _

theorem each (h : Judges check decode) : Judges (.each check) (Json.listOf? decode) := by
  intro value
  cases value with
  | arr items =>
    have hall : items.findSome? check = none ↔ (items.mapM decode).isSome := by
      induction items with
      | nil => simp
      | cons item rest ih =>
        have hitem := h item
        cases hd : decode item with
        | none => simp_all
        | some a => cases hr : rest.mapM decode <;> simp_all
    simpa [Check.each, Json.listOf?, asArray?] using hall
  | _ => simp [Check.each, Json.listOf?, asArray?]

theorem constant {names : List String} {named? : String → Option α}
    (h : ∀ name, name ∈ names ↔ (named? name).isSome) :
    Judges (.constant names) (Json.constant? .inMessage named?) := by
  have hname (name : String) :
      (if name ∈ names then none else some (unknownName names name)) = none ↔
        (named? name).isSome := by
    rw [← h]
    split_ifs with hmem <;> simp [hmem]
  -- with content no name will do
  have hcontent (name content : String) :
      (if name ∈ names then some content else some (unknownName names name)) ≠ none := by
    split_ifs <;> simp
  intro value
  match value with
  | .str name => exact hname name
  | .obj [(name, .null)] => exact hname name
  | .obj [(name, .obj [])] => exact hname name
  | .obj [(name, .obj (_ :: _))] => simpa [Check.constant, Json.constant?] using hcontent name _
  | .obj [(name, .bool _)] | .obj [(name, .int _)] | .obj [(name, .float _)]
  | .obj [(name, .str _)] | .obj [(name, .arr _)] =>
    simpa [Check.constant, Json.constant?] using hcontent name _
  | .obj [] | .obj (_ :: _ :: _) => simp [Check.constant, Json.constant?]
  | .null | .bool _ | .int _ | .float _ | .arr _ => simp [Check.constant, Json.constant?]

end Judges

/-! ## Fields -/

def Fields.found (key : String) : Fields → Option Json
  | .members all => all.get? key
  | .elements rest => rest.head?

def Fields.after (n : Nat) : Fields → Fields
  | .members all => .members all
  | .elements rest => .elements (rest.drop n)

def FieldCheck.Accepts (f : FieldCheck) : Option Json → Prop
  | none => f.required = false
  | some value => f.check value = none

@[simp] theorem FieldCheck.accepts_none (f : FieldCheck) :
    f.Accepts none ↔ f.required = false := Iff.rfl

@[simp] theorem FieldCheck.accepts_some (f : FieldCheck) (value : Json) :
    f.Accepts (some value) ↔ f.check value = none := Iff.rfl

def Fits : List FieldCheck → Fields → Prop
  | [], _ => True
  | f :: fields, given => f.Accepts (given.found f.key) ∧ Fits fields (given.after 1)

/-- The reader takes the fields in turn, and gives something where all are content. -/
def Collects (fields : List FieldCheck) (take : Take α) : Prop :=
  ∀ given, (∀ taken ∈ take given, taken.2 = given.after fields.length) ∧
    ((take given).isSome ↔ Fits fields given)

@[simp] theorem Fields.after_zero (given : Fields) : given.after 0 = given := by
  cases given <;> rfl

@[simp] theorem Fields.after_after (given : Fields) (m n : Nat) :
    (given.after m).after n = given.after (m + n) := by
  cases given <;> simp [after]

theorem field_eq (key : String) (decode : Json → Option α) (given : Fields) :
    field key decode given = ((given.found key).bind decode).map (·, given.after 1) := by
  rcases given with all | _ | ⟨value, rest⟩
  · exact field_members key decode all
  · rfl
  · cases hv : decode value <;> simp [field, Fields.found, Fields.after, hv]

theorem fieldOr_eq (key : String) (default : α) (decode : Json → Option α) (given : Fields) :
    fieldOr key default decode given =
      (((given.found key).map decode).getD (some default)).map (·, given.after 1) := by
  rcases given with all | _ | ⟨value, rest⟩
  · exact fieldOr_members key default decode all
  · rfl
  · cases hv : decode value <;> simp [fieldOr, Fields.found, Fields.after, hv]

namespace Collects

variable {fields : List FieldCheck} {check : Check} {key : String} {decode : Json → Option α}

theorem pure (a : α) : Collects [] (Pure.pure a : Take α) := by
  intro given
  simp [Fits]

/-- A field is read before the others. -/
theorem cons {f : FieldCheck} {take : Take α} {next : α → Take β} (read : Option Json → Option α)
    (ht : ∀ given, take given = (read (given.found f.key)).map (·, given.after 1))
    (hread : ∀ found, (read found).isSome ↔ f.Accepts found)
    (hnext : ∀ a, Collects fields (next a)) : Collects (f :: fields) (take >>= next) := by
  intro given
  have hfits := hread (given.found f.key)
  rw [bind_members, ht, Fits, ← hfits]
  cases hr : read (given.found f.key) with
  | none => simp
  | some a =>
    obtain ⟨hleft, hsome⟩ := hnext a (given.after 1)
    simpa [hsome, Nat.add_comm] using hleft

theorem field {next : α → Take β} (h : Judges check decode) (hnext : ∀ a, Collects fields (next a)) :
    Collects (⟨key, true, check⟩ :: fields) (field key decode >>= next) := by
  refine cons (·.bind decode) (field_eq key decode) (fun found => ?_) hnext
  cases found with
  | none => simp
  | some value => simpa using (h value).symm

theorem fieldOr {next : α → Take β} (default : α) (h : Judges check decode)
    (hnext : ∀ a, Collects fields (next a)) :
    Collects (⟨key, false, check⟩ :: fields) (fieldOr key default decode >>= next) := by
  refine cons (fun found => (found.map decode).getD (some default))
    (fieldOr_eq key default decode) (fun found => ?_) hnext
  cases found with
  | none => simp
  | some value => simpa using (h value).symm

end Collects

/-! ## Records -/

theorem fits_members {fields : List FieldCheck} {all : Members} :
    Fits fields (.members all) ↔ ∀ f ∈ fields, f.Accepts (all.get? f.key) := by
  induction fields with
  | nil => simp [Fits]
  | cons f fields ih =>
    rw [Fits, List.forall_mem_cons, ← ih]
    rfl

theorem find?_key {fields : List FieldCheck} (hkeys : (fields.map (·.key)).Nodup) {key : String}
    {f : FieldCheck} : fields.find? (·.key == key) = some f ↔ f ∈ fields ∧ f.key = key := by
  constructor
  · exact fun h => ⟨List.mem_of_find?_eq_some h, by simpa using List.find?_some h⟩
  · rintro ⟨hf, rfl⟩
    cases hg : fields.find? (·.key == f.key) with
    | none => simpa using List.find?_eq_none.mp hg f hf
    | some g =>
      have hsame : g.key = f.key := by simpa using List.find?_some hg
      rw [List.inj_on_of_nodup_map hkeys (List.mem_of_find?_eq_some hg) hf hsame]

/-- The members are looked at in the order they stand in; each finds the one field of its key. -/
theorem inMembers_eq_none_iff {fields : List FieldCheck} (hkeys : (fields.map (·.key)).Nodup)
    (all : Members) : FieldCheck.inMembers fields all = none ↔ Fits fields (.members all) := by
  have hmembers : (FieldCheck.inMembers fields all = none) ↔
      (∀ member ∈ all, ∀ f ∈ fields, f.key = member.1 →
        ∀ value, all.get? member.1 = some value → f.check value = none) ∧
      ∀ f ∈ fields, f.required = true → all.get? f.key ≠ none := by
    simp only [FieldCheck.inMembers, Option.or_eq_none_iff, List.findSome?_eq_none_iff,
      Option.map_eq_none_iff, List.find?_eq_none, Option.bind_eq_none_iff, find?_key hkeys]
    simp
  rw [hmembers, fits_members]
  constructor
  · rintro ⟨hfit, hthere⟩ f hf
    cases hget : all.get? f.key with
    | none => simpa [hget] using hthere f hf
    | some value => exact hfit _ (Members.mem_of_get? hget) f hf rfl value hget
  · intro h
    refine ⟨fun member _ f hf hkey value hget => ?_, fun f hf hrequired hget => ?_⟩
    · simpa [hkey, hget] using h f hf
    · simpa [hget, hrequired] using h f hf

theorem inElements_eq_none_iff (kind : String) (total taken : Nat) (fields : List FieldCheck)
    (items : List Json) :
    FieldCheck.inElements kind total taken fields items = none ↔
      Fits fields (.elements items) ∧ items.length ≤ fields.length := by
  induction fields generalizing taken items with
  | nil => cases items <;> simp [FieldCheck.inElements, Fits]
  | cons f fields ih =>
    cases items with
    | nil =>
      have hrest := ih (taken + 1) []
      by_cases hf : f.required <;>
        simp_all [FieldCheck.inElements, Fits, Fields.found, Fields.after]
    | cons value rest =>
      rw [FieldCheck.inElements, Option.or_eq_none_iff, ih]
      simp [Fits, Fields.found, Fields.after, and_assoc]

namespace Judges

theorem record {fields : List FieldCheck} {take : Take α} (kind : String)
    (hkeys : (fields.map (·.key)).Nodup) (h : Collects fields take) :
    Judges (.record kind fields) (Json.record take) := by
  intro value
  cases value with
  | obj members =>
    rw [Check.record, inMembers_eq_none_iff hkeys, ← (h _).2, Json.record, Option.isSome_map]
  | arr items =>
    obtain ⟨hleft, hsome⟩ := h (.elements items)
    rw [Check.record, inElements_eq_none_iff, ← hsome, Json.record]
    cases ht : take (.elements items) with
    | none => simp
    | some taken =>
      obtain ⟨a, left⟩ := taken
      have hleft : left = .elements (items.drop fields.length) := hleft _ ht
      subst hleft
      cases hrest : items.drop fields.length with
      | nil => simpa using List.drop_eq_nil_iff.mp hrest
      | cons value rest =>
        have hlong : ¬ items.length ≤ fields.length := by
          rw [← List.drop_eq_nil_iff, hrest]
          exact List.cons_ne_nil _ _
        simp [hlong]
  | _ => simp [Check.record, Json.record]

/-- A tagged message is judged by the variant that its tag names. -/
theorem tagged {variants : List (String × Check)} {variant? : String → Option (Take α)}
    (kind tag : String)
    (h : ∀ name, (variants.lookup name = none ∧ variant? name = none) ∨
      ∃ check take, variants.lookup name = some check ∧ variant? name = some take ∧
        Judges check (Json.record take)) :
    Judges (.tagged kind tag variants) (Json.tagged tag variant?) := by
  have hvariant (name : String) (content : Json) :
      Check.variant variants (.str name) content = none ↔
        ((variant? name).bind fun take => Json.record take content).isSome := by
    rcases h name with ⟨hcheck, htake⟩ | ⟨check, take, hcheck, htake, hjudges⟩
    · simp [Check.variant, hcheck, htake]
    · simpa [Check.variant, hcheck, htake] using hjudges content
  intro value
  cases value with
  | obj members =>
    cases hget : Members.get? tag members with
    | none => simp [Check.tagged, Json.tagged, hget]
    | some name =>
      cases name with
      | str name => simpa [Check.tagged, Json.tagged, hget, asString?] using hvariant name _
      | _ => simp [Check.tagged, Json.tagged, hget, asString?, Check.variant]
  | arr items =>
    rcases items with _ | ⟨name, items⟩
    · simp [Check.tagged, Json.tagged]
    · cases name with
      | str name => simpa [Check.tagged, Json.tagged] using hvariant name (.arr items)
      | _ => simp [Check.tagged, Json.tagged, Check.variant]
  | _ => simp [Check.tagged, Json.tagged]

end Judges

end ProofPanel.Json

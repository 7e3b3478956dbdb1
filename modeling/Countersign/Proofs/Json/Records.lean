import Mathlib.Data.List.Nodup
import Countersign.Json.Record
import Countersign.Proofs.Hex

/-!
# Records that were written

An object that is written from members with names of their own is read as a record of exactly these, so
that what stands under a name is found by the name.
-/

set_option autoImplicit false

namespace Countersign.Json

variable {members : List (String × Json)}

theorem u64?_ofNat (n : UInt64) : (ofNat n.toNat).u64? = some n := by
  show (if n.toNat < UInt64.size then _ else _) = _
  rw [if_pos n.toNat_lt, UInt64.ofNat_toNat]

theorem isText_encode (s : String) : isText (Utf8.encode s) = true := by
  rw [isText, Utf8.decode?_encode]
  rfl

theorem distinct_iff_nodup {names : List Bytes} : distinct names = true ↔ names.Nodup := by
  induction names with
  | nil => simp [distinct]
  | cons n r ih => simp [distinct, ih]

def recordOf (members : List (String × Json)) : Record := members.map fun m => (Utf8.encode m.1, m.2)

theorem record?_ofMembers {names : List String} (known : members.map (·.1) ⊆ names)
    (nodup : (members.map (·.1)).Nodup) : (ofMembers members).record? names = some (recordOf members) := by
  have all : (recordOf members).filter (fun m => (names.map Utf8.encode).contains m.1) =
      recordOf members := by
    rw [List.filter_eq_self]
    intro m hm
    obtain ⟨n, hn, rfl⟩ := List.mem_map.mp hm
    simpa using ⟨n.1, known (List.mem_map_of_mem hn), rfl⟩
  have text : (recordOf members).all (fun m => isText m.1) = true := by
    simp [recordOf, isText_encode]
  have apart : distinct ((recordOf members).map (·.1)) = true := by
    rw [distinct_iff_nodup, recordOf, List.map_map]
    have h := List.Nodup.map Utf8.encode_injective nodup
    rwa [List.map_map] at h
  have written : ofMembers members = .object (recordOf members) := rfl
  simp only [written, record?, all, text, apart, Bool.and_self, if_true]

namespace Record

theorem get?_recordOf (name : String) : (recordOf members).get? name = members.lookup name := by
  unfold get? recordOf
  induction members with
  | nil => rfl
  | cons m r ih =>
    rw [List.map_cons, List.lookup_cons, List.lookup_cons, ih,
      (Utf8.encode_injective.beq_eq : (Utf8.encode name == Utf8.encode m.1) = (name == m.1))]

theorem required_recordOf {α : Type} (name : String) (read : Json → Option α) :
    (recordOf members).required name read = (members.lookup name).bind read := by
  rw [required, get?_recordOf]

def unlessNull {α : Type} (read : Json → Option α) : Json → Option (Option α)
  | .null => some none
  | v => (read v).map some

theorem unlessNull_ofText {α : Type} (read : Json → Option α) (s : String) :
    unlessNull read (ofText s) = (read (ofText s)).map some := rfl

theorem optional_recordOf {α : Type} (name : String) (read : Json → Option α) :
    (recordOf members).optional name read =
      ((members.lookup name).map (unlessNull read)).getD (some none) := by
  rw [optional, get?_recordOf]
  cases members.lookup name with
  | none => rfl
  | some v =>
    cases v with
    | null => rfl
    | _ => rfl

theorem defaulted_recordOf {α : Type} (name : String) (read : Json → Option α) :
    (recordOf members).defaulted name read =
      ((members.lookup name).map fun v => (read v).map some).getD (some none) := by
  rw [defaulted, get?_recordOf]
  cases members.lookup name with
  | none => rfl
  | some v => rfl

end Record

end Countersign.Json

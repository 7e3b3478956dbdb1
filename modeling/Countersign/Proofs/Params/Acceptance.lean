import Countersign.Proofs.Params.Entries
import Countersign.Proofs.Params.Validity

/-!
# Which parameters files are accepted

A file is accepted when it lists sound entries, each with its place for a number and each activating above
the one before it, and the schedule then has the versions that they write. What is wrong with an entry by
itself comes before what is wrong with its place, wherever in the file the two are found.
-/

set_option autoImplicit false

namespace Countersign.Schedule

open Outcome VersionEntry

/-- A schedule can be made of these entries. -/
structure Acceptable (entries : List VersionEntry) : Prop where
  nonempty : entries ≠ []
  numbered : ∀ (i : ℕ) (e : VersionEntry), entries[i]? = some e → e.version.toNat = i
  rising : entries.Pairwise fun d e => d.activationHeight < e.activationHeight
  sound : ∀ e ∈ entries, e.Sound

/-- What is reported of entries that no schedule can be made of. -/
inductive Refused (entries : List VersionEntry) : ParamsError → Prop where
  | entry {before after : List VersionEntry} {e : VersionEntry} {fault : VersionFault}
    (split : entries = before ++ e :: after) (sound : ∀ d ∈ before, d.Sound)
    (first : e.FirstFault fault) : Refused entries (.invalid e.version fault)
  | empty (none : entries = []) : Refused entries .empty
  | misplaced {versions : List ParametersVersion} {error : ParamsError}
    (sound : ∀ e ∈ entries, e.Sound) (written : List.Forall₂ Writes entries versions)
    (misplaced : Misplaced versions error) : Refused entries error

variable {entries : List VersionEntry} {versions : List ParametersVersion} {error : ParamsError}

theorem toVersions_eq_ok : entries.mapM toVersion = .ok versions ↔
    (∀ e ∈ entries, e.Sound) ∧ List.Forall₂ Writes entries versions := by
  simp only [mapM_eq_ok, toVersion_eq_ok_iff, List.forall₂_and_left]

theorem toVersions_eq_error : entries.mapM toVersion = .error error ↔
    ∃ before e after, entries = before ++ e :: after ∧ (∀ d ∈ before, d.Sound) ∧
      ∃ fault, e.FirstFault fault ∧ .invalid e.version fault = error := by
  simp only [mapM_eq_error, toVersion_eq_error_iff, sound_iff]

open Sample in
/-- The first is out of its number, but the second is reported, which is at fault by itself. -/
example : [{ entry with version := 7 }, { entry with unbondingFee := 0 }].mapM toVersion =
    .error (.invalid 0 .noUnbondingFee) := by
  decide +kernel

theorem exists_written (sound : ∀ e ∈ entries, e.Sound) : ∃ versions, List.Forall₂ Writes entries versions := by
  induction entries with
  | nil => exact ⟨[], .nil⟩
  | cons e entries ih =>
    obtain ⟨this, rest⟩ := List.forall_mem_cons.mp sound
    obtain ⟨v, writes⟩ := this.exists_writes
    obtain ⟨versions, written⟩ := ih rest
    exact ⟨v :: versions, .cons writes written⟩

section Places

variable (written : List.Forall₂ Writes entries versions)
include written

theorem numbers_eq : entries.map (·.version) = versions.map (·.version) := by
  rw [← List.forall₂_eq_eq_eq, List.forall₂_map_left_iff, List.forall₂_map_right_iff]
  exact written.imp fun e v writes => writes.version

theorem heights_eq : entries.map (·.activationHeight) = versions.map (·.activationHeight) := by
  rw [← List.forall₂_eq_eq_eq, List.forall₂_map_left_iff, List.forall₂_map_right_iff]
  exact written.imp fun e v writes => writes.activationHeight

theorem eq_nil_iff : entries = [] ↔ versions = [] := by
  rw [← List.length_eq_zero_iff, written.length_eq, List.length_eq_zero_iff]

theorem numbered_iff : Numbered 0 versions ↔
    ∀ (i : ℕ) (e : VersionEntry), entries[i]? = some e → e.version.toNat = i := by
  have places : Numbered 0 versions ↔
      ∀ (i : ℕ) (n : UInt64), (versions.map (·.version))[i]? = some n → n.toNat = i := by
    simp [Numbered, List.getElem?_map]
  rw [places, ← numbers_eq written]
  simp [List.getElem?_map]

theorem rising_iff :
    Rising versions ↔ entries.Pairwise fun d e => d.activationHeight < e.activationHeight := by
  have above : Rising versions ↔ (versions.map (·.activationHeight)).Pairwise (· < ·) := by
    rw [Rising, List.pairwise_map]
  rw [above, ← heights_eq written, List.pairwise_map]

end Places

theorem ofEntries_eq_ok_iff {s : Schedule} :
    ofEntries entries = .ok s ↔ Acceptable entries ∧ List.Forall₂ Writes entries s.versions := by
  simp only [ofEntries, bind_eq_ok, toVersions_eq_ok, ofVersions_eq_ok_iff]
  constructor
  · rintro ⟨versions, ⟨sound, written⟩, rfl, nonempty, numbered, rising⟩
    have some : entries ≠ [] := mt (eq_nil_iff written).mp nonempty
    exact ⟨⟨some, (numbered_iff written).mp numbered, (rising_iff written).mp rising, sound⟩, written⟩
  · rintro ⟨acceptable, written⟩
    exact ⟨s.versions, ⟨acceptable.sound, written⟩, rfl, s.nonempty,
      (numbered_iff written).mpr acceptable.numbered, (rising_iff written).mpr acceptable.rising⟩

theorem ofEntries_accepts_iff : (∃ s, ofEntries entries = .ok s) ↔ Acceptable entries := by
  simp only [ofEntries_eq_ok_iff, exists_and_left, and_iff_left_iff_imp]
  intro acceptable
  obtain ⟨versions, written⟩ := exists_written acceptable.sound
  have nonempty : versions ≠ [] := mt (eq_nil_iff written).mpr acceptable.nonempty
  have placed : misplaced? 0 none versions = none := placed_iff.mpr
    ⟨(numbered_iff written).mpr acceptable.numbered, (rising_iff written).mpr acceptable.rising⟩
  exact ⟨⟨versions, nonempty, placed⟩, written⟩

theorem ofEntries_eq_error_iff : ofEntries entries = .error error ↔ Refused entries error := by
  simp only [ofEntries, bind_eq_error, toVersions_eq_error, toVersions_eq_ok, ofVersions_eq_error_iff]
  constructor
  · rintro (⟨before, e, after, split, sound, fault, first, rfl⟩ |
      ⟨versions, ⟨sound, written⟩, ⟨none, rfl⟩ | misplaced⟩)
    · exact .entry split sound first
    · exact .empty ((eq_nil_iff written).mpr none)
    · exact .misplaced sound written misplaced
  · rintro (⟨split, sound, first⟩ | none | ⟨sound, written, misplaced⟩)
    · exact Or.inl ⟨_, _, _, split, sound, _, first, rfl⟩
    · subst none
      exact Or.inr ⟨[], ⟨by simp, .nil⟩, Or.inl ⟨rfl, rfl⟩⟩
    · exact Or.inr ⟨_, ⟨sound, written⟩, Or.inr misplaced⟩

/-- What becomes of a file is decided by the entries that it lists. -/
theorem parse_decided {text : String} (decoded : (Json.parse? text).bind entries? = some entries) :
    ((∃ s, parse text = .ok s) ↔ Acceptable entries) ∧
      (∀ s, parse text = .ok s → List.Forall₂ Writes entries s.versions) ∧
      ∀ error, parse text = .error error ↔ Refused entries error := by
  rw [parse_of_entries decoded]
  refine ⟨ofEntries_accepts_iff, ?_, fun error => ofEntries_eq_error_iff⟩
  intro s accepted
  exact (ofEntries_eq_ok_iff.mp accepted).2

end Countersign.Schedule

namespace Countersign.Sample

def entryText (place depth : String) : String :=
  "[" ++ place ++ ",\"62627434\",[" ++
    "\"0279be667ef9dcbbac55a06295ce870b07029bfcdb2dce28d959f2815b16f81798\"," ++
    "\"02c6047f9441ed7d6d3045406e95c07cd85c778e4b8cef3ca7abac09b95c709ee5\"," ++
    "\"02f9308a019258c31049344f85f89d5229b531c845836f99b08601f113bce036f9\"]," ++
    "2,100,1000,1000000,10000,65535,150," ++ depth ++ "]"

def twoVersionsText : String := "[[" ++ entryText "0,100" "10" ++ "," ++ entryText "1,200" "6" ++ "]]"

def nextEntry : VersionEntry := { entry with version := 1, activationHeight := 200, confirmationDepth := 6 }

theorem twoVersionsText_entries :
    (Json.parse? twoVersionsText).bind Schedule.entries? = some [entry, nextEntry] := by
  unfold Json.parse? twoVersionsText entryText
  simp only [Utf8.encode_append]
  decide +kernel

theorem nextEntry_version : nextEntry.toVersion = .ok nextVersion := by
  decide +kernel

theorem twoVersions_accepted : Schedule.parse twoVersionsText = .ok twoVersions := by
  rw [Schedule.parse_of_entries twoVersionsText_entries]
  simp only [Schedule.ofEntries, List.mapM_cons, List.mapM_nil, entry_version, nextEntry_version]
  exact Schedule.ofVersions_versions twoVersions

end Countersign.Sample

namespace Countersign.Schedule

open Sample VersionEntry in
theorem sample_parse_decided :
    (Json.parse? twoVersionsText).bind entries? = some [entry, nextEntry] ∧
      Acceptable [entry, nextEntry] ∧ List.Forall₂ Writes [entry, nextEntry] [version, nextVersion] := by
  obtain ⟨accepts, writes, -⟩ := parse_decided twoVersionsText_entries
  exact ⟨twoVersionsText_entries, accepts.mp ⟨twoVersions, twoVersions_accepted⟩,
    writes twoVersions twoVersions_accepted⟩

end Countersign.Schedule

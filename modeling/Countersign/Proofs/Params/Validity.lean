import Countersign.Proofs.Params.Entries
import Countersign.Proofs.Params.Placement
import Countersign.Proofs.Staking.Building

/-!
# What an accepted parameters file guarantees

Every version of a schedule that was parsed has a committee that leaves can be made of, limits that
are not empty and a fee below the largest stake. Activation heights strictly increase, so the version
that governs a height is the one that activates last among those that have activated.
-/

set_option autoImplicit false

namespace Countersign

open Outcome

/-- Parameters under which stakes can be made, unbonded and judged. -/
structure Parameters.Valid (p : Parameters) : Prop where
  committee : Leaves.Quorate p.committee p.quorum
  unbondingTime : p.unbondingTime ≠ 0
  unbondingFee : p.unbondingFee ≠ 0
  amounts : p.minAmount ≠ 0 ∧ p.minAmount ≤ p.maxAmount
  times : p.minTime ≠ 0 ∧ p.minTime ≤ p.maxTime
  confirmationDepth : p.confirmationDepth ≠ 0
  fee : p.unbondingFee < p.maxAmount

namespace VersionEntry

theorem parse_valid {e : VersionEntry} {p : Parameters} (h : e.parse = .ok p) : p.Valid := by
  simp only [parse, bind_eq_ok, guard_eq_ok, pure_eq_ok, not_or, ge_iff_le, gt_iff_lt,
    UInt64.not_lt, UInt64.not_le, UInt16.not_lt, Nat.not_lt] at h
  obtain ⟨tag, -, -, keys, hkeys, ⟨hquorum, hle⟩, unbonding, -, hunbonding, hfee, hamounts, minTime, -,
    maxTime, -, htimes, depth, -, hdepth, hmax, rfl⟩ := h
  refine ⟨⟨hquorum, ?_, (parseKeys_eq_ok.mp hkeys).2.1⟩, hunbonding, hfee, hamounts, htimes, hdepth, hmax⟩
  simpa [Parameters.committee] using hle

end VersionEntry

namespace Schedule

theorem valid_of_entries {entries : List VersionEntry} {versions : List ParametersVersion}
    (h : List.Forall₂ (fun e v => VersionEntry.toVersion e = .ok v) entries versions) :
    ∀ v ∈ versions, v.parameters.Valid := by
  induction h with
  | nil => simp
  | cons he _ ih =>
    simp only [VersionEntry.toVersion, bind_eq_ok, mapError_eq_ok, pure_eq_ok] at he
    obtain ⟨p, hp, rfl⟩ := he
    intro v hv
    rcases List.mem_cons.mp hv with rfl | hv
    · exact VersionEntry.parse_valid hp
    · exact ih v hv

theorem parse_of_entries {text : String} {entries : List VersionEntry}
    (decoded : (Json.parse? text).bind entries? = some entries) : parse text = ofEntries entries := by
  unfold parse
  rw [decoded]

theorem ofVersions_versions (s : Schedule) : ofVersions s.versions = .ok s :=
  ofVersions_eq_ok_iff.mpr ⟨rfl, s.nonempty, placed_iff.mp s.placed⟩

theorem valid_of_parse {text : String} {s : Schedule} (h : parse text = .ok s) :
    ∀ v ∈ s.versions, v.parameters.Valid := by
  unfold parse at h
  split at h
  · simp only [ofEntries, bind_eq_ok, mapM_eq_ok] at h
    obtain ⟨versions, hv, hs⟩ := h
    rw [(ofVersions_eq_ok_iff.mp hs).1]
    exact valid_of_entries hv
  · cases h

/-- The version has activated, and none of the others that have did so above it. -/
structure Governs (s : Schedule) (height : UInt64) (v : ParametersVersion) : Prop where
  mem : v ∈ s.versions
  active : v.activationHeight ≤ height
  last : ∀ w ∈ s.versions, w.activationHeight ≤ height → w.activationHeight ≤ v.activationHeight

theorem rising (s : Schedule) : Rising s.versions := (placed_iff.mp s.placed).2

theorem takeWhile_active {versions : List ParametersVersion} (h : Rising versions) (height : UInt64) :
    (versions.takeWhile fun v => v.activationHeight ≤ height) =
      versions.filter fun v => v.activationHeight ≤ height := by
  induction versions with
  | nil => rfl
  | cons v rest ih =>
    obtain ⟨hv, hr⟩ := List.pairwise_cons.mp h
    by_cases ha : v.activationHeight ≤ height
    · simp [ha, ih hr]
    · have hnone : (rest.filter fun w => w.activationHeight ≤ height) = [] := by
        apply List.filter_eq_nil_iff.mpr
        intro w hw
        have hlt := UInt64.lt_trans (UInt64.not_le.mp ha) (hv w hw)
        simpa using hlt
      simp [ha, hnone]

theorem getLast?_rising {versions : List ParametersVersion} (h : Rising versions)
    (v : ParametersVersion) :
    versions.getLast? = some v ↔
      v ∈ versions ∧ ∀ w ∈ versions, w.activationHeight ≤ v.activationHeight := by
  rcases List.eq_nil_or_concat' versions with rfl | ⟨front, top, rfl⟩
  · simp
  · obtain ⟨-, -, htop⟩ := List.pairwise_append.mp h
    have hlt : ∀ w ∈ front, w.activationHeight < top.activationHeight := by
      intro w hw
      exact htop w hw top (by simp)
    rw [List.getLast?_concat, Option.some.injEq]
    constructor
    · intro h
      subst h
      constructor
      · simp
      · intro w hw
        rcases List.mem_append.mp hw with hw | hw
        · exact UInt64.le_of_lt (hlt w hw)
        · rw [List.mem_singleton.mp hw]
          exact UInt64.le_refl _
    · intro h
      obtain ⟨hm, hmax⟩ := h
      rcases List.mem_append.mp hm with hm | hm
      · exact absurd (hlt v hm) (UInt64.not_lt.mpr (hmax top (by simp)))
      · exact (List.mem_singleton.mp hm).symm

theorem versionAt?_eq_some_iff {s : Schedule} {height : UInt64} {v : ParametersVersion} :
    s.versionAt? height = some v ↔ s.Governs height v := by
  rw [versionAt?, takeWhile_active s.rising, getLast?_rising (s.rising.filter _)]
  simp only [List.mem_filter, decide_eq_true_eq]
  constructor
  · intro h
    obtain ⟨⟨hm, ha⟩, hl⟩ := h
    exact ⟨hm, ha, fun w hw hwa => hl w ⟨hw, hwa⟩⟩
  · intro h
    obtain ⟨hm, ha, hl⟩ := h
    exact ⟨⟨hm, ha⟩, fun w hw => hl w hw.1 hw.2⟩

theorem parametersAt_of_governs {s : Schedule} {height : UInt64} {v : ParametersVersion}
    (h : s.Governs height v) : s.parametersAt height = .ok v.parameters := by
  rw [parametersAt, versionAt?_eq_some_iff.mpr h]

theorem parametersAt_eq_error {s : Schedule} {height : UInt64} {e : ParamsError} :
    s.parametersAt height = .error e ↔
      height < (s.versions.head s.nonempty).activationHeight ∧ .notFound height = e := by
  obtain ⟨versions, nonempty, placed⟩ := s
  obtain ⟨first, rest, rfl⟩ := List.exists_cons_of_ne_nil nonempty
  simp only [parametersAt, versionAt?, List.head_cons]
  by_cases h : first.activationHeight ≤ height
  · rw [List.takeWhile_cons_of_pos (by simpa using h)]
    simp [List.getLast?_cons, UInt64.not_lt.mpr h]
  · rw [List.takeWhile_cons_of_neg (by simpa using h)]
    simp [UInt64.not_le.mp h]

theorem parametersAt_valid {text : String} {s : Schedule} {height : UInt64} {p : Parameters}
    (accepted : parse text = .ok s) (h : s.parametersAt height = .ok p) : p.Valid := by
  unfold parametersAt at h
  split at h
  · rename_i v hv
    cases h
    exact valid_of_parse accepted v (versionAt?_eq_some_iff.mp hv).mem
  · cases h

end Schedule

namespace Sample

def keyTexts : List String :=
  ["0279be667ef9dcbbac55a06295ce870b07029bfcdb2dce28d959f2815b16f81798",
    "02c6047f9441ed7d6d3045406e95c07cd85c778e4b8cef3ca7abac09b95c709ee5",
    "02f9308a019258c31049344f85f89d5229b531c845836f99b08601f113bce036f9"]

def paramsText : String :=
  "[[[0,100,\"62627434\",[" ++
    "\"0279be667ef9dcbbac55a06295ce870b07029bfcdb2dce28d959f2815b16f81798\"," ++
    "\"02c6047f9441ed7d6d3045406e95c07cd85c778e4b8cef3ca7abac09b95c709ee5\"," ++
    "\"02f9308a019258c31049344f85f89d5229b531c845836f99b08601f113bce036f9\"]," ++
    "2,100,1000,1000000,10000,65535,150,10]]]"

def entry : VersionEntry where
  version := 0
  activationHeight := 100
  tag := "62627434"
  covenantKeys := keyTexts
  quorum := 2
  unbondingTime := 100
  unbondingFee := 1000
  maxAmount := 1000000
  minAmount := 10000
  maxTime := 65535
  minTime := 150
  confirmationDepth := 10

def tag : Tag := ⟨[0x62, 0x62, 0x74, 0x34], rfl⟩

def parameters : Parameters where
  covenantKeys := committee.map (⟨·, false⟩)
  quorum := 2
  tag := tag
  unbondingTime := 100
  unbondingFee := 1000
  maxAmount := 1000000
  minAmount := 10000
  maxTime := 65535
  minTime := 150
  confirmationDepth := 10

def version : ParametersVersion := ⟨0, 100, parameters⟩

def schedule : Schedule := ⟨[version], List.cons_ne_nil _ _, rfl⟩

def nextVersion : ParametersVersion := ⟨1, 200, { parameters with confirmationDepth := 6 }⟩

def twoVersions : Schedule := ⟨[version, nextVersion], List.cons_ne_nil _ _, rfl⟩

theorem paramsText_entries : (Json.parse? paramsText).bind Schedule.entries? = some [entry] := by
  unfold Json.parse? paramsText
  -- the kernel takes short strings apart faster than a long one
  simp only [Utf8.encode_append]
  decide +kernel

theorem entry_version : entry.toVersion = .ok version := by
  decide +kernel

theorem schedule_accepted : Schedule.parse paramsText = .ok schedule := by
  rw [Schedule.parse_of_entries paramsText_entries]
  simp only [Schedule.ofEntries, List.mapM_cons, List.mapM_nil, entry_version]
  exact Schedule.ofVersions_versions schedule

theorem version_governs {height : UInt64} (active : 100 ≤ height) :
    schedule.Governs height version := by
  refine ⟨List.mem_singleton_self _, active, ?_⟩
  intro w hw _
  rw [List.mem_singleton.mp hw]
  exact UInt64.le_refl _

end Sample

end Countersign

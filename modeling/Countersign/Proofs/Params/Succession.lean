import Countersign.Proofs.Params.Validity

/-!
# Which version governs

Activation heights rise along a schedule, so the versions that have activated at a height stand in front of
those that have not, and the last of the former is the answer. It moves to later versions only as heights
grow, and a version that is added behind the others takes over at its own height and changes nothing below.
-/

set_option autoImplicit false

namespace Countersign.Schedule

variable {versions : List ParametersVersion} {s : Schedule} {height : UInt64} {v w : ParametersVersion}

/-- The versions before this point, and no others, have activated. -/
structure Splits (versions : List ParametersVersion) (height : UInt64) (point : ℕ) : Prop where
  inside : point ≤ versions.length
  active_iff : ∀ i v, versions[i]? = some v → (v.activationHeight ≤ height ↔ i < point)

theorem Splits.unique {point other : ℕ} (h : Splits versions height point)
    (h' : Splits versions height other) : point = other := by
  have le : ∀ {m n : ℕ}, Splits versions height m → Splits versions height n → m ≤ n := by
    intro m n hm hn
    by_contra less
    have inside := hm.inside
    have at_n := List.getElem?_eq_getElem (l := versions) (i := n) (by omega)
    have active := (hm.active_iff n _ at_n).mpr (by omega)
    exact absurd ((hn.active_iff n _ at_n).mp active) (lt_irrefl n)
  exact Nat.le_antisymm (le h h') (le h' h)

theorem takeWhile_splits (rising : Rising versions) (height : UInt64) :
    Splits versions height (versions.takeWhile fun v => v.activationHeight ≤ height).length := by
  induction versions with
  | nil => exact ⟨le_refl _, by simp⟩
  | cons u rest ih =>
    obtain ⟨above, rising⟩ := rising_cons.mp rising
    by_cases active : u.activationHeight ≤ height
    · rw [List.takeWhile_cons_of_pos (by simpa using active), List.length_cons]
      have later := ih rising
      refine ⟨Nat.succ_le_succ later.inside, ?_⟩
      rintro (_ | i) v hv
      · obtain rfl := Option.some.inj hv
        exact iff_of_true active (Nat.succ_pos _)
      · rw [later.active_iff i v hv, Nat.succ_lt_succ_iff]
    · rw [List.takeWhile_cons_of_neg (by simpa using active)]
      refine ⟨Nat.zero_le _, ?_⟩
      rintro (_ | i) v hv
      · obtain rfl := Option.some.inj hv
        exact iff_of_false active (Nat.not_lt_zero _)
      · have later := UInt64.lt_trans (UInt64.not_le.mp active) (above v (List.mem_of_getElem? hv))
        exact iff_of_false (UInt64.not_le.mpr later) (Nat.not_lt_zero _)

theorem versionAt?_of_splits {point : ℕ} (splits : Splits s.versions height point) :
    s.versionAt? height = if point = 0 then none else s.versions[point - 1]? := by
  have here := takeWhile_splits s.rising height
  rw [splits.unique here, versionAt?, List.getLast?_eq_getElem?]
  generalize taken : s.versions.takeWhile (fun v => v.activationHeight ≤ height) = front
  have start : front <+: s.versions := taken ▸ List.takeWhile_prefix _
  by_cases none : front.length = 0
  · simp [List.length_eq_zero_iff.mp none]
  · rw [if_neg none]
    obtain ⟨back, hback⟩ := start
    rw [← hback, List.getElem?_append_left (by omega)]

theorem versionAt?_eq_none_iff :
    s.versionAt? height = none ↔ ∀ v ∈ s.versions, height < v.activationHeight := by
  simp [versionAt?, takeWhile_active s.rising]

theorem governs_iff :
    s.Governs height v ↔ v ∈ s.versions ∧ v.activationHeight ≤ height ∧
      ∀ w ∈ s.versions, w ≠ v → ¬ (v.activationHeight < w.activationHeight ∧ w.activationHeight ≤ height) := by
  constructor
  · intro h
    refine ⟨h.mem, h.active, ?_⟩
    rintro w hw - ⟨later, active⟩
    exact UInt64.not_lt.mpr (h.last w hw active) later
  · rintro ⟨mem, active, last⟩
    refine ⟨mem, active, ?_⟩
    intro w hw hactive
    by_contra later
    have later := UInt64.not_le.mp later
    refine last w hw ?_ ⟨later, hactive⟩
    rintro rfl
    exact UInt64.lt_irrefl _ later

theorem version_le_of_activationHeight_le (s : Schedule) (hv : v ∈ s.versions) (hw : w ∈ s.versions)
    (h : v.activationHeight ≤ w.activationHeight) : v.version ≤ w.version := by
  obtain ⟨numbered, rising⟩ := placed_iff.mp s.placed
  obtain ⟨i, hi, rfl⟩ := List.getElem_of_mem hv
  obtain ⟨j, hj, rfl⟩ := List.getElem_of_mem hw
  have order : i ≤ j := by
    by_contra before
    have lower := List.pairwise_iff_getElem.mp rising j i hj hi (by omega)
    exact UInt64.not_lt.mpr h lower
  have number_i := numbered i _ (List.getElem?_eq_getElem hi)
  have number_j := numbered j _ (List.getElem?_eq_getElem hj)
  rw [UInt64.le_iff_toNat_le, number_i, number_j]
  omega

theorem Governs.version_le {low high : UInt64} (h : s.Governs low v) (h' : s.Governs high w)
    (le : low ≤ high) : v.version ≤ w.version :=
  s.version_le_of_activationHeight_le h.mem h'.mem (h'.last v h.mem (UInt64.le_trans h.active le))

theorem versionAt?_mono {low high : UInt64} (le : low ≤ high) (h : s.versionAt? low = some v) :
    ∃ w, s.versionAt? high = some w ∧ v.version ≤ w.version := by
  have governs := versionAt?_eq_some_iff.mp h
  cases later : s.versionAt? high with
  | none =>
    have below := versionAt?_eq_none_iff.mp later v governs.mem
    exact absurd (UInt64.le_trans governs.active le) (UInt64.not_le.mpr below)
  | some w => exact ⟨w, rfl, governs.version_le (versionAt?_eq_some_iff.mp later) le⟩

theorem versionAt?_append {t : Schedule} (extended : t.versions = s.versions ++ [v]) :
    t.versionAt? height = if v.activationHeight ≤ height then some v else s.versionAt? height := by
  rw [versionAt?, versionAt?, takeWhile_active t.rising, takeWhile_active s.rising, extended,
    List.filter_append]
  by_cases active : v.activationHeight ≤ height
  · simp [active]
  · simp [active]

/-- A list of versions that was accepted answers every height with the one version that governs it, and
only heights below all of its versions with none. -/
theorem governing_version (accepted : ofVersions versions = .ok s) :
    (∀ height, s.versionAt? height = none ↔ ∀ v ∈ versions, height < v.activationHeight) ∧
    (∀ height v, s.versionAt? height = some v ↔
      v ∈ versions ∧ v.activationHeight ≤ height ∧ ∀ w ∈ versions, w ≠ v →
        ¬ (v.activationHeight < w.activationHeight ∧ w.activationHeight ≤ height)) ∧
    (∀ height, ∃ point, (∀ other, Splits versions height other ↔ other = point) ∧
      s.versionAt? height = if point = 0 then none else versions[point - 1]?) ∧
    (∀ low high, low ≤ high → ∀ v, s.versionAt? low = some v →
      ∃ w, s.versionAt? high = some w ∧ v.version ≤ w.version) ∧
    (∀ v t, ofVersions (versions ++ [v]) = .ok t → ∀ height,
      (height < v.activationHeight → t.versionAt? height = s.versionAt? height) ∧
      (v.activationHeight ≤ height → t.versionAt? height = some v)) ∧
    ∀ height, s.parametersAt height =
      ((s.versionAt? height).map (·.parameters)).elim (.error (.notFound height)) .ok := by
  obtain ⟨rfl, -⟩ := ofVersions_eq_ok_iff.mp accepted
  refine ⟨fun height => versionAt?_eq_none_iff, ?_, ?_, fun low high le v => versionAt?_mono le, ?_, ?_⟩
  · intro height v
    rw [versionAt?_eq_some_iff, governs_iff]
  · intro height
    have splits := takeWhile_splits s.rising height
    exact ⟨_, fun other => ⟨fun h => h.unique splits, fun h => h ▸ splits⟩, versionAt?_of_splits splits⟩
  · intro v t extended height
    rw [versionAt?_append (ofVersions_eq_ok_iff.mp extended).1]
    constructor
    · intro below
      rw [if_neg (UInt64.not_le.mpr below)]
    · intro active
      rw [if_pos active]
  · intro height
    unfold parametersAt
    cases s.versionAt? height with
    | none => rfl
    | some v => rfl

open Sample in
/-- The second version takes over at its own height. -/
theorem sample_governing_version :
    ofVersions [version] = .ok schedule ∧ ofVersions ([version] ++ [nextVersion]) = .ok twoVersions ∧
      schedule.versionAt? 200 = some version ∧ twoVersions.versionAt? 99 = none ∧
      twoVersions.versionAt? 199 = some version ∧ twoVersions.versionAt? 200 = some nextVersion := by
  have first : ofVersions [version] = .ok schedule := ofVersions_versions schedule
  have second : ofVersions [version, nextVersion] = .ok twoVersions := ofVersions_versions twoVersions
  obtain ⟨-, some_iff, -, -, extended, -⟩ := governing_version first
  obtain ⟨none_iff, -⟩ := governing_version second
  have governs : ∀ height, 100 ≤ height → schedule.versionAt? height = some version := by
    intro height active
    refine (some_iff height version).mpr ⟨List.mem_singleton_self _, active, ?_⟩
    intro w hw other
    exact absurd (List.mem_singleton.mp hw) other
  refine ⟨first, second, governs 200 (by decide), (none_iff 99).mpr (by decide), ?_, ?_⟩
  · rw [(extended nextVersion twoVersions second 199).1 (by decide)]
    exact governs 199 (by decide)
  · exact (extended nextVersion twoVersions second 200).2 (by decide)

end Countersign.Schedule

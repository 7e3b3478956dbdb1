import Countersign.Params.Entry
import Countersign.Proofs.FirstFailure
import Countersign.Proofs.Hex
import Countersign.Proofs.Staking.Announcing

/-!
# Entries of the parameters file

What a written version has to be like is said of the entry alone, and so is what becomes of its values.
An entry that is not like that is refused for the first of its fields that is at fault, in a fixed order;
among the keys it is the first that is no key or that stands for the same x coordinate as one before it.
-/

set_option autoImplicit false

namespace Countersign

open Outcome

namespace Hex

def Spells (text : String) (b : Bytes) : Prop := lower text = encode b

variable {text : String} {a b : Bytes}

theorem decode_eq_ok_iff_spells : decode text = .ok b ↔ Spells text b := decode_eq_ok_iff

theorem Spells.unique (h : Spells text a) (h' : Spells text b) : a = b :=
  Except.ok.inj ((decode_eq_ok_iff.mpr h).symm.trans (decode_eq_ok_iff.mpr h'))

end Hex

namespace VersionEntry

def Keys (texts : List String) (keys : List PublicKey) : Prop :=
  List.Forall₂ (fun text key => Hex.Spells text key.bytes) texts keys

theorem keys_unique {texts : List String} {keys keys' : List PublicKey} (h : Keys texts keys)
    (h' : Keys texts keys') : keys = keys' := by
  refine Relator.RightUnique.forall₂ ?_ h h'
  intro text key key' spells spells'
  exact PublicKey.bytes_injective (spells.unique spells')

/-- The entry writes this version, value by value. -/
structure Writes (e : VersionEntry) (v : ParametersVersion) : Prop where
  version : e.version = v.version
  activationHeight : e.activationHeight = v.activationHeight
  tag : Hex.Spells e.tag v.parameters.tag.bytes
  covenantKeys : Keys e.covenantKeys v.parameters.covenantKeys
  quorum : e.quorum = v.parameters.quorum
  unbondingTime : e.unbondingTime.toNat = v.parameters.unbondingTime.toNat
  unbondingFee : e.unbondingFee = v.parameters.unbondingFee
  maxAmount : e.maxAmount = v.parameters.maxAmount
  minAmount : e.minAmount = v.parameters.minAmount
  maxTime : e.maxTime.toNat = v.parameters.maxTime.toNat
  minTime : e.minTime.toNat = v.parameters.minTime.toNat
  confirmationDepth : e.confirmationDepth.toNat = v.parameters.confirmationDepth.toNat

/-- Whatever other entries there are, nothing is wrong with this one. -/
structure Sound (e : VersionEntry) : Prop where
  tag : ∃ b, Hex.Spells e.tag b ∧ b.length = 4
  committee : e.covenantKeys ≠ []
  keys : ∃ keys, Keys e.covenantKeys keys ∧ (keys.map PublicKey.xOnly).Nodup
  quorum : 1 ≤ e.quorum.toNat ∧ e.quorum.toNat ≤ e.covenantKeys.length
  unbondingTime : 1 ≤ e.unbondingTime.toNat ∧ e.unbondingTime.toNat ≤ 65535
  unbondingFee : 1 ≤ e.unbondingFee.toNat
  amounts : 1 ≤ e.minAmount.toNat ∧ e.minAmount.toNat ≤ e.maxAmount.toNat
  times : 1 ≤ e.minTime.toNat ∧ e.minTime.toNat ≤ e.maxTime.toNat ∧ e.maxTime.toNat ≤ 65535
  confirmationDepth : 1 ≤ e.confirmationDepth.toNat ∧ e.confirmationDepth.toNat ≤ 65535
  feeBound : e.unbondingFee.toNat < e.maxAmount.toNat

section Fields

variable {text : String} {tag : Tag} {key : PublicKey} {field : NarrowField} {value : UInt64}
  {n : UInt16} {fault : VersionFault}

theorem parseTag_eq_ok : parseTag text = .ok tag ↔ Hex.Spells text tag.bytes := by
  simp only [parseTag, bind_eq_ok, mapError_eq_ok, Hex.decode_eq_ok_iff_spells]
  constructor
  · rintro ⟨b, spells, h⟩
    split at h
    · rename_i mark hm
      obtain rfl := pure_eq_ok.mp h
      rwa [Tag.ofBytes?_eq_some.mp hm]
    · exact absurd h throw_ne_ok
  · intro spells
    refine ⟨tag.bytes, spells, ?_⟩
    rw [Tag.ofBytes?_bytes]
    rfl

theorem parseTag_eq_error :
    parseTag text = .error fault ↔ (∃ d, Hex.decode text = .error d ∧ .tagText d = fault) ∨
      ∃ b, Hex.Spells text b ∧ b.length ≠ 4 ∧ .tagLength b.length = fault := by
  simp only [parseTag, bind_eq_error, mapError_eq_error, mapError_eq_ok, Hex.decode_eq_ok_iff_spells]
  refine or_congr Iff.rfl (exists_congr fun b => and_congr_right fun _ => ?_)
  unfold Tag.ofBytes?
  by_cases h : b.length = 4
  · simp [h, pure_ne_error]
  · simp [h, throw, throwThe, MonadExceptOf.throw]

theorem parseKey_eq_ok : parseKey text = .ok key ↔ Hex.Spells text key.bytes := by
  simp only [parseKey, bind_eq_ok, mapError_eq_ok, Hex.decode_eq_ok_iff_spells, guard_eq_ok, not_not]
  constructor
  · rintro ⟨b, spells, length, h⟩
    split at h
    · rename_i k hk
      obtain rfl := pure_eq_ok.mp h
      rwa [← (PublicKey.ofBytes?_eq_some_iff length).mp hk]
    · exact absurd h throw_ne_ok
  · intro spells
    refine ⟨key.bytes, spells, key.bytes_length, ?_⟩
    rw [PublicKey.ofBytes?_bytes]
    rfl

theorem parseKey_eq_error :
    parseKey text = .error fault ↔ (∃ d, Hex.decode text = .error d ∧ .keyText text d = fault) ∨
      ∃ b, Hex.Spells text b ∧ ((b.length ≠ 33 ∧ .keyLength text = fault) ∨
        b.length = 33 ∧ (∀ k : PublicKey, k.bytes ≠ b) ∧ .keyPoint text = fault) := by
  simp only [parseKey, bind_eq_error, mapError_eq_error, mapError_eq_ok, Hex.decode_eq_ok_iff_spells,
    guard_eq_error, not_not]
  refine or_congr Iff.rfl (exists_congr fun b => and_congr_right fun _ => or_congr Iff.rfl
    (and_congr_right fun length => ?_))
  cases h : PublicKey.ofBytes? b with
  | none =>
    have none : ∀ k : PublicKey, k.bytes ≠ b := by
      rintro k rfl
      rw [PublicKey.ofBytes?_bytes] at h
      cases h
    simp [none, throw, throwThe, MonadExceptOf.throw]
  | some k =>
    have hk := (PublicKey.ofBytes?_eq_some_iff length).mp h
    simp only [pure_ne_error, false_iff, not_and]
    intro none
    exact absurd hk.symm (none k)

theorem narrow_eq_ok : narrow field value = .ok n ↔ value.toNat = n.toNat := by
  have hn := n.toNat_lt
  unfold narrow
  split
  · rename_i small
    rw [Except.ok.injEq, ← UInt16.toNat_inj, UInt64.toNat_toUInt16, Nat.mod_eq_of_lt small]
  · rename_i large
    refine iff_of_false nofun ?_
    intro same
    exact large (same ▸ hn)

theorem narrow_eq_error :
    narrow field value = .error fault ↔ 65535 < value.toNat ∧ .tooWide field value = fault := by
  unfold narrow
  split
  · rename_i small
    refine iff_of_false nofun ?_
    rintro ⟨large, -⟩
    exact absurd small (Nat.not_lt.mpr large)
  · rename_i large
    have wide : 65535 < value.toNat := Nat.not_lt.mp large
    simp [wide]

theorem eq_toUInt16_of_toNat_eq (h : value.toNat = n.toNat) : n = value.toUInt16 := by
  rw [← UInt16.toNat_inj, UInt64.toNat_toUInt16, h, Nat.mod_eq_of_lt n.toNat_lt]

end Fields

section Committee

variable {seen : List XOnlyKey} {texts done rest : List String} {keys : List PublicKey} {text : String}
  {fault : VersionFault}

theorem parseKeys_eq_ok :
    parseKeys seen texts = .ok keys ↔
      Keys texts keys ∧ (keys.map PublicKey.xOnly).Nodup ∧ ∀ k ∈ keys, k.xOnly ∉ seen := by
  induction texts generalizing seen keys with
  | nil =>
    simp only [parseKeys, Except.ok.injEq, Keys, List.forall₂_nil_left_iff]
    constructor
    · rintro rfl
      simp
    · rintro ⟨rfl, -⟩
      rfl
  | cons text rest ih =>
    simp only [parseKeys, bind_eq_ok, guard_eq_ok, pure_eq_ok, List.contains_iff_mem, parseKey_eq_ok, ih,
      Keys, List.forall₂_cons_left_iff]
    constructor
    · rintro ⟨key, spells, new, ks, ⟨written, nodup, fresh⟩, rfl⟩
      refine ⟨⟨key, ks, spells, written, rfl⟩, ?_, ?_⟩
      · rw [List.map_cons, List.nodup_cons, List.mem_map]
        refine ⟨?_, nodup⟩
        rintro ⟨k, hk, same⟩
        exact fresh k hk (same ▸ List.mem_cons_self)
      · refine List.forall_mem_cons.mpr ⟨new, ?_⟩
        intro k hk hs
        exact fresh k hk (List.mem_cons_of_mem _ hs)
    · rintro ⟨⟨key, ks, spells, written, rfl⟩, nodup, fresh⟩
      obtain ⟨new, fresh⟩ := List.forall_mem_cons.mp fresh
      rw [List.map_cons, List.nodup_cons, List.mem_map] at nodup
      refine ⟨key, spells, new, ks, ⟨written, nodup.2, ?_⟩, rfl⟩
      intro k hk hs
      rcases List.mem_cons.mp hs with same | hs
      · exact nodup.1 ⟨k, hk, same⟩
      · exact fresh k hk hs

def Listed (texts : List String) (x : XOnlyKey) : Prop :=
  ∃ text ∈ texts, ∃ k : PublicKey, Hex.Spells text k.bytes ∧ k.xOnly = x

theorem listed_concat {key : PublicKey} (spells : Hex.Spells text key.bytes) (x : XOnlyKey) :
    Listed (done ++ [text]) x ↔ key.xOnly = x ∨ Listed done x := by
  constructor
  · rintro ⟨other, ho, k, hk, rfl⟩
    rcases List.mem_append.mp ho with ho | ho
    · exact Or.inr ⟨other, ho, k, hk, rfl⟩
    · rw [List.mem_singleton.mp ho] at hk
      rw [PublicKey.bytes_injective (spells.unique hk)]
      exact Or.inl rfl
  · rintro (rfl | ⟨other, ho, k, hk, rfl⟩)
    · exact ⟨text, by simp, key, spells, rfl⟩
    · exact ⟨other, List.mem_append_left _ ho, k, hk, rfl⟩

/-- What is wrong with a text as a further key behind others. -/
inductive BadKey (done : List String) (text : String) : VersionFault → Prop where
  | text {d : Hex.Error} (unread : Hex.decode text = .error d) : BadKey done text (.keyText text d)
  | length {b : Bytes} (spells : Hex.Spells text b) (other : b.length ≠ 33) :
    BadKey done text (.keyLength text)
  | point {b : Bytes} (spells : Hex.Spells text b) (length : b.length = 33)
    (none : ∀ k : PublicKey, k.bytes ≠ b) : BadKey done text (.keyPoint text)
  | duplicate {key : PublicKey} (spells : Hex.Spells text key.bytes) (again : Listed done key.xOnly) :
    BadKey done text (.duplicateKey text)

def furtherKey (seen : List XOnlyKey) (text : String) : Except VersionFault PublicKey := do
  let key ← parseKey text
  if seen.contains key.xOnly then throw (.duplicateKey text)
  return key

theorem parseKeys_cons :
    parseKeys seen (text :: rest) = furtherKey seen text >>= fun key =>
      parseKeys (key.xOnly :: seen) rest >>= fun keys => pure (key :: keys) := by
  rw [parseKeys, furtherKey]
  cases parseKey text with
  | error d => rfl
  | ok key =>
    by_cases h : key.xOnly ∈ seen
    · simp [h, bind, Except.bind, throw, throwThe, MonadExceptOf.throw]
    · simp [h, bind, Except.bind, pure, Except.pure]

theorem furtherKey_eq_ok {key : PublicKey} :
    furtherKey seen text = .ok key ↔ Hex.Spells text key.bytes ∧ key.xOnly ∉ seen := by
  simp only [furtherKey, bind_eq_ok, parseKey_eq_ok, guard_eq_ok, pure_eq_ok, List.contains_iff_mem]
  constructor
  · rintro ⟨k, spells, new, rfl⟩
    exact ⟨spells, new⟩
  · rintro ⟨spells, new⟩
    exact ⟨key, spells, new, rfl⟩

theorem furtherKey_eq_error (listed : ∀ x, x ∈ seen ↔ Listed done x) :
    furtherKey seen text = .error fault ↔ BadKey done text fault := by
  simp only [furtherKey, bind_eq_error, parseKey_eq_error, parseKey_eq_ok, guard_eq_error, pure_ne_error,
    and_false, or_false, List.contains_iff_mem, listed]
  constructor
  · rintro ((⟨d, unread, rfl⟩ | ⟨b, spells, ⟨other, rfl⟩ | ⟨length, none, rfl⟩⟩) | ⟨key, spells, again, rfl⟩)
    · exact .text unread
    · exact .length spells other
    · exact .point spells length none
    · exact .duplicate spells again
  · rintro (unread | ⟨spells, other⟩ | ⟨spells, length, none⟩ | ⟨spells, again⟩)
    · exact Or.inl (Or.inl ⟨_, unread, rfl⟩)
    · exact Or.inl (Or.inr ⟨_, spells, Or.inl ⟨other, rfl⟩⟩)
    · exact Or.inl (Or.inr ⟨_, spells, Or.inr ⟨length, none, rfl⟩⟩)
    · exact Or.inr ⟨_, spells, again, rfl⟩

end Committee

inductive Concern where
  | tag
  | committee
  | key (index : ℕ)
  | quorum
  | width (field : NarrowField)
  | unbondingTime
  | unbondingFee
  | amounts
  | times
  | confirmationDepth
  | feeBound
  deriving DecidableEq

def concerns (e : VersionEntry) : List Concern :=
  .tag :: .committee :: ((List.range e.covenantKeys.length).map .key ++
    [.quorum, .width .unbondingTime, .unbondingTime, .unbondingFee, .amounts, .width .minStakingTime,
      .width .maxStakingTime, .times, .width .confirmationDepth, .confirmationDepth, .feeBound])

def limit (e : VersionEntry) : NarrowField → UInt64
  | .unbondingTime => e.unbondingTime
  | .minStakingTime => e.minTime
  | .maxStakingTime => e.maxTime
  | .confirmationDepth => e.confirmationDepth

/-- The entry is at fault in this point, whatever else is wrong with it. -/
def Faulty (e : VersionEntry) : Concern → VersionFault → Prop
  | .tag, f => (∃ d, Hex.decode e.tag = .error d ∧ .tagText d = f) ∨
      ∃ b, Hex.Spells e.tag b ∧ b.length ≠ 4 ∧ .tagLength b.length = f
  | .committee, f => e.covenantKeys = [] ∧ .noKeys = f
  | .key i, f => ∃ text, e.covenantKeys[i]? = some text ∧ BadKey (e.covenantKeys.take i) text f
  | .quorum, f => ¬ (1 ≤ e.quorum.toNat ∧ e.quorum.toNat ≤ e.covenantKeys.length) ∧
      .quorum e.quorum e.covenantKeys.length = f
  | .width field, f => 65535 < (e.limit field).toNat ∧ .tooWide field (e.limit field) = f
  | .unbondingTime, f => ¬ 1 ≤ e.unbondingTime.toNat ∧ .noUnbondingTime = f
  | .unbondingFee, f => ¬ 1 ≤ e.unbondingFee.toNat ∧ .noUnbondingFee = f
  | .amounts, f => ¬ (1 ≤ e.minAmount.toNat ∧ e.minAmount.toNat ≤ e.maxAmount.toNat) ∧
      .amountRange e.minAmount e.maxAmount = f
  | .times, f => ¬ (1 ≤ e.minTime.toNat ∧ e.minTime.toNat ≤ e.maxTime.toNat) ∧
      .timeRange e.minTime.toUInt16 e.maxTime.toUInt16 = f
  | .confirmationDepth, f => ¬ 1 ≤ e.confirmationDepth.toNat ∧ .noConfirmationDepth = f
  | .feeBound, f => ¬ e.unbondingFee.toNat < e.maxAmount.toNat ∧
      .feeTooHigh e.unbondingFee e.maxAmount = f

def FirstFault (e : VersionEntry) (f : VersionFault) : Prop :=
  ∃ before c, FirstFailure e.Faulty e.concerns before c f

variable {e : VersionEntry}

theorem parseKeys_follows {done rest : List String} {seen : List XOnlyKey}
    (split : e.covenantKeys = done ++ rest) (listed : ∀ x, x ∈ seen ↔ Listed done x) :
    Follows e.Faulty ((List.range' done.length rest.length).map .key) (parseKeys seen rest) := by
  induction rest generalizing done seen with
  | nil => exact .ok _
  | cons text rest ih =>
    have here : e.covenantKeys[done.length]? = some text := by simp [split]
    have before : e.covenantKeys.take done.length = done := by simp [split]
    rw [parseKeys_cons, List.length_cons, List.range'_succ, List.map_cons]
    refine .bind ?_ fun key admitted => ?_
    · intro f
      simp only [furtherKey_eq_error listed, Faulty, here, before, Option.some.injEq, exists_eq_left']
    · obtain ⟨spells, -⟩ := furtherKey_eq_ok.mp admitted
      have listed' : ∀ x, x ∈ key.xOnly :: seen ↔ Listed (done ++ [text]) x := by
        intro x
        rw [listed_concat spells, List.mem_cons, listed, eq_comm]
      have split' : e.covenantKeys = (done ++ [text]) ++ rest := by simp [split]
      have later := ih split' listed'
      rw [List.length_append, List.length_singleton] at later
      rw [← List.append_nil (List.map _ _)]
      exact later.append fun _ _ => .ok _

theorem committee_follows (e : VersionEntry) :
    Follows e.Faulty ((List.range e.covenantKeys.length).map .key) (parseKeys [] e.covenantKeys) := by
  have none : ∀ x : XOnlyKey, x ∈ [] ↔ Listed [] x := by simp [Listed]
  rw [List.range_eq_range']
  exact parseKeys_follows (List.nil_append _).symm none

section Bounds

theorem unmet_iff {quorum : UInt32} {members : ℕ} : quorum = 0 ∨ quorum.toNat > members ↔
    ¬ (1 ≤ quorum.toNat ∧ quorum.toNat ≤ members) := by
  rw [← UInt32.toNat_inj, UInt32.toNat_zero]
  omega

theorem eq_zero_iff {n : UInt64} : n = 0 ↔ ¬ 1 ≤ n.toNat := by
  rw [← UInt64.toNat_inj, UInt64.toNat_zero]
  omega

theorem narrow_eq_zero_iff {n : UInt16} : n = 0 ↔ ¬ 1 ≤ n.toNat := by
  rw [← UInt16.toNat_inj, UInt16.toNat_zero]
  omega

theorem outOfRange_iff {min max : UInt64} : min = 0 ∨ min > max ↔
    ¬ (1 ≤ min.toNat ∧ min.toNat ≤ max.toNat) := by
  rw [eq_zero_iff, gt_iff_lt, UInt64.lt_iff_toNat_lt]
  omega

theorem narrow_outOfRange_iff {min max : UInt16} : min = 0 ∨ min > max ↔
    ¬ (1 ≤ min.toNat ∧ min.toNat ≤ max.toNat) := by
  rw [narrow_eq_zero_iff, gt_iff_lt, UInt16.lt_iff_toNat_lt]
  omega

theorem ge_iff_not_lt {a b : UInt64} : a ≥ b ↔ ¬ a.toNat < b.toNat := by
  rw [ge_iff_le, UInt64.le_iff_toNat_le, Nat.not_lt]

end Bounds

/-- The points are looked at in order, and the first fault is reported. -/
theorem parse_follows (e : VersionEntry) : Follows e.Faulty e.concerns e.parse := by
  refine .bind (fun f => parseTag_eq_error) fun tag _ => .guard (fun f => ?_) fun _ =>
    .append e.committee_follows fun keys hkeys => .guard (fun f => ?_) fun _ =>
    .bind (fun f => narrow_eq_error) fun unbondingTime hunbonding => .guard (fun f => ?_) fun _ =>
    .guard (fun f => ?_) fun _ => .guard (fun f => ?_) fun _ =>
    .bind (fun f => narrow_eq_error) fun minTime hmin =>
    .bind (fun f => narrow_eq_error) fun maxTime hmax => .guard (fun f => ?_) fun _ =>
    .bind (fun f => narrow_eq_error) fun depth hdepth => .guard (fun f => ?_) fun _ =>
    .guard (fun f => ?_) fun _ => .ok _
  · rw [List.isEmpty_iff]
    exact Iff.rfl
  · have length := (parseKeys_eq_ok.mp hkeys).1.length_eq
    rw [← length]
    exact and_congr_left fun _ => unmet_iff
  · rw [narrow_eq_zero_iff, ← narrow_eq_ok.mp hunbonding]
    exact Iff.rfl
  · exact and_congr_left fun _ => eq_zero_iff
  · exact and_congr_left fun _ => outOfRange_iff
  · have hmin := narrow_eq_ok.mp hmin
    have hmax := narrow_eq_ok.mp hmax
    rw [Faulty, ← eq_toUInt16_of_toNat_eq hmin, ← eq_toUInt16_of_toNat_eq hmax, hmin, hmax]
    exact and_congr_left fun _ => narrow_outOfRange_iff
  · rw [narrow_eq_zero_iff, ← narrow_eq_ok.mp hdepth]
    exact Iff.rfl
  · exact and_congr_left fun _ => ge_iff_not_lt

theorem parse_eq_error_iff {f : VersionFault} : e.parse = .error f ↔ e.FirstFault f := parse_follows e f

theorem toVersion_eq_error_iff {error : ParamsError} :
    e.toVersion = .error error ↔ ∃ f, e.FirstFault f ∧ .invalid e.version f = error := by
  simp only [toVersion, bind_eq_error, mapError_eq_error, parse_eq_error_iff, pure_ne_error, and_false,
    exists_false, or_false]

theorem toVersion_eq_ok_iff {v : ParametersVersion} : e.toVersion = .ok v ↔ e.Sound ∧ e.Writes v := by
  simp only [toVersion, parse, bind_eq_ok, mapError_eq_ok, guard_eq_ok, pure_eq_ok, parseTag_eq_ok,
    parseKeys_eq_ok, narrow_eq_ok, unmet_iff, outOfRange_iff, narrow_outOfRange_iff, ge_iff_not_lt,
    not_not, List.isEmpty_iff]
  simp only [eq_zero_iff, narrow_eq_zero_iff, not_not]
  constructor
  · rintro ⟨p, ⟨tag, spells, committee, keys, ⟨written, distinct, -⟩, quorum, unbondingTime, hunbonding,
      someUnbonding, fee, amounts, minTime, hmin, maxTime, hmax, times, depth, hdepth, someDepth, feeBound,
      rfl⟩, rfl⟩
    have narrow : ∀ n : UInt16, n.toNat ≤ 65535 := fun n => Nat.le_of_lt_succ n.toNat_lt
    constructor
    · refine ⟨⟨_, spells, tag.length_eq⟩, committee, ⟨keys, written, distinct⟩,
        written.length_eq ▸ quorum, ?_, fee, amounts, ?_, ?_, feeBound⟩
      · rw [hunbonding]
        exact ⟨someUnbonding, narrow _⟩
      · rw [hmin, hmax]
        exact ⟨times.1, times.2, narrow _⟩
      · rw [hdepth]
        exact ⟨someDepth, narrow _⟩
    · exact ⟨rfl, rfl, spells, written, rfl, hunbonding, rfl, rfl, rfl, hmax, hmin, hdepth⟩
  · obtain ⟨number, height, p⟩ := v
    rintro ⟨sound, writes⟩
    obtain ⟨keys, written, distinct⟩ := sound.keys
    have same : keys = p.covenantKeys := keys_unique written writes.covenantKeys
    refine ⟨p, ⟨p.tag, writes.tag, sound.committee, p.covenantKeys, ⟨writes.covenantKeys, ?_, by simp⟩, ?_,
      p.unbondingTime, writes.unbondingTime, ?_, sound.unbondingFee, sound.amounts, p.minTime,
      writes.minTime, p.maxTime, writes.maxTime, ?_, p.confirmationDepth, writes.confirmationDepth, ?_,
      sound.feeBound, ?_⟩, ?_⟩
    · exact same ▸ distinct
    · exact writes.covenantKeys.length_eq ▸ sound.quorum
    · exact writes.unbondingTime ▸ sound.unbondingTime.1
    · rw [← writes.minTime, ← writes.maxTime]
      exact ⟨sound.times.1, sound.times.2.1⟩
    · exact writes.confirmationDepth ▸ sound.confirmationDepth.1
    · rw [writes.quorum, writes.unbondingFee, writes.maxAmount, writes.minAmount]
    · rw [writes.version, writes.activationHeight]

theorem Sound.exists_writes (sound : e.Sound) : ∃ v, e.Writes v := by
  obtain ⟨tag, spells, length⟩ := sound.tag
  obtain ⟨keys, written, -⟩ := sound.keys
  have held : ∀ value : UInt64, value.toNat ≤ 65535 → value.toNat = value.toUInt16.toNat := by
    intro value small
    rw [UInt64.toNat_toUInt16, Nat.mod_eq_of_lt (Nat.lt_succ_of_le small)]
  have minTime : e.minTime.toNat ≤ 65535 := Nat.le_trans sound.times.2.1 sound.times.2.2
  exact ⟨⟨e.version, e.activationHeight, ⟨keys, e.quorum, ⟨tag, length⟩, e.unbondingTime.toUInt16,
    e.unbondingFee, e.maxAmount, e.minAmount, e.maxTime.toUInt16, e.minTime.toUInt16,
    e.confirmationDepth.toUInt16⟩⟩, rfl, rfl, spells, written, rfl, held _ sound.unbondingTime.2, rfl, rfl,
    rfl, held _ sound.times.2.2, held _ minTime, held _ sound.confirmationDepth.2⟩

theorem sound_iff : e.Sound ↔ ∃ v, e.toVersion = .ok v := by
  simp only [toVersion_eq_ok_iff, exists_and_left]
  exact ⟨fun sound => ⟨sound, sound.exists_writes⟩, And.left⟩

end VersionEntry

end Countersign

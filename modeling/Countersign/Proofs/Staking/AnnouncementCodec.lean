import Countersign.Proofs.FirstFailure
import Countersign.Proofs.Staking.Announcing

/-!
# Which bytes announce a stake

Four things can be wrong with the bytes of an announcement: their number, the version, and either of the
two keys. Each is said of the bytes on its own, and the first that is wrong is reported. An output adds no
more to this than that its script has to push 71 bytes.
-/

set_option autoImplicit false

namespace Countersign.Announcement

open Outcome

inductive Part where
  | length
  | version
  | staker
  | finalityProvider
  deriving DecidableEq, Repr

def Part.inOrder : List Part := [.length, .version, .staker, .finalityProvider]

def stakerBytes (b : Bytes) : Bytes := (b.drop 5).take 32

def providerBytes (b : Bytes) : Bytes := (b.drop 37).take 32

/-- One part of the bytes is wrong, whatever else is. -/
inductive Flawed (b : Bytes) : Part → StakingError → Prop where
  | length (other : b.length ≠ 71) : Flawed b .length (.invalidOpReturn (.length b.length))
  | version {v : UInt8} (here : b[4]? = some v) (other : v ≠ 0) :
    Flawed b .version (.unsupportedVersion v)
  | staker (invalid : IsXOnly (stakerBytes b) = false) : Flawed b .staker (.invalidOpReturn .stakerKey)
  | finalityProvider (invalid : IsXOnly (providerBytes b) = false) :
    Flawed b .finalityProvider (.invalidOpReturn .finalityProviderKey)

structure Legible (b : Bytes) : Prop where
  length : b.length = 71
  version : b[4]? = some 0
  staker : IsXOnly (stakerBytes b) = true
  finalityProvider : IsXOnly (providerBytes b) = true

section Keys

variable {b : Bytes} {fault : OpReturnFault}

def keyIn (b : Bytes) (fault : OpReturnFault) : Except StakingError XOnlyKey :=
  (XOnlyKey.ofBytes? b).elim (.error (.invalidOpReturn fault)) .ok

theorem keyIn_eq_error {e : StakingError} :
    keyIn b fault = .error e ↔ IsXOnly b = false ∧ .invalidOpReturn fault = e := by
  unfold keyIn XOnlyKey.ofBytes?
  by_cases h : IsXOnly b = true
  · simp [h]
  · simp [h]

end Keys

section Decoding

variable {b : Bytes}

theorem exists_parts (h : b.length = size) :
    ∃ tag version rest, Tag.ofBytes? (b.take 4) = some tag ∧ b.drop 4 = version :: rest ∧
      b[4]? = some version ∧ stakerBytes b = rest.take 32 ∧
      providerBytes b = (rest.drop 32).take 32 := by
  have htag : (b.take 4).length = 4 := by
    rw [List.length_take, h, size]
    rfl
  cases hd : b.drop 4 with
  | nil =>
    have hlen := congrArg List.length hd
    rw [List.length_drop, h] at hlen
    cases hlen
  | cons version rest =>
    have hrest : b.drop 5 = rest := by
      rw [show 5 = 4 + 1 from rfl, ← List.drop_drop, hd, List.drop_one, List.tail_cons]
    refine ⟨⟨b.take 4, htag⟩, version, rest, Tag.ofBytes?_bytes ⟨b.take 4, htag⟩, rfl, ?_, ?_, ?_⟩
    · rw [← List.head?_drop, hd, List.head?_cons]
    · rw [stakerBytes, hrest]
    · rw [providerBytes, show 37 = 5 + 32 from rfl, ← List.drop_drop, hrest]

theorem decode_of_parts {tag : Tag} {version : UInt8} {rest : Bytes} (h : b.length = size)
    (htag : Tag.ofBytes? (b.take 4) = some tag) (hd : b.drop 4 = version :: rest) :
    decode b = do
      if version ≠ 0 then throw (.unsupportedVersion version)
      let staker ← keyIn (rest.take 32) .stakerKey
      let finalityProvider ← keyIn ((rest.drop 32).take 32) .finalityProviderKey
      return ⟨tag, version, staker, finalityProvider, UInt16.ofNat (Bytes.toNatBE (rest.drop 64))⟩ := by
  unfold decode keyIn
  rw [htag, hd]
  simp only [h, ne_eq, not_true_eq_false, if_false]
  by_cases hv : version = 0
  · simp only [hv, not_true_eq_false, if_false]
    cases XOnlyKey.ofBytes? (rest.take 32) with
    | none => rfl
    | some staker =>
      cases XOnlyKey.ofBytes? ((rest.drop 32).take 32) with
      | none => rfl
      | some finalityProvider => rfl
  · simp only [hv, not_false_eq_true, if_true]
    rfl

theorem decode_of_length_ne (h : b.length ≠ size) :
    decode b = .error (.invalidOpReturn (.length b.length)) := by
  unfold decode
  split
  · rw [if_pos h]
  · rfl

theorem decode_follows_of_length (h : b.length = size) :
    Follows (Flawed b) [.version, .staker, .finalityProvider] (decode b) := by
  obtain ⟨tag, version, rest, htag, hd, hversion, hstaker, hprovider⟩ := exists_parts h
  rw [decode_of_parts h htag hd]
  apply Follows.guard
  · intro e
    constructor
    · intro ⟨other, he⟩
      exact he ▸ .version hversion other
    · intro flawed
      cases flawed with
      | version here other =>
        rw [hversion, Option.some.injEq] at here
        exact ⟨here ▸ other, congrArg _ here⟩
  · intro _
    apply Follows.bind
    · intro e
      rw [keyIn_eq_error, ← hstaker]
      constructor
      · intro ⟨invalid, he⟩
        exact he ▸ .staker invalid
      · intro flawed
        cases flawed with
        | staker invalid => exact ⟨invalid, rfl⟩
    · intro staker _
      apply Follows.bind
      · intro e
        rw [keyIn_eq_error, ← hprovider]
        constructor
        · intro ⟨invalid, he⟩
          exact he ▸ .finalityProvider invalid
        · intro flawed
          cases flawed with
          | finalityProvider invalid => exact ⟨invalid, rfl⟩
      · intro finalityProvider _
        exact .ok _

theorem decode_eq_measured (b : Bytes) :
    decode b = (if b.length = size then .ok () else .error (.invalidOpReturn (.length b.length))) >>=
      fun _ => decode b := by
  by_cases h : b.length = size
  · rw [if_pos h]
    rfl
  · rw [if_neg h, decode_of_length_ne h]
    rfl

theorem decode_follows (b : Bytes) : Follows (Flawed b) Part.inOrder (decode b) := by
  rw [decode_eq_measured]
  apply Follows.bind
  · intro e
    rw [require_eq_error]
    constructor
    · intro ⟨other, he⟩
      exact he ▸ .length other
    · intro flawed
      cases flawed with
      | length other => exact ⟨other, rfl⟩
  · intro _ passed
    exact decode_follows_of_length (require_eq_ok.mp passed)

theorem legible_iff : Legible b ↔ ∀ p ∈ Part.inOrder, ∀ e, ¬ Flawed b p e := by
  constructor
  · intro h p _ e flawed
    cases flawed with
    | length other => exact other h.length
    | version here other =>
      rw [h.version, Option.some.injEq] at here
      exact other here.symm
    | staker invalid => exact absurd h.staker (Bool.eq_false_iff.mp invalid)
    | finalityProvider invalid => exact absurd h.finalityProvider (Bool.eq_false_iff.mp invalid)
  · intro h
    have length : b.length = 71 := by
      by_contra other
      exact h .length (by decide) _ (.length other)
    obtain ⟨tag, version, rest, -, -, hversion, -, -⟩ := exists_parts length
    have zero : version = 0 := by
      by_contra other
      exact h .version (by decide) _ (.version hversion other)
    constructor
    · exact length
    · rw [hversion, zero]
    · by_contra invalid
      exact h .staker (by decide) _ (.staker (Bool.eq_false_iff.mpr invalid))
    · by_contra invalid
      exact h .finalityProvider (by decide) _ (.finalityProvider (Bool.eq_false_iff.mpr invalid))

theorem decodes_iff : (∃ a, decode b = .ok a) ↔ Legible b := by
  rw [legible_iff]
  exact (decode_follows b).passed

end Decoding

section Encoding

variable (a : Announcement)

theorem encode_version : a.encode[4]? = some a.version := by
  rw [encode, List.getElem?_append_right a.tag.length_eq.le, a.tag.length_eq]
  rfl

theorem decode_encode_eq :
    decode a.encode = if a.version = 0 then .ok a else .error (.unsupportedVersion a.version) := by
  by_cases h : a.version = 0
  · rw [if_pos h, decode_encode h]
  · rw [if_neg h]
    refine (decode_follows_of_length a.encode_length _).mpr ⟨[], .version, ?_, nofun, ?_⟩
    · exact ⟨_, rfl⟩
    · exact .version a.encode_version h

theorem ofTxOut_eq (o : TxOut) :
    ofTxOut o = if o.script.length = 73 ∧ o.script.take 2 = [0x6a, 0x47] then decode (o.script.drop 2)
      else .error (.invalidOpReturn .notOpReturn) := by
  unfold ofTxOut ofScript
  split
  · rename_i payload hs
    have hlen : payload.length = size ↔ (0x6a :: 0x47 :: payload).length = 73 := by
      simp [size]
    by_cases h : payload.length = size
    · rw [if_pos h, hs, if_pos ⟨hlen.mp h, rfl⟩]
      rfl
    · rw [if_neg h, hs, if_neg fun pushed => h (hlen.mpr pushed.1)]
  · rename_i other
    rw [if_neg]
    intro pushed
    apply other (o.script.drop 2)
    rw [← List.take_append_drop 2 o.script, pushed.2]
    rfl

theorem ofTxOut_txOut_eq : ofTxOut a.txOut = decode a.encode := by
  have pushed : a.script.length = 73 ∧ a.script.take 2 = [0x6a, 0x47] := by
    constructor
    · rw [script, List.length_cons, List.length_cons, encode_length, size]
    · rfl
  rw [ofTxOut_eq, txOut, if_pos pushed]
  rfl

/-- An announcement of version 0 is read back from its bytes and from its output, and one of any other
version is refused for it. What is read had been written so, with each part in its place. Bytes are read
unless something is wrong with them, and then the first thing that is wrong is reported. -/
theorem codec_exact (o : TxOut) (b : Bytes) :
    decode a.encode = (if a.version = 0 then .ok a else .error (.unsupportedVersion a.version)) ∧
    ofTxOut a.txOut = (if a.version = 0 then .ok a else .error (.unsupportedVersion a.version)) ∧
    (ofTxOut o = .ok a ↔ a.version = 0 ∧ a.txOut.script = o.script) ∧
    (ofTxOut o = .ok a ↔ Announces o.script a) ∧
    (decode b = .ok a ↔ a.version = 0 ∧ a.encode = b) ∧
    ((∃ d, decode b = .ok d) ↔ Legible b) ∧
    Follows (Flawed b) Part.inOrder (decode b) := by
  refine ⟨a.decode_encode_eq, ?_, ?_, ofScript_eq_ok_iff_announces, ?_, decodes_iff, decode_follows b⟩
  · rw [ofTxOut_txOut_eq, decode_encode_eq]
  · rw [ofTxOut, ofScript_eq_ok, eq_comm (a := o.script)]
    rfl
  · rw [decode_eq_ok, eq_comm (a := b)]

end Encoding

end Countersign.Announcement

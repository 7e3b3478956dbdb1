import Countersign.Proofs.Bytes
import Countersign.Staking.Announcement

/-!
# Announcements and their bytes

An announcement of version 0 and its 71 bytes determine each other, and so do the announcement and
the script of its output: what is written reads back, and whatever is read had been written so.
-/

set_option autoImplicit false

namespace Countersign

theorem Tag.ofBytes?_eq_some {b : Bytes} {t : Tag} : Tag.ofBytes? b = some t ↔ t.bytes = b := by
  constructor
  · intro h
    unfold Tag.ofBytes? at h
    split_ifs at h
    cases h
    rfl
  · rintro rfl
    exact Tag.ofBytes?_bytes t

namespace Announcement

theorem encode_length (a : Announcement) : a.encode.length = size := by
  simp [encode, size, a.tag.length_eq, XOnlyKey.bytes_length, Bytes.ofNatBE_length]

theorem decode_encode {a : Announcement} (h : a.version = 0) : decode a.encode = .ok a := by
  have ht := a.tag.length_eq
  have hs := a.staker.bytes_length
  have hf := a.finalityProvider.bytes_length
  have htag : a.encode.take 4 = a.tag.bytes := by
    rw [encode, List.take_left' ht]
  have hrest : a.encode.drop 4 = a.version ::
      (a.staker.bytes ++ (a.finalityProvider.bytes ++ Bytes.ofNatBE 2 a.time.toNat)) := by
    rw [encode, List.drop_left' ht, List.append_assoc]
  have hlen : (a.staker.bytes ++ a.finalityProvider.bytes).length = 64 := by
    rw [List.length_append, hs, hf]
  have htime : UInt16.ofNat (Bytes.toNatBE (Bytes.ofNatBE 2 a.time.toNat)) = a.time := by
    rw [Bytes.toNatBE_ofNatBE a.time.toNat_lt, UInt16.ofNat_toNat]
  simp only [decode, htag, hrest, Tag.ofBytes?_bytes, encode_length, h, ne_eq, not_true_eq_false,
    if_false, List.take_left' hs, List.drop_left' hs, List.take_left' hf, XOnlyKey.ofBytes?_bytes]
  rw [← List.append_assoc, List.drop_left' hlen, htime, ← h]

theorem fields_of_rest {b rest : Bytes} {version : UInt8} (hd : b.drop 4 = version :: rest)
    (hl : b.length = size) :
    b = b.take 4 ++ version :: (rest.take 32 ++ (rest.drop 32).take 32 ++ rest.drop 64) ∧
      (rest.drop 64).length = 2 := by
  have hr : rest.length = 66 := by
    have hlen := congrArg List.length hd
    rw [List.length_drop, hl, List.length_cons, size] at hlen
    omega
  constructor
  · rw [show rest.drop 64 = (rest.drop 32).drop 32 by rw [List.drop_drop], List.append_assoc,
      List.take_append_drop, List.take_append_drop, ← hd, List.take_append_drop]
  · rw [List.length_drop, hr]

theorem encode_of_decode {a : Announcement} {b : Bytes} (h : decode b = .ok a) :
    a.version = 0 ∧ b = a.encode := by
  unfold decode at h
  split at h
  · rename_i tag version rest ht hd
    by_cases hl : b.length = size
    · by_cases hv : version = 0
      · simp only [hl, hv, ne_eq, not_true_eq_false, if_false] at h
        split at h
        · cases h
        · cases h
        · rename_i staker finalityProvider hs hf
          simp only [Except.ok.injEq] at h
          subst h
          obtain ⟨hb, h2⟩ := fields_of_rest hd hl
          have htime : Bytes.ofNatBE 2 (UInt16.ofNat (Bytes.toNatBE (rest.drop 64))).toNat =
              rest.drop 64 := by
            have hlt := Bytes.toNatBE_lt (rest.drop 64)
            rw [h2] at hlt
            rw [UInt16.toNat_ofNat', Nat.mod_eq_of_lt hlt, ← h2, Bytes.ofNatBE_toNatBE]
          constructor
          · rfl
          · rw [encode, Tag.ofBytes?_eq_some.mp ht, XOnlyKey.ofBytes?_eq_some hs,
              XOnlyKey.ofBytes?_eq_some hf, htime, ← hv]
            exact hb
      · simp [hl, hv] at h
    · simp [hl] at h
  · cases h

theorem decode_eq_ok {a : Announcement} {b : Bytes} :
    decode b = .ok a ↔ a.version = 0 ∧ b = a.encode := by
  constructor
  · exact encode_of_decode
  · intro h
    obtain ⟨h, rfl⟩ := h
    exact decode_encode h

theorem ofScript_eq_ok {a : Announcement} {s : Script} :
    ofScript s = .ok a ↔ a.version = 0 ∧ s = a.script := by
  unfold ofScript
  split
  · rename_i payload
    by_cases hl : payload.length = size
    · simp [hl, decode_eq_ok, script]
    · have hne : payload ≠ a.encode := by
        rintro rfl
        exact hl a.encode_length
      simp [hl, script, hne]
  · rename_i hs
    simp only [reduceCtorEq, false_iff]
    intro h
    obtain ⟨-, rfl⟩ := h
    exact hs _ rfl

/-- The script of an unspendable output that pushes 71 bytes: the tag, version 0, the two keys and the
time, high byte first. -/
structure Announces (s : Script) (a : Announcement) : Prop where
  length : s.length = 73
  push : s.take 2 = [0x6a, 0x47]
  tag : (s.drop 2).take 4 = a.tag.bytes
  version : (s.drop 6).take 1 = [0] ∧ a.version = 0
  staker : (s.drop 7).take 32 = a.staker.bytes
  finalityProvider : (s.drop 39).take 32 = a.finalityProvider.bytes
  time : Bytes.toNatBE (s.drop 71) = a.time.toNat

theorem announces_script {a : Announcement} (h : a.version = 0) : Announces a.script a := by
  have ht := a.tag.length_eq
  have hs := a.staker.bytes_length
  have hf := a.finalityProvider.bytes_length
  have hlength : a.script.length = 73 := by
    rw [script, List.length_cons, List.length_cons, encode_length, size]
  have h2 : a.script.drop 2 = a.encode := rfl
  have h6 : a.script.drop 6 = a.version ::
      (a.staker.bytes ++ (a.finalityProvider.bytes ++ Bytes.ofNatBE 2 a.time.toNat)) := by
    rw [show 6 = 2 + 4 from rfl, ← List.drop_drop, h2, encode, List.drop_left' ht, List.append_assoc]
  have h7 : a.script.drop 7 =
      a.staker.bytes ++ (a.finalityProvider.bytes ++ Bytes.ofNatBE 2 a.time.toNat) := by
    rw [show 7 = 6 + 1 from rfl, ← List.drop_drop, h6]
    rfl
  have h39 : a.script.drop 39 = a.finalityProvider.bytes ++ Bytes.ofNatBE 2 a.time.toNat := by
    rw [show 39 = 7 + 32 from rfl, ← List.drop_drop, h7, List.drop_left' hs]
  have h71 : a.script.drop 71 = Bytes.ofNatBE 2 a.time.toNat := by
    rw [show 71 = 39 + 32 from rfl, ← List.drop_drop, h39, List.drop_left' hf]
  refine ⟨hlength, rfl, ?_, ⟨?_, h⟩, ?_, ?_, ?_⟩
  · rw [h2, encode, List.take_left' ht]
  · rw [h6, h]
    rfl
  · rw [h7, List.take_left' hs]
  · rw [h39, List.take_left' hf]
  · rw [h71, Bytes.toNatBE_ofNatBE a.time.toNat_lt]

theorem Announces.script_eq {s : Script} {a : Announcement} (h : Announces s a) : s = a.script := by
  have htime : s.drop 71 = Bytes.ofNatBE 2 a.time.toNat := by
    have hbytes := Bytes.ofNatBE_toNatBE (s.drop 71)
    rw [List.length_drop, h.length, h.time] at hbytes
    exact hbytes.symm
  calc s = s.take 2 ++ s.drop 2 := (List.take_append_drop 2 s).symm
    _ = [0x6a, 0x47] ++ ((s.drop 2).take 4 ++ s.drop 6) := by
      rw [h.push, show 6 = 2 + 4 from rfl, ← List.drop_drop, List.take_append_drop]
    _ = [0x6a, 0x47] ++ (a.tag.bytes ++ ((s.drop 6).take 1 ++ s.drop 7)) := by
      rw [h.tag, show 7 = 6 + 1 from rfl, ← List.drop_drop, List.take_append_drop]
    _ = [0x6a, 0x47] ++ (a.tag.bytes ++ ([0] ++ ((s.drop 7).take 32 ++ s.drop 39))) := by
      rw [h.version.1, show 39 = 7 + 32 from rfl, ← List.drop_drop, List.take_append_drop]
    _ = [0x6a, 0x47] ++ (a.tag.bytes ++ ([0] ++ (a.staker.bytes ++
        ((s.drop 39).take 32 ++ s.drop 71)))) := by
      rw [h.staker, show 71 = 39 + 32 from rfl, ← List.drop_drop, List.take_append_drop]
    _ = a.script := by
      rw [h.finalityProvider, htime, script, encode, h.version.2, List.append_assoc]
      rfl

theorem ofScript_eq_ok_iff_announces {a : Announcement} {s : Script} :
    ofScript s = .ok a ↔ Announces s a := by
  rw [ofScript_eq_ok]
  constructor
  · intro h
    obtain ⟨h, rfl⟩ := h
    exact announces_script h
  · intro h
    exact ⟨h.version.2, h.script_eq⟩

theorem ofTxOut_txOut {a : Announcement} (h : a.version = 0) : ofTxOut a.txOut = .ok a :=
  ofScript_eq_ok.mpr ⟨h, rfl⟩

end Announcement

end Countersign

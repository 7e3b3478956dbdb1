import Countersign.Proofs.Tapscript.Number

/-!
# Evaluating tapscript

A script is read into instructions, and these run on a stack of byte strings whose top stands first.
Covered are pushes and the opcodes that leaf scripts use; any other byte stops the evaluation. Which
signatures are good and which relative lock times are met is left open, and nothing bounds the size of
scripts, stacks or elements. A script succeeds when it leaves one element and that element is true.
-/

set_option autoImplicit false

namespace Countersign.Tapscript

inductive Instruction where
  | push (b : Bytes)
  | op (o : Script.Opcode)
  deriving DecidableEq

def opcode? (b : UInt8) : Option Script.Opcode :=
  if b = 0xac then some .checkSig
  else if b = 0xad then some .checkSigVerify
  else if b = 0xba then some .checkSigAdd
  else if b = 0x9c then some .numEqual
  else if b = 0x9d then some .numEqualVerify
  else if b = 0xb2 then some .checkSequenceVerify
  else none

def longPush? (width : ℕ) (b : Bytes) : Option (Instruction × Bytes) := do
  let (length, rest) ← Bytes.split? width b
  let (data, rest) ← Bytes.split? length.toNatLE rest
  return (.push data, rest)

def next? : Bytes → Option (Instruction × Bytes)
  | [] => none
  | b :: rest =>
    if b ≤ 0x4b then (Bytes.split? b.toNat rest).map fun (data, rest) => (.push data, rest)
    else if b = 0x4c then longPush? 1 rest
    else if b = 0x4d then longPush? 2 rest
    else if b = 0x4e then longPush? 4 rest
    else if b = 0x4f then some (.push (writeNumber (-1)), rest)
    else if 0x51 ≤ b ∧ b ≤ 0x60 then some (.push (writeNumber (b.toNat - 0x50)), rest)
    else (opcode? b).map fun o => (.op o, rest)

theorem split?_length {n : ℕ} {b data rest : Bytes} (h : Bytes.split? n b = some (data, rest)) :
    rest.length ≤ b.length := by
  obtain ⟨rfl, -⟩ := Bytes.append_of_split? h
  simp

theorem longPush?_length {width : ℕ} {b rest : Bytes} {i : Instruction}
    (h : longPush? width b = some (i, rest)) : rest.length ≤ b.length := by
  simp only [longPush?, Option.bind_eq_bind, Option.bind_eq_some_iff, Option.pure_def,
    Option.some.injEq, Prod.mk.injEq, Prod.exists] at h
  obtain ⟨length, r, hl, data, t, hd, -, rfl⟩ := h
  exact (split?_length hd).trans (split?_length hl)

theorem next?_length {s rest : Bytes} {i : Instruction} (h : next? s = some (i, rest)) :
    rest.length < s.length := by
  cases s with
  | nil => simp [next?] at h
  | cons b r =>
    rw [List.length_cons, Nat.lt_succ_iff]
    simp only [next?] at h
    split_ifs at h
    · obtain ⟨⟨data, t⟩, hd, he⟩ := Option.map_eq_some_iff.mp h
      cases he
      exact split?_length hd
    · exact longPush?_length h
    · exact longPush?_length h
    · exact longPush?_length h
    · cases h
      exact le_refl _
    · cases h
      exact le_refl _
    · obtain ⟨o, -, he⟩ := Option.map_eq_some_iff.mp h
      cases he
      exact le_refl _

/-- A script as instructions, unless some push lacks data or some byte is no opcode. -/
def read (s : Script) : Option (List Instruction) :=
  match s with
  | [] => some []
  | b :: r =>
    match h : next? (b :: r) with
    | none => none
    | some (i, rest) =>
      have _shorter : rest.length ≤ r.length := Nat.le_of_lt_succ (next?_length h)
      (read rest).map (i :: ·)
termination_by s.length

abbrev Stack := List Bytes

/-- What an evaluation depends on besides script and stack. -/
structure Setting where
  valid : (key signature : Bytes) → Bool
  matured : ℕ → Bool

def ofBool (b : Bool) : Bytes := if b then [1] else []

namespace Setting

variable (c : Setting)

/-- Nothing in place of a signature is a no, and a signature that is not valid stops everything. Keys
of another size than 32 bytes are kept for later use and accept any signature. -/
def check (key signature : Bytes) : Option Bool :=
  if key = [] then none
  else if signature = [] then some false
  else if key.length ≠ 32 ∨ c.valid key signature then some true
  else none

def step : Instruction → Stack → Option Stack
  | .push b, s => some (b :: s)
  | .op .checkSig, key :: sig :: s => (c.check key sig).map fun ok => ofBool ok :: s
  | .op .checkSigVerify, key :: sig :: s => (c.check key sig).bind fun ok => if ok then some s else none
  | .op .checkSigAdd, key :: n :: sig :: s => do
    let n ← readNumber 4 n
    let ok ← c.check key sig
    return writeNumber (if ok then n + 1 else n) :: s
  | .op .numEqual, b :: a :: s => do
    let b ← readNumber 4 b
    let a ← readNumber 4 a
    return ofBool (a = b) :: s
  | .op .numEqualVerify, b :: a :: s => do
    let b ← readNumber 4 b
    let a ← readNumber 4 a
    if a = b then some s else none
  | .op .checkSequenceVerify, n :: s => do
    let k ← readNumber 5 n
    if k < 0 then none
    else if k.toNat.testBit 31 || c.matured k.toNat then some (n :: s)
    else none
  | .op _, _ => none

def run : List Instruction → Stack → Option Stack
  | [], s => some s
  | i :: is, s => (c.step i s).bind (run is)

def accepts (script : Script) (witness : Stack) : Bool :=
  match (read script).bind fun is => c.run is witness with
  | some [b] => isTrue b
  | _ => false

theorem run_append (is js : List Instruction) (s : Stack) :
    c.run (is ++ js) s = (c.run is s).bind (c.run js) := by
  induction is generalizing s with
  | nil => rfl
  | cons i is ih =>
    cases h : c.step i s with
    | none => simp [run, h]
    | some t => simp [run, h, ih]

end Setting

end Countersign.Tapscript

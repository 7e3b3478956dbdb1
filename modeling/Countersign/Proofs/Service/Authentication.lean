import Countersign.Proofs.Hex
import Countersign.Service.Auth

/-!
# Codes that are accepted

Under a key one code belongs to each body, and a request is authentic if it carries that code in either case.
Any other is refused for what is wrong with it.
-/

set_option autoImplicit false

namespace Countersign.Auth

open Outcome

variable {key : String} {body : Bytes} {provided : Option String}

/-- What is wrong with the code that is carried, if one is. -/
inductive Refused (key : String) (body : Bytes) (provided : Option String) : AuthError → Prop where
  | missing (absent : provided = none ∨ provided = some "") : Refused key body provided .missing
  | invalid {code : String} (carried : provided = some code) (nonempty : code ≠ "")
      (other : Hex.lower code ≠ generate key body) : Refused key body provided .invalid

theorem lower_generate (key : String) (body : Bytes) :
    Hex.lower (generate key body) = generate key body := Hex.lower_encode _

theorem length_generate (key : String) (body : Bytes) : (generate key body).length = 64 := by
  rw [generate, Hex.length_encode, Hmac.mac_length]

theorem generate_ne_empty (key : String) (body : Bytes) : generate key body ≠ "" := by
  intro h
  have length := length_generate key body
  rw [h] at length
  cases length

theorem validate_some (code : String) :
    validate key body (some code) = if code = "" then .error .missing
      else if Hex.lower code = generate key body then .ok () else .error .invalid := by
  simp only [generate, ← Hex.decode?_eq_some_iff]
  rfl

theorem validate_eq_ok_iff :
    validate key body provided = .ok () ↔
      ∃ code, provided = some code ∧ Hex.lower code = generate key body := by
  cases provided with
  | none => simp [validate]
  | some code =>
    rw [validate_some]
    by_cases empty : code = ""
    · subst empty
      simp only [if_true, reduceCtorEq, Option.some.injEq, exists_eq_left', false_iff]
      exact (generate_ne_empty key body).symm
    · simp [empty]

theorem validate_eq_error_iff {e : AuthError} :
    validate key body provided = .error e ↔ Refused key body provided e := by
  constructor
  · intro h
    cases provided with
    | none =>
      cases h
      exact .missing (.inl rfl)
    | some code =>
      rw [validate_some] at h
      by_cases empty : code = ""
      · rw [if_pos empty] at h
        cases h
        exact .missing (.inr (congrArg some empty))
      · rw [if_neg empty, require_eq_error] at h
        obtain ⟨other, rfl⟩ := h
        exact .invalid rfl empty other
  · intro h
    cases h with
    | missing absent =>
      rcases absent with rfl | rfl
      · rfl
      · rfl
    | invalid carried nonempty other =>
      rw [carried, validate_some, if_neg nonempty, if_neg other]

theorem length_of_accepted {code : String} (accepted : validate key body (some code) = .ok ()) :
    code.toList.length = 64 := by
  obtain ⟨_, carried, same⟩ := validate_eq_ok_iff.mp accepted
  obtain rfl := Option.some.inj carried
  rw [String.length_toList, ← Hex.length_lower, same, length_generate]

/-- Of all texts, under keys of any length, the code is accepted and what differs from it in case alone. A
text that starts with an accepted one, or that one starts with, is not accepted unless it is the same. There
are two ways to be refused. -/
theorem acceptance_exact (key : String) (body : Bytes) :
    (Hmac.block (Utf8.encode key)).length = 64 ∧
    (∀ code, validate key body (some code) = .ok () ↔ Hex.lower code = generate key body) ∧
    (∀ code other, validate key body (some code) = .ok () →
      code.toList <+: other.toList ∨ other.toList <+: code.toList →
      (validate key body (some other) = .ok () ↔ other = code)) ∧
    ∀ provided e, validate key body provided = .error e ↔ Refused key body provided e := by
  refine ⟨Hmac.block_length _, ?_, ?_, fun provided e => validate_eq_error_iff⟩
  · intro code
    simp only [validate_eq_ok_iff, Option.some.injEq, exists_eq_left']
  · intro code other accepted related
    constructor
    · intro also
      have length := (length_of_accepted accepted).trans (length_of_accepted also).symm
      cases related with
      | inl longer => exact String.toList_inj.mp (longer.eq_of_length length).symm
      | inr shorter => exact String.toList_inj.mp (shorter.eq_of_length length.symm)
    · intro same
      rw [same]
      exact accepted

example : generate "Jefe" (Utf8.encode "what do ya want for nothing?") =
    "5bdcc146bf60754e6a042426089575c75a003f089d2739839dec58b964ec3843" := by decide +kernel

end Countersign.Auth

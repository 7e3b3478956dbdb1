import Countersign.Params.Parameters

/-!
# Schedules

A schedule is a list of versions numbered from 0 whose activation heights strictly increase. The
version that governs a height is the last one that activates no later.
-/

set_option autoImplicit false

namespace Countersign

namespace Schedule

/-- The first version that is out of its number or does not activate above the one before it. -/
def misplaced? (index : Nat) (previous : Option UInt64) : List ParametersVersion → Option ParamsError
  | [] => none
  | v :: rest =>
    if v.version.toNat ≠ index then some (.invalid v.version (.numbering index))
    else
      match previous with
      | some height =>
        if v.activationHeight ≤ height then
          some (.invalid v.version (.activation v.activationHeight height))
        else misplaced? (index + 1) (some v.activationHeight) rest
      | none => misplaced? (index + 1) (some v.activationHeight) rest

end Schedule

structure Schedule where
  versions : List ParametersVersion
  nonempty : versions ≠ []
  placed : Schedule.misplaced? 0 none versions = none

namespace Schedule

def ofVersions (versions : List ParametersVersion) : Except ParamsError Schedule :=
  if nonempty : versions ≠ [] then
    match placed : misplaced? 0 none versions with
    | some e => .error e
    | none => .ok ⟨versions, nonempty, placed⟩
  else .error .empty

def versionAt? (s : Schedule) (height : UInt64) : Option ParametersVersion :=
  (s.versions.takeWhile fun v => v.activationHeight ≤ height).getLast?

def parametersAt (s : Schedule) (height : UInt64) : Except ParamsError Parameters :=
  match s.versionAt? height with
  | some v => .ok v.parameters
  | none => .error (.notFound height)

end Schedule

end Countersign

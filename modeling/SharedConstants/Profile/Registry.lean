import SharedConstants.Diagnostic.Misuse
import SharedConstants.Profile

/-!
# Profile registries

A registry holds the profiles of a run. It tells how a profile spells the values of a type:
the profile's rule for the type lies over the profile's defaults, and these lie over the
system's settings. If coverage is required, a type without a rule is a fault.
-/
namespace SharedConstants

/-- How a profile spells the values of a type and the type itself. -/
structure EffectiveFormat where
  typeToken : String
  settings : FormatSettings
  deriving DecidableEq, Repr

/-- An effective format as a rule that sets everything. -/
def EffectiveFormat.toRule (f : EffectiveFormat) : FormatRule :=
  { FormatRule.ofSettings f.settings with typeName := some f.typeToken }

namespace Profile

/-- The layers of a profile for a type, with the rule for the type on top. -/
def layered (p : Profile) (override : FormatRule) : FormatRule :=
  (FormatRule.system.merged p.defaults).merged override

/-- Settles the layers of a profile. A type that no layer renames keeps its name. -/
def settled (p : Profile) (typeName : Option String) (override : FormatRule) :
    EffectiveFormat where
  typeToken := (p.layered override).typeName.getD (typeName.getD "")
  settings := (p.layered override).settle

/-- How a profile spells the values of a type, or values without one. -/
def effectiveFormat (coverage : Bool) (p : Profile) (typeName : Option String) :
    Except Diagnostic EffectiveFormat :=
  match typeName with
  | none => .ok (p.settled none {})
  | some t =>
    match p.override? t with
    | some override => .ok (p.settled (some t) override)
    | none =>
      if coverage then .error { fault := .unknownTypeInProfile t, profile := some p.name }
      else .ok (p.settled (some t) {})

end Profile

structure ProfileRegistry where
  profiles : List Profile := []
  coverage : Bool := false

namespace ProfileRegistry

def names (r : ProfileRegistry) : List String := r.profiles.map Profile.name

/-- A registry of profiles with distinct names. -/
def ofProfiles (profiles : List Profile) (coverage : Bool) : Except Misuse ProfileRegistry :=
  match duplicate? [] profiles with
  | some name => .error (.profileTaken name)
  | none => .ok ⟨profiles, coverage⟩
where
  /-- The first name that has occurred before. -/
  duplicate? (seen : List String) : List Profile → Option String
    | [] => none
    | p :: rest =>
      if seen.contains p.name then some p.name else duplicate? (p.name :: seen) rest

def find? (r : ProfileRegistry) (name : String) : Option Profile :=
  r.profiles.find? (·.name == name)

def get (r : ProfileRegistry) (name : String) : Except Diagnostic Profile :=
  match r.find? name with
  | some p => .ok p
  | none => .error (.unknownProfile name r.names)

end ProfileRegistry

end SharedConstants

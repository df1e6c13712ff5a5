import SharedConstants.Format.Radix

/-!
# Format rules

A rule says how values of a type are spelled in a profile. Every field may be left unset, and
rules are layered: a field set on the upper rule wins over the lower one. Under all layers
lie the system's settings, which leave nothing unset.
-/
namespace SharedConstants

/-- One layer of settings. -/
structure FormatRule where
  typeName : Option String := none
  radix : Option Radix := none
  groupWidth : Option Int := none
  groupSeparator : Option String := none
  zeroPad : Option Int := none
  omitMark : Option Bool := none
  boolean : Option (String × String) := none
  leading : Option String := none
  trailing : Option String := none
  imports : Option (List String) := none
  deriving DecidableEq, Repr, Inhabited

structure FormatSettings where
  radix : Radix := .decimal
  groupWidth : Int := 0
  groupSeparator : String := "_"
  zeroPad : Int := 0
  omitMark : Bool := false
  boolean : String × String := ("true", "false")
  leading : String := ""
  trailing : String := ""
  imports : List String := []
  deriving DecidableEq, Repr

namespace FormatRule

/-- Lays a rule over another. -/
def merged (lower upper : FormatRule) : FormatRule where
  typeName := upper.typeName <|> lower.typeName
  radix := upper.radix <|> lower.radix
  groupWidth := upper.groupWidth <|> lower.groupWidth
  groupSeparator := upper.groupSeparator <|> lower.groupSeparator
  zeroPad := upper.zeroPad <|> lower.zeroPad
  omitMark := upper.omitMark <|> lower.omitMark
  boolean := upper.boolean <|> lower.boolean
  leading := upper.leading <|> lower.leading
  trailing := upper.trailing <|> lower.trailing
  imports := upper.imports <|> lower.imports

def isEmpty (r : FormatRule) : Bool := r = {}

/-- Settings as a rule that sets everything but a type name. -/
def ofSettings (s : FormatSettings) : FormatRule where
  radix := some s.radix
  groupWidth := some s.groupWidth
  groupSeparator := some s.groupSeparator
  zeroPad := some s.zeroPad
  omitMark := some s.omitMark
  boolean := some s.boolean
  leading := some s.leading
  trailing := some s.trailing
  imports := some s.imports

/-- The lowest layer. -/
def system : FormatRule := ofSettings {}

/-- The settings of a rule over the lowest layer. -/
def settle (r : FormatRule) : FormatSettings where
  radix := r.radix.getD .decimal
  groupWidth := r.groupWidth.getD 0
  groupSeparator := r.groupSeparator.getD "_"
  zeroPad := r.zeroPad.getD 0
  omitMark := r.omitMark.getD false
  boolean := r.boolean.getD ("true", "false")
  leading := r.leading.getD ""
  trailing := r.trailing.getD ""
  imports := r.imports.getD []

end FormatRule

end SharedConstants

import SharedConstants.Text.Blank

/-!
# Radices

Integers are written in one of four radices. All but decimal have a mark that stands in
front of the digits.
-/
namespace SharedConstants

inductive Radix
  | binary
  | octal
  | decimal
  | hexadecimal
  deriving DecidableEq, Repr

namespace Radix

def base : Radix → Nat
  | .binary => 2
  | .octal => 8
  | .decimal => 10
  | .hexadecimal => 16

/-- The mark in front of the digits. -/
def mark : Radix → List Char
  | .binary => ['0', 'b']
  | .octal => ['0', 'o']
  | .decimal => []
  | .hexadecimal => ['0', 'x']

def ofBase? (n : Nat) : Option Radix :=
  [Radix.binary, .octal, .decimal, .hexadecimal].find? (·.base == n)

/-- The radix that a document names, in full or shortened. -/
def ofText? (text : String) : Option Radix :=
  let key := Text.keyword text
  if key = "bin" ∨ key = "binary" then some .binary
  else if key = "oct" ∨ key = "octal" then some .octal
  else if key = "dec" ∨ key = "decimal" then some .decimal
  else if key = "hex" ∨ key = "hexadecimal" then some .hexadecimal
  else none

end Radix

end SharedConstants

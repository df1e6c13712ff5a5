/-!
# Operand counts

How many operands an operator takes: at least some number, and possibly at most another.
-/
namespace SharedConstants

/-- The operand counts that an operator accepts. -/
structure Arity where
  least : Nat
  most : Option Nat
  deriving DecidableEq, Repr

namespace Arity

def exactly (n : Nat) : Arity := ⟨n, some n⟩

def atLeast (n : Nat) : Arity := ⟨n, none⟩

def accepts (a : Arity) (count : Nat) : Bool :=
  a.least ≤ count && a.most.all (count ≤ ·)

theorem accepts_iff {a : Arity} {count : Nat} :
    a.accepts count = true ↔ a.least ≤ count ∧ ∀ most ∈ a.most, count ≤ most := by
  obtain ⟨least, most⟩ := a
  cases most <;> simp [accepts]

@[simp] theorem accepts_exactly {n count : Nat} :
    (exactly n).accepts count = true ↔ n = count := by
  rw [accepts_iff]
  simp [exactly]
  omega

@[simp] theorem accepts_atLeast {n count : Nat} :
    (atLeast n).accepts count = true ↔ n ≤ count := by
  rw [accepts_iff]
  simp [atLeast]

def text (a : Arity) : String :=
  match a.most with
  | none => s!"at least {a.least}"
  | some most =>
    if most = a.least then s!"exactly {a.least}" else s!"between {a.least} and {most}"

end Arity

end SharedConstants

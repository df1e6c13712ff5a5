import SharedConstants.Proofs.Constant.Resolution

/-!
# Reordered constants

Constants may be declared in another order and under other ordinals. What they declare stays: the
names, the references between them and the equations for their values.
-/
namespace SharedConstants

open Constant (Refers byOrdinal)

namespace Constant

/-- A constant without its place among the declarations. -/
def unnumbered (c : Constant) : Constant := { c with ordinal := 0 }

end Constant

/-- The same constants in any order and with any ordinals. -/
def Reordered (constants constants' : List Constant) : Prop :=
  (constants.map Constant.unnumbered).Perm (constants'.map Constant.unnumbered)

variable {types : TypeRegistry} {ops : OperatorRegistry} {constants constants' : List Constant}
  {values : Valuation}

theorem reordered_of_perm (h : constants.Perm constants') : Reordered constants constants' :=
  h.map Constant.unnumbered

theorem Reordered.symm (h : Reordered constants constants') : Reordered constants' constants :=
  List.Perm.symm h

theorem Reordered.names (h : Reordered constants constants') :
    (constants.map Constant.name).Perm (constants'.map Constant.name) := by
  have hnames := List.Perm.map Constant.name h
  rw [List.map_map, List.map_map] at hnames
  exact hnames

/-- What a constant declares stands in every reordering. -/
theorem Reordered.exists_mem (h : Reordered constants constants') {c : Constant}
    (hc : c ∈ constants) :
    ∃ c' ∈ constants', c'.name = c.name ∧ c'.expr = c.expr ∧ c'.typeName = c.typeName := by
  obtain ⟨c', hc', heq⟩ := List.mem_map.mp (h.mem_iff.mp (List.mem_map_of_mem hc))
  simp only [Constant.unnumbered, Constant.mk.injEq] at heq
  exact ⟨c', hc', heq.1, heq.2.2.1, heq.2.1⟩

theorem Constant.fits_congr {c c' : Constant} {v : Value} (hname : c'.name = c.name)
    (htype : c'.typeName = c.typeName) (h : c'.Fits types v) : c.Fits types v := by
  intro t ht
  refine h t ?_
  rwa [lookupType, hname, htype]

theorem Reordered.refers_of_refers (h : Reordered constants constants') {a b : String}
    (hab : Refers constants a b) : Refers constants' a b := by
  obtain ⟨c, hc, rfl, hmentions⟩ := hab
  obtain ⟨c', hc', hname, hexpr, _⟩ := h.exists_mem hc
  exact ⟨c', hc', hname, hexpr ▸ hmentions⟩

theorem Reordered.evaluated (h : Reordered constants constants')
    (hvalues : Evaluated types ops constants values) : Evaluated types ops constants' values where
  defined name := (hvalues.defined name).trans h.names.mem_iff
  equations c' hc' := by
    obtain ⟨c, hc, hname, hexpr, _⟩ := h.symm.exists_mem hc'
    exact hname ▸ hexpr ▸ hvalues.equations c hc
  fits c' hc' v hv := by
    obtain ⟨c, hc, hname, _, htype⟩ := h.symm.exists_mem hc'
    exact Constant.fits_congr hname htype (hvalues.fits c hc v (hname.symm ▸ hv))

theorem reordered_byOrdinal (constants : List Constant) :
    Reordered (byOrdinal constants) constants :=
  reordered_of_perm (Constant.byOrdinal_isStableSort constants).perm

end SharedConstants

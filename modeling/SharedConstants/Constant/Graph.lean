import SharedConstants.Constant

/-!
# Dependencies

Constants form a graph with an edge from each to the constants its expression refers to. A
depth-first search from the declarations in order finds a cycle if there is one. It keeps the
path that it is on, with the edges still to be followed from each name. Without a cycle the
constants can be evaluated one after another. Of those whose dependencies are all done, the
earliest declared comes next: the number of dependencies that a constant waits for is counted
down, and a constant that waits for none any more enters a queue by its place.
-/
namespace SharedConstants

/-- Names with the names each depends on, in the order of their declaration. -/
abbrev Links := List (String × List String)

namespace Links

def names (links : Links) : List String := links.map Prod.fst

def dependencies (links : Links) (name : String) : List String :=
  (links.lookup name).getD []

/-- What the search for a cycle knows of a name that it has met. -/
inductive Mark
  | onPath
  | done

/-- The search under way: the marks of names, the latest first, and the path to the current
name, innermost first, where each name has the edges that are still to be followed from it. -/
structure Walk where
  marks : List (String × Mark)
  path : List (String × List String)

namespace Walk

def names (w : Walk) : List String := w.path.map Prod.fst

def mark? (w : Walk) (name : String) : Option Mark := w.marks.lookup name

/-- Goes on to a name. -/
def enter (links : Links) (w : Walk) (name : String) : Walk where
  marks := (name, .onPath) :: w.marks
  path := (name, links.dependencies name) :: w.path

/-- The part of the path from a name inwards. -/
def cycleAt (w : Walk) (name : String) : List String :=
  w.names.reverse.drop (w.names.reverse.idxOf name)

/-- Follows the next edge of the current name, or leaves the name if it has none. An edge to a
name on the path closes a cycle. -/
def advance (links : Links) (w : Walk) : Except (List String) Walk :=
  match w.path with
  | [] => .ok w
  | (name, []) :: outer => .ok { marks := (name, .done) :: w.marks, path := outer }
  | (name, child :: rest) :: outer =>
    let w := { w with path := (name, rest) :: outer }
    match w.mark? child with
    | some .onPath => .error (w.cycleAt child)
    | some .done => .ok w
    | none => .ok (w.enter links child)

def run (links : Links) : Nat → Walk → Except (List String) Walk
  | 0, w => .ok w
  | steps + 1, w =>
    match w.advance links with
    | .ok w => run links steps w
    | .error cycle => .error cycle

end Walk

/-- The number of names and edges. A search follows each edge and leaves each name once, so it
takes no more steps. -/
def size : Links → Nat
  | [] => 0
  | (_, deps) :: links => deps.length + 1 + size links

/-- Searches from a name unless it has been met. -/
def searchFrom (links : Links) (w : Walk) (root : String) : Except (List String) Walk :=
  match w.mark? root with
  | some _ => .ok w
  | none => (w.enter links root).run links links.size

def search (links : Links) (roots : List String) : Except (List String) Walk :=
  roots.foldlM links.searchFrom ⟨[], []⟩

/-- The first cycle that the search meets. -/
def findCycle? (links : Links) : Option (List String) :=
  match links.search links.names with
  | .ok _ => none
  | .error cycle => some cycle

/-- The names that depend on a name, once for each time that they do. -/
def dependents (links : Links) (name : String) : List String :=
  links.flatMap fun (other, deps) => (deps.filter (· == name)).map fun _ => other

/-- Names with their places, by place. -/
abbrev Queue := List (Nat × String)

def Queue.push (entry : Nat × String) : Queue → Queue
  | [] => [entry]
  | first :: rest =>
    if entry.1 ≤ first.1 then entry :: first :: rest else first :: Queue.push entry rest

/-- The order under way: for each name how many of its dependencies are not done yet, and the
names that can be taken, by the place of their declaration. -/
structure Agenda where
  degrees : List (String × Int)
  ready : Queue

namespace Agenda

/-- What there is at the beginning. -/
def start (links : Links) : Agenda :=
  let degrees := links.map fun entry => (entry.1, (entry.2.length : Int))
  let free := (degrees.filter (·.2 == 0)).map fun entry => (links.names.idxOf entry.1, entry.1)
  { degrees, ready := free.foldr Queue.push [] }

/-- One dependency of a name is done. With the last one the name can be taken. -/
def release (links : Links) (a : Agenda) (name : String) : Agenda :=
  let degrees := a.degrees.map fun entry =>
    (entry.1, if entry.1 == name then entry.2 - 1 else entry.2)
  if degrees.lookup name = some 0 then
    { degrees, ready := a.ready.push (links.names.idxOf name, name) }
  else { a with degrees }

/-- Takes names as long as there are any that can be taken. -/
def run (links : Links) : Nat → Agenda → List String
  | 0, _ => []
  | steps + 1, a =>
    match a.ready with
    | [] => []
    | (_, name) :: ready =>
      name :: run links steps ((links.dependents name).foldl (release links) { a with ready })

end Agenda

/-- The order of evaluation. No name is taken twice, which bounds the number of steps. -/
def evaluationOrder (links : Links) : Except Diagnostic (List String) :=
  let order := (Agenda.start links).run links links.length
  if order.length = links.length then .ok order
  else
    let stuck := links.names.filter fun name => !order.contains name
    .error (.cyclicDependency (links.findCycle?.getD stuck))

end Links

structure DependencyGraph where
  constants : List Constant
  names_nodup : (constants.map Constant.name).Nodup

namespace DependencyGraph

/-- The first constant whose name is among those seen before it. -/
def firstRepeated? (seen : List String) : List Constant → Option Constant
  | [] => none
  | c :: rest => if c.name ∈ seen then some c else firstRepeated? (c.name :: seen) rest

theorem nodup_of_firstRepeated?_eq_none {seen : List String} {constants : List Constant}
    (h : firstRepeated? seen constants = none) :
    (constants.map Constant.name).Nodup ∧ ∀ c ∈ constants, c.name ∉ seen := by
  induction constants generalizing seen with
  | nil => simp
  | cons c rest ih =>
    simp only [firstRepeated?] at h
    split at h
    · cases h
    · obtain ⟨hn, hs⟩ := ih h
      refine ⟨?_, ?_⟩
      · simp only [List.map_cons, List.nodup_cons, List.mem_map, not_exists, not_and]
        refine ⟨fun d hd hc => hs d hd (by simp [hc]), hn⟩
      · intro d hd
        rcases List.mem_cons.mp hd with rfl | hd
        · assumption
        · exact fun hm => hs d hd (List.mem_cons_of_mem _ hm)

/-- The graph of constants, unless a name is declared twice. -/
def ofConstants (constants : List Constant) : Except Diagnostic DependencyGraph :=
  match h : firstRepeated? [] constants with
  | some c => .error ((Diagnostic.duplicateConstant c.name).attach none none c.source? none)
  | none => .ok ⟨constants, (nodup_of_firstRepeated?_eq_none h).1⟩

def names (g : DependencyGraph) : List String := g.constants.map Constant.name

def find? (g : DependencyGraph) (name : String) : Option Constant :=
  g.constants.find? (·.name == name)

/-- The edges of the graph. -/
def links (g : DependencyGraph) : Links :=
  g.constants.map fun c => (c.name, c.expr.references)

/-- A reference of a constant to an undeclared name. -/
def unknownReference (c : Constant) (name : String) (span : Span) : Diagnostic :=
  { fault := .unknownReference name
    constant := some c.name
    source := c.source?
    span := c.source?.map fun _ => span }

/-- The first reference of a constant to a name that is not declared. -/
def undeclared? (declared : List String) (c : Constant) : Option Diagnostic :=
  (c.expr.referenceNodes.find? fun (name, _) => !declared.contains name).map
    fun (name, span) => unknownReference c name span

/-- Checks that every reference is to a declared constant. -/
def validate (g : DependencyGraph) : Except Diagnostic Unit :=
  match g.constants.findSome? (undeclared? g.names) with
  | some d => .error d
  | none => .ok ()

end DependencyGraph

end SharedConstants

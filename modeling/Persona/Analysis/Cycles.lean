import Persona.Personality

/-!
# Cycles of the connection graph

The domains and the names that connections mention are the nodes of a graph, the
connections its edges. A walk in depth first order meets a cycle whenever an edge
leads back to the path it is on. A cycle is shown from its smallest name on, with
that name repeated at the end, and each one met is shown once.

A walk that has finished with a node does not enter it again, so on a graph with
cycles that share nodes some are not met.
-/

namespace Persona.Cycles

/-- The nodes of the connection graph, in order of their first mention. -/
def nodes (p : Personality) : List Text :=
  (p.knowledge.map Domain.name ++ p.connections.flatMap fun c =>
    [c.source, c.target]).eraseDups

/-- The targets of the connections that leave a node. -/
def successors (p : Personality) (node : Text) : List Text :=
  (p.connections.filter fun c => c.source == node).map Connection.target

/-- The place of the smallest name; of equal ones the first. -/
def smallest (names : List Text) : Nat :=
  (names.zipIdx.foldl
    (fun (best : Text × Nat) (name, place) =>
      if name.before best.1 then (name, place) else best)
    (names.head?.getD [], 0)).2

/-- The cycle from its smallest name on, closed by repeating that name. -/
def canonical (cycle : List Text) : List Text :=
  let rotated := cycle.rotateLeft (smallest cycle)
  rotated ++ rotated.take 1

/-- What a walk knows: the nodes it has finished with, and the cycles it has met, the
latest first. -/
structure Walk where
  finished : List Text
  met : List (List Text)

/-- Two cycles are taken for the same when their names, joined by a zero byte, are. -/
def isMet (w : Walk) (cycle : List Text) : Bool :=
  w.met.any fun other => Text.join [0] other == Text.join [0] cycle

/-- Note the cycle that an edge from the end of `path` to `node` closes. -/
def close (path : List Text) (node : Text) (w : Walk) : Walk :=
  let cycle := canonical (path.dropWhile fun other => other != node)
  if isMet w cycle then w else { w with met := cycle :: w.met }

/-- Walk from a node that is neither on the path nor finished. The nodes of a path are
distinct, so `fuel` at least the number of nodes is never used up. -/
def visit (next : Text → List Text) : (fuel : Nat) → (path : List Text) → (node : Text) →
    Walk → Walk
  | 0, _, _, w => w
  | fuel + 1, path, node, w =>
    let longer := path ++ [node]
    let after := (next node).foldl
      (fun (w : Walk) successor =>
        if longer.contains successor then close longer successor w
        else if w.finished.contains successor then w
        else visit next fuel longer successor w) w
    { after with finished := node :: after.finished }

/-- The cycles met by walking from every node that is not yet finished. -/
def find (p : Personality) : List (List Text) :=
  let all := nodes p
  (all.foldl
    (fun (w : Walk) node =>
      if w.finished.contains node then w else visit (successors p) all.length [] node w)
    ⟨[], []⟩).met.reverse

end Persona.Cycles

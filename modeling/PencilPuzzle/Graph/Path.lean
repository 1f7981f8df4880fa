import PencilPuzzle.Graph.Basic

/-!
# Paths and loops

A set of edges runs through a vertex unambiguously when exactly two of its edges meet there. The
path through an edge is what can be reached from it across such vertices, and a set of edges is a
loop when two of them meet at every vertex they touch and one path covers them all.
-/

namespace PencilPuzzle.Graph

variable (graph : Graph)

/-- The member that continues `e` at a vertex where exactly two members meet. -/
def continuation (isMember : Nat → Bool) (e v : Nat) : Option Nat :=
  match (graph.edgesAt v).filter isMember with
  | [a, b] => if a = e then some b else if b = e then some a else none
  | _ => none

def continuations (isMember : Nat → Bool) (e : Nat) : List Nat :=
  (graph.endsOf e).filterMap (graph.continuation isMember e)

/-- Visits the pending edges, the newest first, and what continues them, at most `steps` of them. -/
def follow (isMember : Nat → Bool) : Nat → List Nat → List Nat → List Nat
  | 0, _, found => found
  | _, [], found => found
  | steps + 1, e :: pending, found =>
    if e ∈ found then follow isMember steps pending found
    else
      let found := found ++ [e]
      let next := (graph.continuations isMember e).filter (· ∉ found)
      follow isMember steps (next.reverse ++ pending) found

/-- The path of members through an edge, beginning with that edge. Every edge is visited once and
puts at most two others off, which bounds the number of steps. -/
def path (isMember : Nat → Bool) (e : Nat) : List Nat :=
  graph.follow isMember (2 * graph.edges.size + 1) [e] []

def degree (edges : List Nat) (v : Nat) : Nat := edges.countP fun e => v ∈ graph.endsOf e

/-- Whether the edges, repeats aside, form one simple closed loop. -/
def isLoop (edges : List Nat) : Bool :=
  let members := edges.eraseDups
  match members with
  | first :: _ =>
    3 ≤ members.length &&
    (members.flatMap graph.endsOf).all (fun v => graph.degree members v = 2) &&
    (graph.path (· ∈ members) first).length = members.length
  | [] => false

end PencilPuzzle.Graph

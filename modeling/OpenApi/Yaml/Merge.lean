import OpenApi.Yaml.Node

/-!
# Yaml/Merge — mappings that take members over

A member of a mapping whose key is tagged as a merge stands for the members of another mapping, or
of several, of which the first one counts most.  They come in front of the mapping's own members,
so that those count more.  A key that is tagged as the mark of a default value is a string here.
-/

namespace OpenApi.Yaml.Graph

/-- Whether a node is tagged as a merge. -/
def isMerge (g : Graph) (i : NodeId) : Bool := (g.node i).tag = coreTag "merge"

/-- The members of a mapping in the graph replaced. -/
def withMembers (g : Graph) (i : NodeId) (members : List (NodeId × NodeId)) : Graph :=
  g.set i { g.node i with shape := .mapping members }

/-- A mark of a default value as a string; other nodes stay as they are. -/
def settleKey (g : Graph) (i : NodeId) : Graph :=
  if (g.node i).tag = coreTag "value" then g.set i { g.node i with tag := coreTag "str" } else g

/-- The first member of a mapping that is a merge: what it merges, and the graph without it. -/
def takeMerge? (g : Graph) (i : NodeId) : Option (NodeId × Graph) :=
  match Text.cut? (fun m => g.isMerge m.1) (g.members i) with
  | none => none
  | some (before, after) =>
    ((g.members i)[before.length]?).map fun m => (m.2, g.withMembers i (before ++ after))

/-- Resolves the merges of a mapping, behind members that were taken over already; `fuel` bounds the
merges in the graph, each of which is resolved once. -/
def resolveFrom (taken : List (NodeId × NodeId)) : Nat → NodeId → Graph → Except ReadError Graph
  | 0, _, g => .ok g
  | fuel + 1, i, g =>
    match g.takeMerge? i with
    | none =>
      let g := (g.members i).foldl (fun g m => g.settleKey m.1) g
      .ok (g.withMembers i (taken ++ g.members i))
    | some (source, g) =>
      match (g.node source).shape with
      | .mapping _ => do
        let g ← resolveFrom [] fuel source g
        resolveFrom (taken ++ g.members source) fuel i g
      | .sequence elements => do
        let (lists, g) ← elements.foldlM
          (fun (acc : List (List (NodeId × NodeId)) × Graph) element =>
            match (acc.2.node element).shape with
            | .mapping _ => do
              let g ← resolveFrom [] fuel element acc.2
              pure (g.members element :: acc.1, g)
            | _ => .error .malformed)
          ([], g)
        resolveFrom (taken ++ lists.flatten) fuel i g
      | .scalar _ => .error .malformed

/-- The number of members of all mappings. -/
def memberCount (g : Graph) : Nat :=
  ((List.range g.size).flatMap g.members).length

/-- **The graph with the merges of a mapping resolved.** -/
def resolveMerges (g : Graph) (i : NodeId) : Except ReadError Graph :=
  resolveFrom [] (g.memberCount + 1) i g

end OpenApi.Yaml.Graph

import AshamaneCore.Library.ShortestWalks
import Mathlib.Algebra.Ring.Nat

/-!
# The graph of taxi paths

The vertices of the graph are addressed by the bit number of a node, and are
filled in from the paths between nodes of the network. A route is the direct
path, or what the predecessors of a shortest path search lead through.
-/

namespace AshamaneCore.TaxiPathGraph

open Library.ShortestWalks

/-! ## The tables -/

def alliance : UInt32 := 469

def taxiNodeFlagAlliance : UInt8 := 1

def taxiNodeFlagHorde : UInt8 := 2

structure TaxiNodesEntry where
  id : UInt32
  conditionID : UInt16
  characterBitNumber : UInt16
  flags : UInt8
  deriving DecidableEq

structure TaxiPathEntry where
  id : UInt32
  fromTaxiNode : UInt16
  toTaxiNode : UInt16
  id_ne : id ≠ 0

structure TaxiTables where
  sTaxiPathStore : List TaxiPathEntry
  sTaxiNodesStore : UInt32 → Option TaxiNodesEntry
  sTaxiNodesStore_id : ∀ id node, sTaxiNodesStore id = some node → node.id = id
  /-- The length of a path through its points, where it has two or more. -/
  totalDist : UInt32 → Option UInt32

structure Player where
  team : UInt32
  meets : UInt16 → Option Bool

def TaxiNodesEntry.inNetwork (node : TaxiNodesEntry) : Prop :=
  node.flags &&& (taxiNodeFlagAlliance ||| taxiNodeFlagHorde) ≠ 0

instance (node : TaxiNodesEntry) : Decidable node.inNetwork := inferInstanceAs (Decidable (_ ≠ _))

namespace TaxiTables

variable (tables : TaxiTables)

/-- The path of a source and a destination is the last one of the store. -/
def getTaxiPath (source destination : UInt32) : UInt32 :=
  let pathSet := tables.sTaxiPathStore.filter
    (fun path => path.fromTaxiNode.toUInt32 = source ∧ path.toTaxiNode.toUInt32 = destination)
  (pathSet.getLast?.map TaxiPathEntry.id).getD 0

def distance (path : TaxiPathEntry) : UInt32 :=
  match tables.totalDist path.id with
  | none => 0xFFFF
  | some dist => if dist > 0xFFFF then 0xFFFF else dist

end TaxiTables

/-! ## The graph -/

structure EdgeCost where
  toNode : TaxiNodesEntry
  distance : UInt32

structure Edge where
  source : Nat
  target : Nat
  cost : EdgeCost

structure Graph where
  m_vertices : List (Option TaxiNodesEntry)
  edges : List Edge

def TaxiNodesEntry.vertex (node : TaxiNodesEntry) : Nat := node.characterBitNumber.toNat

def createVertexFromFromNodeInfoIfNeeded (vertices : List (Option TaxiNodesEntry)) (node : TaxiNodesEntry) :
    List (Option TaxiNodesEntry) :=
  (vertices ++ List.replicate (node.vertex + 1 - vertices.length) none).set node.vertex (some node)

def addVerticeAndEdgeFromNodeInfo (source target : TaxiNodesEntry) (dist : UInt32) (g : Graph) : Graph :=
  if source ≠ target then
    { m_vertices := createVertexFromFromNodeInfoIfNeeded (createVertexFromFromNodeInfoIfNeeded g.m_vertices source) target
      edges := g.edges ++ [⟨source.vertex, target.vertex, ⟨target, dist⟩⟩] }
  else g

def addPath (tables : TaxiTables) (g : Graph) (path : TaxiPathEntry) : Graph :=
  match tables.sTaxiNodesStore path.fromTaxiNode.toUInt32, tables.sTaxiNodesStore path.toTaxiNode.toUInt32 with
  | some source, some target =>
    if source.inNetwork ∧ target.inNetwork then
      addVerticeAndEdgeFromNodeInfo source target (tables.distance path) g
    else g
  | _, _ => g

/-- `Initialize`: the graph has as many vertices as were created. -/
def initializeGraph (tables : TaxiTables) : Graph := tables.sTaxiPathStore.foldl (addPath tables) ⟨[], []⟩

/-! ## The search -/

def EdgeCost.evaluateDistance (cost : EdgeCost) (player : Player) : UInt32 :=
  let requireFlag := if player.team = alliance then taxiNodeFlagAlliance else taxiNodeFlagHorde
  if cost.toNode.flags &&& requireFlag = 0 then 0xFFFF
  else if player.meets cost.toNode.conditionID = some false then 0xFFFF
  else cost.distance

/-- A search reads a vertex that does not exist, is still going back, or has a route. -/
inductive Search
  | fault
  | unfinished
  | found (shortestPath : List UInt32)
  deriving DecidableEq

namespace Graph

variable (g : Graph)

def weighted (player : Player) : List (Nat × Nat × Nat) :=
  g.edges.map (fun e => (e.source, e.target, (e.cost.evaluateDistance player).toNat))

def weightedEdge (player : Player) (x y w : Nat) : Prop := (x, y, w) ∈ g.weighted player

/-- A vertex past the end has the greatest number, and one that was not filled in cannot be asked. -/
def getNodeIDFromVertexID (v : Nat) : Option UInt32 :=
  match g.m_vertices[v]? with
  | none => some 0xFFFFFFFF
  | some none => none
  | some (some node) => some node.id

def walkBack (p : Nat → Nat) : Nat → Nat → List UInt32 → Search
  | 0, _, _ => .unfinished
  | fuel + 1, v, shortestPath =>
    match g.getNodeIDFromVertexID v with
    | none => .fault
    | some id =>
      if g.m_vertices.length ≤ v then .fault
      else if v = p v then .found (shortestPath ++ [id]).reverse
      else walkBack p fuel (p v) (shortestPath ++ [id])

end Graph

/-- The search, with what stands for the library's algorithm: the predecessors for a number of vertices, weighted
edges and a start. -/
def getCompleteNodeRoute (tables : TaxiTables) (dijkstra : Nat → List (Nat × Nat × Nat) → Nat → Nat → Nat)
    (source target : TaxiNodesEntry) (player : Player) (fuel : Nat) : Search :=
  let g := initializeGraph tables
  if tables.getTaxiPath source.id target.id ≠ 0 then .found [source.id, target.id]
  else if source.vertex < g.m_vertices.length then
    g.walkBack (dijkstra g.m_vertices.length (g.weighted player) source.vertex) fuel target.vertex []
  else .fault

/-! ## What the graph is built from -/

structure Linked (tables : TaxiTables) (path : TaxiPathEntry) (source target : TaxiNodesEntry) : Prop where
  mem : path ∈ tables.sTaxiPathStore
  source_eq : tables.sTaxiNodesStore path.fromTaxiNode.toUInt32 = some source
  target_eq : tables.sTaxiNodesStore path.toTaxiNode.toUInt32 = some target
  source_in : source.inNetwork
  target_in : target.inNetwork
  ne : source ≠ target

def IsEnd (tables : TaxiTables) (node : TaxiNodesEntry) : Prop :=
  ∃ path source target, Linked tables path source target ∧ (node = source ∨ node = target)

variable {vertices : List (Option TaxiNodesEntry)} {node : TaxiNodesEntry}

theorem length_createVertex :
    (createVertexFromFromNodeInfoIfNeeded vertices node).length = max vertices.length (node.vertex + 1) := by
  simp only [createVertexFromFromNodeInfoIfNeeded, List.length_set, List.length_append, List.length_replicate]
  omega

theorem createVertex_self : (createVertexFromFromNodeInfoIfNeeded vertices node)[node.vertex]? = some (some node) := by
  refine List.getElem?_set_self ?_
  simp only [List.length_append, List.length_replicate]
  omega

variable {v : Nat}

theorem createVertex_of_ne (hv : v ≠ node.vertex) (other : TaxiNodesEntry) :
    (createVertexFromFromNodeInfoIfNeeded vertices node)[v]? = some (some other) ↔ vertices[v]? = some
    (some other) := by
  rw [createVertexFromFromNodeInfoIfNeeded, List.getElem?_set_ne (Ne.symm hv)]
  rcases Nat.lt_or_ge v vertices.length with hInside | hPast
  · rw [List.getElem?_append_left hInside]
  · rw [List.getElem?_append_right hPast, List.getElem?_eq_none hPast, List.getElem?_replicate]
    split
    · simp
    · simp

theorem createVertex_kept (node : TaxiNodesEntry) {other : TaxiNodesEntry}
    (h : vertices[v]? = some (some other)) :
    ∃ next, (createVertexFromFromNodeInfoIfNeeded vertices node)[v]? = some (some next) := by
  by_cases hv : v = node.vertex
  · rw [hv]
    exact ⟨node, createVertex_self⟩
  · exact ⟨other, (createVertex_of_ne hv other).mpr h⟩

theorem createVertex_cases {other : TaxiNodesEntry}
    (h : (createVertexFromFromNodeInfoIfNeeded vertices node)[v]? = some (some other)) :
    (v = node.vertex ∧ other = node) ∨ vertices[v]? = some (some other) := by
  by_cases hv : v = node.vertex
  · rw [hv, createVertex_self] at h
    cases h
    exact Or.inl ⟨hv, rfl⟩
  · exact Or.inr ((createVertex_of_ne hv other).mp h)

structure Built (tables : TaxiTables) (paths : List TaxiPathEntry) (g : Graph) : Prop where
  edge : ∀ e, e ∈ g.edges ↔ ∃ path ∈ paths, ∃ source target, Linked tables path source target ∧
    e = ⟨source.vertex, target.vertex, ⟨target, tables.distance path⟩⟩
  filled : ∀ path ∈ paths, ∀ source target, Linked tables path source target → ∀ node, node = source ∨ node = target →
    ∃ next, g.m_vertices[node.vertex]? = some (some next)
  named : ∀ v node, g.m_vertices[v]? = some (some node) → node.vertex = v ∧ IsEnd tables node
  short : g.m_vertices.length ≤ 2 ^ 16

variable {tables : TaxiTables} {g : Graph} {done : List TaxiPathEntry} {path : TaxiPathEntry}

theorem addPath_cases (hMem : path ∈ tables.sTaxiPathStore) :
    (∃ source target, Linked tables path source target ∧ addPath tables g path =
      { m_vertices := createVertexFromFromNodeInfoIfNeeded
          (createVertexFromFromNodeInfoIfNeeded g.m_vertices source) target
        edges := g.edges ++ [⟨source.vertex, target.vertex, ⟨target, tables.distance path⟩⟩] }) ∨
    ((∀ source target, ¬ Linked tables path source target) ∧ addPath tables g path = g) := by
  by_cases hLinked : ∃ source target, Linked tables path source target
  · obtain ⟨source, target, hLink⟩ := hLinked
    refine Or.inl ⟨source, target, hLink, ?_⟩
    rw [addPath, hLink.source_eq, hLink.target_eq]
    simp only [hLink.source_in, hLink.target_in, and_self, if_true, addVerticeAndEdgeFromNodeInfo, ne_eq, hLink.ne,
      not_false_eq_true]
  · have hNone : ∀ source target, ¬ Linked tables path source target :=
      fun source target hLink => hLinked ⟨source, target, hLink⟩
    refine Or.inr ⟨hNone, ?_⟩
    rw [addPath]
    split
    · rename_i source target hSource hTarget
      split
      · rename_i hIn
        have hSame : source = target := by
          by_contra hNe
          exact hNone source target ⟨hMem, hSource, hTarget, hIn.1, hIn.2, hNe⟩
        rw [addVerticeAndEdgeFromNodeInfo, if_neg (not_not_intro hSame)]
      · rfl
    · rfl

theorem vertex_lt (node : TaxiNodesEntry) : node.vertex < 2 ^ 16 := node.characterBitNumber.toNat_lt

theorem Linked.unique {source target source' target' : TaxiNodesEntry} (h : Linked tables path source target)
    (h' : Linked tables path source' target') : source' = source ∧ target' = target :=
  ⟨Option.some.inj (h'.source_eq.symm.trans h.source_eq), Option.some.inj (h'.target_eq.symm.trans h.target_eq)⟩

theorem Built.start : Built tables [] ⟨[], []⟩ where
  edge e := by simp
  filled path hPath := by cases hPath
  named v node h := by cases h
  short := Nat.zero_le _

theorem Built.addPath (h : Built tables done g) (hMem : path ∈ tables.sTaxiPathStore) :
    Built tables (done ++ [path]) (addPath tables g path) := by
  obtain ⟨source, target, hLink, hAdd⟩ | ⟨hNone, hAdd⟩ := addPath_cases (g := g) hMem
  · rw [hAdd]
    refine ⟨fun e => ?_, fun other hOther a b hOtherLink node hNode => ?_, fun v node hNode => ?_, ?_⟩
    · rw [List.mem_append, h.edge, List.mem_singleton]
      constructor
      · rintro (⟨other, hOther, a, b, hOtherLink, he⟩ | he)
        · exact ⟨other, List.mem_append_left _ hOther, a, b, hOtherLink, he⟩
        · exact ⟨path, List.mem_append_right _ (List.mem_singleton.mpr rfl), source, target, hLink, he⟩
      · rintro ⟨other, hOther, a, b, hOtherLink, he⟩
        rcases List.mem_append.mp hOther with hOther | hOther
        · exact Or.inl ⟨other, hOther, a, b, hOtherLink, he⟩
        · cases List.mem_singleton.mp hOther
          obtain ⟨rfl, rfl⟩ := hLink.unique hOtherLink
          exact Or.inr he
    · rcases List.mem_append.mp hOther with hOther | hOther
      · obtain ⟨next, hNext⟩ := h.filled other hOther a b hOtherLink node hNode
        obtain ⟨later, hLater⟩ := createVertex_kept source hNext
        exact createVertex_kept _ hLater
      · cases List.mem_singleton.mp hOther
        obtain ⟨rfl, rfl⟩ := hLink.unique hOtherLink
        rcases hNode with rfl | rfl
        · exact createVertex_kept _ createVertex_self
        · exact ⟨_, createVertex_self⟩
    · rcases createVertex_cases hNode with ⟨rfl, rfl⟩ | hNode
      · exact ⟨rfl, path, source, node, hLink, Or.inr rfl⟩
      · rcases createVertex_cases hNode with ⟨rfl, rfl⟩ | hNode
        · exact ⟨rfl, path, node, target, hLink, Or.inl rfl⟩
        · exact h.named v node hNode
    · have hSource := vertex_lt source
      have hTarget := vertex_lt target
      have hShort := h.short
      rw [length_createVertex, length_createVertex]
      omega
  · rw [hAdd]
    refine ⟨fun e => ?_, fun other hOther a b hLink => ?_, h.named, h.short⟩
    · rw [h.edge]
      constructor
      · rintro ⟨other, hOther, hRest⟩
        exact ⟨other, List.mem_append_left _ hOther, hRest⟩
      · rintro ⟨other, hOther, a, b, hLink, he⟩
        rcases List.mem_append.mp hOther with hOther | hOther
        · exact ⟨other, hOther, a, b, hLink, he⟩
        · cases List.mem_singleton.mp hOther
          exact absurd hLink (hNone a b)
    · rcases List.mem_append.mp hOther with hOther | hOther
      · exact h.filled other hOther a b hLink
      · cases List.mem_singleton.mp hOther
        exact absurd hLink (hNone a b)

theorem Built.foldl (h : Built tables done g) (rest : List TaxiPathEntry)
    (hRest : ∀ path ∈ rest, path ∈ tables.sTaxiPathStore) :
    Built tables (done ++ rest) (rest.foldl (TaxiPathGraph.addPath tables) g) := by
  induction rest generalizing done g with
  | nil => rwa [List.append_nil]
  | cons path rest ih =>
    have hNext := ih (h.addPath (hRest path List.mem_cons_self)) (fun p hp => hRest p (List.mem_cons_of_mem _ hp))
    rwa [List.append_assoc, List.singleton_append] at hNext

theorem built_initializeGraph (tables : TaxiTables) :
    Built tables tables.sTaxiPathStore (initializeGraph tables) := by
  have hBuilt := Built.start.foldl tables.sTaxiPathStore fun _ hPath => hPath
  rwa [List.nil_append] at hBuilt

/-! ## Routes over nodes -/

def PathEdge (tables : TaxiTables) (player : Player) (source target : TaxiNodesEntry) (w : Nat) : Prop :=
  ∃ path, Linked tables path source target ∧ w = (EdgeCost.evaluateDistance ⟨target, tables.distance path⟩ player).toNat

def Joined (tables : TaxiTables) (source target : UInt32) : Prop :=
  ∃ path ∈ tables.sTaxiPathStore, path.fromTaxiNode.toUInt32 = source ∧ path.toTaxiNode.toUInt32 = target

/-- The direct path, or a route over nodes of the network that costs the player least, or fewer than two nodes. -/
structure Answers (tables : TaxiTables) (player : Player) (source target : TaxiNodesEntry) (route : List UInt32) :
    Prop where
  joined : route.IsChain (Joined tables)
  direct : tables.getTaxiPath source.id target.id ≠ 0 → route = [source.id, target.id]
  least : tables.getTaxiPath source.id target.id = 0 → Reaches (PathEdge tables player) source target →
    ∃ nodes c, Walk (PathEdge tables player) source nodes target c ∧ Least (PathEdge tables player) source target c ∧
      nodes.map TaxiNodesEntry.id = route ∧ route.head? = some source.id ∧ route.getLast? = some target.id
  unreachable : tables.getTaxiPath source.id target.id = 0 → ¬ Reaches (PathEdge tables player) source target →
    route.length < 2

/-- The call ends without a fault, and its route is an answer. -/
def Completes (tables : TaxiTables) (dijkstra : Nat → List (Nat × Nat × Nat) → Nat → Nat → Nat)
    (source target : TaxiNodesEntry) (player : Player) : Prop :=
  ∃ route, Answers tables player source target route ∧
    ∃ fuel, ∀ more, getCompleteNodeRoute tables dijkstra source target player (fuel + more) = .found route

/-- The source has a vertex, and the target a vertex that was filled in. -/
def HasVertices (tables : TaxiTables) (source target : TaxiNodesEntry) : Prop :=
  source.vertex < (initializeGraph tables).m_vertices.length ∧
    ∃ node, (initializeGraph tables).m_vertices[target.vertex]? = some (some node)

/-- The nodes of the paths and the two of the search have vertices of their own. -/
def Unshared (tables : TaxiTables) (source target : TaxiNodesEntry) : Prop :=
  ∀ a b, (a = source ∨ a = target ∨ IsEnd tables a) → (b = source ∨ b = target ∨ IsEnd tables b) →
    a.characterBitNumber = b.characterBitNumber → a = b

variable {player : Player} {source target : TaxiNodesEntry}
  {dijkstra : Nat → List (Nat × Nat × Nat) → Nat → Nat → Nat}

theorem evaluateDistance_le (cost : EdgeCost) (hCost : cost.distance.toNat ≤ 65535) (player : Player) :
    (cost.evaluateDistance player).toNat ≤ 65535 := by
  simp only [EdgeCost.evaluateDistance]
  generalize (if player.team = alliance then taxiNodeFlagAlliance else taxiNodeFlagHorde) = requireFlag
  split
  · decide
  · split
    · decide
    · exact hCost

theorem distance_le (path : TaxiPathEntry) : (tables.distance path).toNat ≤ 65535 := by
  rw [TaxiTables.distance]
  split
  · decide
  · split
    · decide
    · rename_i hDist
      exact UInt32.le_iff_toNat_le.mp (UInt32.not_lt.mp hDist)

variable {x w : Nat}

theorem weightedEdge_iff {y : Nat} : (initializeGraph tables).weightedEdge player x y w ↔
    ∃ a b, PathEdge tables player a b w ∧ a.vertex = x ∧ b.vertex = y := by
  rw [Graph.weightedEdge, Graph.weighted, List.mem_map]
  constructor
  · rintro ⟨e, he, hEq⟩
    obtain ⟨path, -, a, b, hLink, rfl⟩ := ((built_initializeGraph tables).edge e).mp he
    cases hEq
    exact ⟨a, b, ⟨path, hLink, rfl⟩, rfl, rfl⟩
  · rintro ⟨a, b, ⟨path, hLink, rfl⟩, rfl, rfl⟩
    exact ⟨_, ((built_initializeGraph tables).edge _).mpr ⟨path, hLink.mem, a, b, hLink, rfl⟩, rfl⟩

variable {a b : TaxiNodesEntry}

theorem PathEdge.isEnd (h : PathEdge tables player a b w) :
    IsEnd tables a ∧ IsEnd tables b := by
  obtain ⟨path, hLink, -⟩ := h
  exact ⟨⟨path, a, b, hLink, Or.inl rfl⟩, ⟨path, a, b, hLink, Or.inr rfl⟩⟩

theorem PathEdge.joined (h : PathEdge tables player a b w) :
    Joined tables a.id b.id := by
  obtain ⟨path, hLink, -⟩ := h
  exact ⟨path, hLink.mem, (tables.sTaxiNodesStore_id _ _ hLink.source_eq).symm,
    (tables.sTaxiNodesStore_id _ _ hLink.target_eq).symm⟩

theorem joined_of_getTaxiPath {a b : UInt32} (h : tables.getTaxiPath a b ≠ 0) : Joined tables a b := by
  rw [TaxiTables.getTaxiPath] at h
  cases hLast : (tables.sTaxiPathStore.filter
      (fun path => path.fromTaxiNode.toUInt32 = a ∧ path.toTaxiNode.toUInt32 = b)).getLast? with
  | none =>
    rw [hLast] at h
    exact absurd rfl h
  | some path =>
    obtain ⟨hMem, hEnds⟩ := List.mem_filter.mp (List.mem_of_getLast? hLast)
    exact ⟨path, hMem, of_decide_eq_true hEnds⟩

theorem IsEnd.filled {node : TaxiNodesEntry} (h : IsEnd tables node) :
    ∃ next, (initializeGraph tables).m_vertices[node.vertex]? = some (some next) := by
  obtain ⟨path, a, b, hLink, hNode⟩ := h
  exact (built_initializeGraph tables).filled path hLink.mem a b hLink node hNode

theorem IsEnd.vertex_lt_length {node : TaxiNodesEntry} (h : IsEnd tables node) :
    node.vertex < (initializeGraph tables).m_vertices.length := by
  obtain ⟨next, hNext⟩ := h.filled
  exact (List.getElem?_eq_some_iff.mp hNext).1

variable {c : Nat}

theorem least_add_lt (hSource : source.vertex < (initializeGraph tables).m_vertices.length)
    (h : Least ((initializeGraph tables).weightedEdge player) source.vertex x c) : c + 65535 < 2 ^ 32 := by
  have hBound := h.le_of_bounded hSource
    (fun x y w hEdge => by
      obtain ⟨a, b, hPath, -, rfl⟩ := weightedEdge_iff.mp hEdge
      exact hPath.isEnd.2.vertex_lt_length)
    (fun x y w hEdge => show w ≤ 65535 by
      obtain ⟨a, b, ⟨path, -, rfl⟩, -, -⟩ := weightedEdge_iff.mp hEdge
      exact evaluateDistance_le _ (distance_le path) player)
  have hShort := (built_initializeGraph tables).short
  omega

/-! ## From vertices to nodes -/

theorem Unshared.eq (h : Unshared tables source target)
    (ha : a = source ∨ a = target ∨ IsEnd tables a) (hb : b = source ∨ b = target ∨ IsEnd tables b)
    (hVertex : a.vertex = b.vertex) : a = b :=
  h a b ha hb (UInt16.toNat_inj.mp hVertex)

variable {way : List Nat}

theorem Unshared.exists_walk (h : Unshared tables source target)
    (hWalk : Walk ((initializeGraph tables).weightedEdge player) source.vertex way target.vertex c) :
    ∃ nodes, nodes.map TaxiNodesEntry.vertex = way ∧ Walk (PathEdge tables player) source nodes target c := by
  obtain ⟨nodes, node, hNode, hVertex, hWay, hNodes⟩ :=
    Walk.lift TaxiNodesEntry.vertex (P := fun node => node = source ∨ IsEnd tables node)
      (Or.inl rfl) (fun x y w hx hEdge => by
        obtain ⟨a, b, hPath, ha, hb⟩ := weightedEdge_iff.mp hEdge
        have hSame : a = x := h.eq (Or.inr (Or.inr hPath.isEnd.1)) (hx.imp_right Or.inr) ha
        rw [hSame] at hPath
        exact ⟨b, Or.inr hPath.isEnd.2, hb, hPath⟩) hWalk
  have hTarget : node = target := h.eq (hNode.imp_right Or.inr) (Or.inr (Or.inl rfl)) hVertex
  rw [hTarget] at hNodes
  exact ⟨nodes, hWay, hNodes⟩

theorem walk_vertex {nodes : List TaxiNodesEntry} (h : Walk (PathEdge tables player) source nodes target c) :
    Walk ((initializeGraph tables).weightedEdge player) source.vertex (nodes.map TaxiNodesEntry.vertex)
      target.vertex c :=
  h.map TaxiNodesEntry.vertex fun a b _ hPath => weightedEdge_iff.mpr ⟨a, b, hPath, rfl, rfl⟩

theorem Unshared.reaches_iff (h : Unshared tables source target) :
    Reaches ((initializeGraph tables).weightedEdge player) source.vertex target.vertex ↔
      Reaches (PathEdge tables player) source target := by
  constructor
  · rintro ⟨way, c, hWalk⟩
    obtain ⟨nodes, -, hNodes⟩ := h.exists_walk hWalk
    exact ⟨nodes, c, hNodes⟩
  · rintro ⟨nodes, c, hNodes⟩
    exact ⟨_, c, walk_vertex hNodes⟩

theorem Unshared.named (h : Unshared tables source target) {node : TaxiNodesEntry}
    (hNode : node = source ∨ node = target ∨ IsEnd tables node)
    (hFilled : ∃ next, (initializeGraph tables).m_vertices[node.vertex]? = some (some next)) :
    (initializeGraph tables).m_vertices[node.vertex]? = some (some node) := by
  obtain ⟨next, hNext⟩ := hFilled
  obtain ⟨hVertex, hEnd⟩ := (built_initializeGraph tables).named _ _ hNext
  have hSame : next = node := h.eq (Or.inr (Or.inr hEnd)) hNode hVertex
  rw [hSame] at hNext
  exact hNext

/-! ## The loop -/

theorem walkBack_back {p : Nat → Nat} (hBack : Back p v way) (nameOf : Nat → UInt32)
    (hNames : ∀ x ∈ way, ∃ node, g.m_vertices[x]? = some (some node) ∧ node.id = nameOf x) (more : Nat)
    (seen : List UInt32) :
    g.walkBack p (way.length + more) v seen = .found (seen ++ way.map nameOf).reverse := by
  have hRead : ∀ x ∈ way, g.getNodeIDFromVertexID x = some (nameOf x) ∧ x < g.m_vertices.length := by
    intro x hx
    obtain ⟨node, hNode, hName⟩ := hNames x hx
    rw [Graph.getNodeIDFromVertexID, hNode]
    exact ⟨congrArg some hName, (List.getElem?_eq_some_iff.mp hNode).1⟩
  clear hNames
  induction hBack generalizing seen with
  | @root v h =>
    obtain ⟨hName, hInside⟩ := hRead v List.mem_cons_self
    rw [List.length_singleton, Nat.add_comm, Graph.walkBack, hName]
    simp only [if_neg (Nat.not_le.mpr hInside), if_pos h.symm]
    rfl
  | @up v rest hNe h ih =>
    obtain ⟨hName, hInside⟩ := hRead v List.mem_cons_self
    rw [List.length_cons, Nat.add_right_comm, Graph.walkBack, hName]
    simp only [if_neg (Nat.not_le.mpr hInside), if_neg (Ne.symm hNe)]
    rw [ih _ (fun x hx => hRead x (List.mem_cons_of_mem _ hx)), List.map_cons, List.append_assoc, List.singleton_append]

/-- What the library's algorithm answers for a vertex of the graph: the tree of shortest walks, where no distance that
it adds up leaves 32 bits. -/
def FindsTree (tables : TaxiTables) (dijkstra : Nat → List (Nat × Nat × Nat) → Nat → Nat → Nat)
    (source : TaxiNodesEntry) (player : Player) : Prop :=
  let g := initializeGraph tables
  source.vertex < g.m_vertices.length →
    (∀ x c, Least (g.weightedEdge player) source.vertex x c → c + 65535 < 2 ^ 32) →
    IsTree (g.weightedEdge player) g.m_vertices.length source.vertex
      (dijkstra g.m_vertices.length (g.weighted player) source.vertex)

theorem completes_of_direct (hDirect : tables.getTaxiPath source.id target.id ≠ 0) :
    Completes tables dijkstra source target player := by
  refine ⟨[source.id, target.id], ⟨?_, fun _ => rfl, fun hNone => absurd hNone hDirect,
    fun hNone => absurd hNone hDirect⟩, 0, fun more => ?_⟩
  · exact List.isChain_pair.mpr (joined_of_getTaxiPath hDirect)
  · rw [getCompleteNodeRoute]
    exact if_pos hDirect

theorem getCompleteNodeRoute_eq (hNone : tables.getTaxiPath source.id target.id = 0)
    (hSource : source.vertex < (initializeGraph tables).m_vertices.length) (fuel : Nat) :
    getCompleteNodeRoute tables dijkstra source target player fuel =
      (initializeGraph tables).walkBack (dijkstra (initializeGraph tables).m_vertices.length
        ((initializeGraph tables).weighted player) source.vertex) fuel target.vertex [] := by
  simp only [getCompleteNodeRoute, hNone, ne_eq, not_true_eq_false, if_false, hSource, if_true]

theorem completes_of_reaches (hFinds : FindsTree tables dijkstra source player)
    (hNone : tables.getTaxiPath source.id target.id = 0) (hHas : HasVertices tables source target)
    (hUnshared : Unshared tables source target) (hReaches : Reaches (PathEdge tables player) source target) :
    Completes tables dijkstra source target player := by
  have hTree := hFinds hHas.1 fun _ _ hLeast => least_add_lt hHas.1 hLeast
  obtain ⟨c, hLeast⟩ := (hUnshared.reaches_iff.mpr hReaches).exists_least
  obtain ⟨way, hBack, hWay⟩ := hTree.exists_back hLeast
  obtain ⟨nodes, hVertices, hNodes⟩ := hUnshared.exists_walk hWay
  have hFilled : ∀ node ∈ nodes, (initializeGraph tables).m_vertices[node.vertex]? = some (some node) := by
    intro node hNode
    have hKnown := hNodes.forall_mem (P := fun node => node = source ∨ IsEnd tables node) (Or.inl rfl)
      (fun a b w hPath => Or.inr hPath.isEnd.2) node hNode
    refine hUnshared.named (hKnown.imp_right Or.inr) ?_
    rcases hKnown with rfl | hEnd
    · by_cases hLeaves : ∃ b w, PathEdge tables player node b w
      · obtain ⟨b, w, hPath⟩ := hLeaves
        exact hPath.isEnd.1.filled
      · -- nothing leaves the source, so it is the target
        have hStays := hNodes.eq_start fun b w hPath => hLeaves ⟨b, w, hPath⟩
        rw [← hStays.2]
        exact hHas.2
    · exact hEnd.filled
  let nameOf : Nat → UInt32 := fun x => ((initializeGraph tables).m_vertices[x]?.join.map TaxiNodesEntry.id).getD 0
  have hNameOf : ∀ node ∈ nodes, nameOf node.vertex = node.id := by
    intro node hNode
    simp only [nameOf, hFilled node hNode, Option.join_some, Option.map_some, Option.getD_some]
  have hRoute : (way.map nameOf).reverse = nodes.map TaxiNodesEntry.id := by
    rw [← List.map_reverse, ← hVertices, List.map_map]
    exact List.map_congr_left hNameOf
  have hNames : ∀ x ∈ way, ∃ node, (initializeGraph tables).m_vertices[x]? = some (some node) ∧ node.id = nameOf x := by
    intro x hx
    rw [← List.mem_reverse, ← hVertices] at hx
    obtain ⟨node, hNode, rfl⟩ := List.mem_map.mp hx
    exact ⟨node, hFilled node hNode, (hNameOf node hNode).symm⟩
  refine ⟨nodes.map TaxiNodesEntry.id, ⟨?_, fun hDirect => absurd hNone hDirect, fun _ _ => ?_,
    fun _ hNot => absurd hReaches hNot⟩, way.length, fun more => ?_⟩
  · exact List.isChain_map_of_isChain TaxiNodesEntry.id (fun a b hJoined => hJoined)
      (hNodes.isChain (R := fun a b => Joined tables a.id b.id) fun a b w hPath => hPath.joined)
  · refine ⟨nodes, c, hNodes, ⟨⟨nodes, hNodes⟩, fun other d hOther => hLeast.le _ _ (walk_vertex hOther)⟩, rfl, ?_, ?_⟩
    · rw [List.head?_map, hNodes.head_eq, Option.map_some]
    · rw [List.getLast?_map, hNodes.last_eq, Option.map_some]
  · rw [getCompleteNodeRoute_eq hNone hHas.1, walkBack_back hBack nameOf hNames, List.nil_append, hRoute]

theorem completes_of_not_reaches (hFinds : FindsTree tables dijkstra source player)
    (hNone : tables.getTaxiPath source.id target.id = 0) (hHas : HasVertices tables source target)
    (hUnshared : Unshared tables source target) (hNot : ¬ Reaches (PathEdge tables player) source target) :
    Completes tables dijkstra source target player := by
  have hTree := hFinds hHas.1 fun _ _ hLeast => least_add_lt hHas.1 hLeast
  obtain ⟨hSource, node, hNode⟩ := hHas
  have hInside := (List.getElem?_eq_some_iff.mp hNode).1
  have hStays := hTree.unreached target.vertex hInside fun hReaches => hNot (hUnshared.reaches_iff.mp hReaches)
  refine ⟨[node.id], ⟨List.isChain_singleton _, fun hDirect => absurd hNone hDirect,
    fun _ hReaches => absurd hReaches hNot, fun _ _ => Nat.lt_succ_self 1⟩, 1, fun more => ?_⟩
  have hLoop := walkBack_back (g := initializeGraph tables) (Back.root hStays) (fun _ => node.id)
    (fun x hx => ⟨node, by rw [List.mem_singleton.mp hx]; exact hNode, rfl⟩) more []
  rw [getCompleteNodeRoute_eq hNone hSource]
  exact hLoop

theorem Completes.hasVertices (h : Completes tables dijkstra source target player)
    (hNone : tables.getTaxiPath source.id target.id = 0) : HasVertices tables source target := by
  obtain ⟨route, -, fuel, hFound⟩ := h
  have hOnce := hFound 1
  by_cases hSource : source.vertex < (initializeGraph tables).m_vertices.length
  · rw [getCompleteNodeRoute_eq hNone hSource, Graph.walkBack] at hOnce
    cases hName : (initializeGraph tables).getNodeIDFromVertexID target.vertex with
    | none =>
      rw [hName] at hOnce
      cases hOnce
    | some id =>
      rw [hName] at hOnce
      by_cases hPast : (initializeGraph tables).m_vertices.length ≤ target.vertex
      · simp only [if_pos hPast] at hOnce
        cases hOnce
      · refine ⟨hSource, ?_⟩
        rw [Graph.getNodeIDFromVertexID] at hName
        rw [List.getElem?_eq_getElem (Nat.lt_of_not_le hPast)] at hName ⊢
        cases hVertex : (initializeGraph tables).m_vertices[target.vertex] with
        | none =>
          rw [hVertex] at hName
          cases hName
        | some node => exact ⟨node, rfl⟩
  · simp only [getCompleteNodeRoute, hNone, ne_eq, not_true_eq_false, if_false, hSource] at hOnce
    cases hOnce

/-- A search completes where a direct path is or the two nodes have vertices, as long as no two nodes share one; and
it completes in no other case. -/
theorem getCompleteNodeRoute_completes (tables : TaxiTables)
    (dijkstra : Nat → List (Nat × Nat × Nat) → Nat → Nat → Nat) (source target : TaxiNodesEntry) (player : Player)
    (hFinds : FindsTree tables dijkstra source player) :
    ((tables.getTaxiPath source.id target.id ≠ 0 ∨ HasVertices tables source target ∧ Unshared tables source target) →
      Completes tables dijkstra source target player) ∧
    (Completes tables dijkstra source target player →
      tables.getTaxiPath source.id target.id ≠ 0 ∨ HasVertices tables source target) := by
  constructor
  · rintro (hDirect | ⟨hHas, hUnshared⟩)
    · exact completes_of_direct hDirect
    · by_cases hNone : tables.getTaxiPath source.id target.id = 0
      · by_cases hReaches : Reaches (PathEdge tables player) source target
        · exact completes_of_reaches hFinds hNone hHas hUnshared hReaches
        · exact completes_of_not_reaches hFinds hNone hHas hUnshared hReaches
      · exact completes_of_direct hNone
  · intro hCompletes
    by_cases hNone : tables.getTaxiPath source.id target.id = 0
    · exact Or.inr (hCompletes.hasVertices hNone)
    · exact Or.inl hNone

/-! ## Three nodes in a row -/

theorem ten_ne : (10 : UInt32) ≠ 0 := by decide

theorem eleven_ne : (11 : UInt32) ≠ 0 := by decide

def lookupIn (nodes : List TaxiNodesEntry) (id : UInt32) : Option TaxiNodesEntry := nodes.find? (·.id = id)

theorem lookupIn_id (nodes : List TaxiNodesEntry) (id : UInt32) (node : TaxiNodesEntry)
    (h : lookupIn nodes id = some node) : node.id = id :=
  of_decide_eq_true (List.find?_some (p := fun node : TaxiNodesEntry => decide (node.id = id)) h)

def openNode (id : UInt32) (bit : UInt16) : TaxiNodesEntry := ⟨id, 0, bit, 3⟩

def rowNodes : List TaxiNodesEntry := [openNode 1 0, openNode 2 1, openNode 3 2, openNode 4 9]

/-- Paths from node 1 to node 2 and on to node 3, and none to node 4. -/
def rowTables : TaxiTables where
  sTaxiPathStore := [⟨10, 1, 2, ten_ne⟩, ⟨11, 2, 3, eleven_ne⟩]
  sTaxiNodesStore := lookupIn rowNodes
  sTaxiNodesStore_id := lookupIn_id rowNodes
  totalDist _ := some 100

def rowPlayer : Player := ⟨alliance, fun _ => none⟩

def rowSearch : Nat → List (Nat × Nat × Nat) → Nat → Nat → Nat := fun _ _ _ x => x - 1

theorem rowWeighted : (initializeGraph rowTables).weighted rowPlayer = [(0, 1, 100), (1, 2, 100)] := by decide

theorem row_walk (h : Walk ((initializeGraph rowTables).weightedEdge rowPlayer) 0 way x c) :
    x ≤ 2 ∧ c = 100 * x := by
  induction h with
  | here => exact ⟨Nat.zero_le 2, rfl⟩
  | step h hEdge ih =>
    rw [Graph.weightedEdge, rowWeighted] at hEdge
    simp only [List.mem_cons, Prod.mk.injEq, List.not_mem_nil, or_false] at hEdge
    omega

theorem row_edge (hx : x < 2) : (initializeGraph rowTables).weightedEdge rowPlayer x (x + 1) 100 := by
  rw [Graph.weightedEdge, rowWeighted]
  obtain rfl | rfl : x = 0 ∨ x = 1 := by omega
  · exact List.mem_cons_self
  · exact List.mem_cons_of_mem _ List.mem_cons_self

theorem row_least (hx : x ≤ 2) :
    Least ((initializeGraph rowTables).weightedEdge rowPlayer) 0 x (100 * x) := by
  refine ⟨?_, fun way d hWalk => Nat.le_of_eq (row_walk hWalk).2.symm⟩
  induction x with
  | zero => exact ⟨[0], Walk.here⟩
  | succ x ih =>
    obtain ⟨way, hWalk⟩ := ih (by omega)
    exact ⟨_, hWalk.step (row_edge (by omega))⟩

theorem rowSearch_finds : FindsTree rowTables rowSearch (openNode 1 0) rowPlayer := by
  intro _ _
  have hLength : (initializeGraph rowTables).m_vertices.length = 3 := by decide
  refine ⟨rfl, fun x c hLeast hx => ?_, fun x hReaches => ?_, fun x hx hNot => ?_⟩
  · obtain ⟨way, hWalk⟩ := hLeast.attained
    obtain ⟨hTwo, hCost⟩ := row_walk hWalk
    have hPositive : x ≠ 0 := hx
    refine ⟨100 * (x - 1), 100, row_least (x := x - 1) (by omega), ?_, by omega⟩
    have hEdge := row_edge (x := x - 1) (by omega)
    rwa [Nat.sub_add_cancel (Nat.pos_of_ne_zero hPositive)] at hEdge
  · obtain ⟨way, c, hWalk⟩ := hReaches
    have hTwo := (row_walk hWalk).1
    refine ⟨2, ?_⟩
    show x - 1 - 1 = 0
    omega
  · rw [hLength] at hx
    exact absurd (row_least (by omega)).reaches hNot

theorem row_isEnd {node : TaxiNodesEntry} (h : IsEnd rowTables node) :
    node = openNode 1 0 ∨ node = openNode 2 1 ∨ node = openNode 3 2 := by
  obtain ⟨path, a, b, hLink, hNode⟩ := h
  have hSource := hLink.source_eq
  have hTarget := hLink.target_eq
  rcases List.mem_cons.mp hLink.mem with rfl | hMem
  · cases hSource
    cases hTarget
    exact hNode.imp_right Or.inl
  · rw [List.mem_singleton.mp hMem] at hSource hTarget
    cases hSource
    cases hTarget
    exact Or.inr hNode

theorem row_completes : Completes rowTables rowSearch (openNode 1 0) (openNode 3 2) rowPlayer := by
  refine (getCompleteNodeRoute_completes rowTables rowSearch (openNode 1 0) (openNode 3 2) rowPlayer
    rowSearch_finds).1 (Or.inr ⟨⟨by decide, openNode 3 2, by decide⟩, fun a b ha hb hBit => ?_⟩)
  have hKnown : ∀ node, (node = openNode 1 0 ∨ node = openNode 3 2 ∨ IsEnd rowTables node) →
      node = openNode 1 0 ∨ node = openNode 2 1 ∨ node = openNode 3 2 := by
    rintro node (rfl | rfl | hEnd)
    · exact Or.inl rfl
    · exact Or.inr (Or.inr rfl)
    · exact row_isEnd hEnd
  rcases hKnown a ha with rfl | rfl | rfl <;> rcases hKnown b hb with rfl | rfl | rfl <;>
    first | rfl | exact absurd hBit (by decide)

/-- No path leads to node 4, and the loop starts at a vertex that the graph does not have. -/
theorem unlinked_target_faults : (initializeGraph rowTables).m_vertices.length = 3 ∧ ∀ dijkstra,
    (∀ fuel, getCompleteNodeRoute rowTables dijkstra (openNode 1 0) (openNode 4 9) rowPlayer (fuel + 1) = .fault) ∧
      ¬ Completes rowTables dijkstra (openNode 1 0) (openNode 4 9) rowPlayer := by
  refine ⟨by decide, fun dijkstra => ?_⟩
  have hFault : ∀ fuel,
      getCompleteNodeRoute rowTables dijkstra (openNode 1 0) (openNode 4 9) rowPlayer (fuel + 1) = .fault := by
    intro fuel
    have hNone : rowTables.getTaxiPath (openNode 1 0).id (openNode 4 9).id = 0 := by decide
    have hName : (initializeGraph rowTables).getNodeIDFromVertexID (openNode 4 9).vertex = some 0xFFFFFFFF := by decide
    rw [getCompleteNodeRoute_eq hNone (by decide), Graph.walkBack, hName]
    exact if_pos (by decide)
  refine ⟨hFault, ?_⟩
  rintro ⟨route, -, fuel, hFound⟩
  have hRoute := hFound 1
  rw [hFault fuel] at hRoute
  cases hRoute

end AshamaneCore.TaxiPathGraph

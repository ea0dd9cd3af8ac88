import CyphalOnboard.NodeFactory

namespace CyphalOnboard

open EarlyExit

/-- A call on a factory. -/
inductive FactoryCall where
  | addSocketCanInterface (socketCanInterface : String)
  | createNode (env : CreationEnv) (draw : ℕ → UInt8)
  | createNodeWithId (env : CreationEnv) (nodeId : UInt8)
  | createLatencyNode (env : CreationEnv) (nodeId : UInt8)
  | createLatencyRequestNode (env : CreationEnv) (taskNextRun : UInt64) (nodeId : UInt8)
      (interval : UInt64)
  | createLatencyResponseNode (env : CreationEnv) (nodeId : UInt8)

namespace FactoryCall

/-- The factory after a call, with nodes over the libcanard `C` and `R` interfaces. -/
def run (C : Canard) (R : ℕ) (factory : NodeFactory) : FactoryCall → Option NodeFactory
  | addSocketCanInterface name => some (factory.addSocketCanInterface name)
  | createNode env draw => (factory.createNode (C := C) (R := R) env draw).map Prod.fst
  | createNodeWithId env nodeId =>
    (factory.createNodeWithId (C := C) (R := R) env nodeId).map Prod.fst
  | createLatencyNode env nodeId =>
    (factory.createLatencyNode (C := C) (R := R) env nodeId).map Prod.fst
  | createLatencyRequestNode env taskNextRun nodeId interval =>
    (factory.createLatencyRequestNode (C := C) (R := R) env taskNextRun nodeId interval).map
      Prod.fst
  | createLatencyResponseNode env nodeId =>
    (factory.createLatencyResponseNode (C := C) (R := R) env nodeId).map Prod.fst

/-- The ID a call puts on record. -/
def recorded (factory : NodeFactory) : FactoryCall → List UInt8
  | addSocketCanInterface _ => []
  | createNode _ draw => [NodeFactory.pickId draw factory.usedIds]
  | createNodeWithId _ nodeId => [nodeId]
  | createLatencyNode _ nodeId => [nodeId]
  | createLatencyRequestNode _ _ nodeId _ => [nodeId]
  | createLatencyResponseNode _ nodeId => [nodeId]

end FactoryCall

/-- A run of calls; it is over when the process has ended. -/
def runFactory (C : Canard) (R : ℕ) (factory : NodeFactory) : List FactoryCall → Option NodeFactory
  | [] => some factory
  | call :: calls => (call.run C R factory).bind fun factory => runFactory C R factory calls

variable {C : Canard} {R : ℕ}

/-- Comparing with the IDs one by one draws once, at the first match. -/
theorem forLoop_compareId (draw : ℕ → UInt8) (usedIds : List UInt8) (randomId : UInt8) (n : ℕ) :
    (forLoop (NodeFactory.compareId draw) usedIds (randomId, n)).1 =
      if randomId ∈ usedIds then (draw n, n + 1) else (randomId, n) := by
  induction usedIds with
  | nil => rfl
  | cons nodeId usedIds ih =>
    by_cases hid : randomId = nodeId
    · simp [forLoop, NodeFactory.compareId, hid]
    · simp [forLoop, NodeFactory.compareId, hid, ih]

theorem pickId_eq (draw : ℕ → UInt8) (usedIds : List UInt8) :
    NodeFactory.pickId draw usedIds = if draw 0 ∈ usedIds then draw 1 else draw 0 := by
  rw [NodeFactory.pickId, forLoop_compareId]
  split_ifs <;> rfl

theorem pickId_not_mem_iff (draw : ℕ → UInt8) (usedIds : List UInt8) :
    NodeFactory.pickId draw usedIds ∉ usedIds ↔ draw 0 ∉ usedIds ∨ draw 1 ∉ usedIds := by
  rw [pickId_eq]
  split_ifs with hused
  · exact ⟨.inr, fun h => h.resolve_left (not_not.mpr hused)⟩
  · exact ⟨.inl, fun _ => hused⟩

/-- The generator starts anew in every call, so after one `CreateNode()` each further one picks the
second value, whatever has been created in between. -/
theorem pickId_repeats (draw : ℕ → UInt8) {usedIds usedIds' : List UInt8}
    (h : NodeFactory.pickId draw usedIds ∈ usedIds') (hgrown : usedIds ⊆ usedIds') :
    NodeFactory.pickId draw usedIds' = draw 1 := by
  have hfirst : draw 0 ∈ usedIds' := by
    rw [pickId_eq] at h
    split_ifs at h with hused
    · exact hgrown hused
    · exact h
  rw [pickId_eq, if_pos hfirst]

theorem createNodeWithId_usedIds {env : CreationEnv} {nodeId : UInt8}
    {factory factory' : NodeFactory} {node : Node C SocketCANTransceiver R}
    (h : factory.createNodeWithId env nodeId = some (factory', node)) :
    factory'.usedIds = factory.usedIds ++ [nodeId] := by
  unfold NodeFactory.createNodeWithId at h
  split at h
  · cases h
  · obtain ⟨transceiver, -, h⟩ := Option.bind_eq_some_iff.mp h
    cases h
    rfl

theorem createLatencyNode_usedIds {env : CreationEnv} {nodeId : UInt8}
    {factory factory' : NodeFactory} {node : Node C SocketCANTransceiver R}
    (h : factory.createLatencyNode env nodeId = some (factory', node)) :
    factory'.usedIds = factory.usedIds ++ [nodeId] := by
  unfold NodeFactory.createLatencyNode at h
  split at h
  · cases h
  · obtain ⟨transceiver, -, h⟩ := Option.bind_eq_some_iff.mp h
    obtain ⟨node', -, h⟩ := Option.bind_eq_some_iff.mp h
    cases h
    rfl

/-- A call that returns has recorded its ID behind those used before. -/
theorem FactoryCall.run_usedIds {factory factory' : NodeFactory} {call : FactoryCall}
    (h : call.run C R factory = some factory') :
    factory'.usedIds = factory.usedIds ++ call.recorded factory := by
  cases call with
  | addSocketCanInterface name =>
    rw [← Option.some.inj h]
    exact (List.append_nil _).symm
  | createNode env draw =>
    obtain ⟨⟨f, node⟩, hcreate, rfl⟩ := Option.map_eq_some_iff.mp h
    exact createNodeWithId_usedIds hcreate
  | createNodeWithId env nodeId =>
    obtain ⟨⟨f, node⟩, hcreate, rfl⟩ := Option.map_eq_some_iff.mp h
    exact createNodeWithId_usedIds hcreate
  | createLatencyNode env nodeId =>
    obtain ⟨⟨f, node⟩, hcreate, rfl⟩ := Option.map_eq_some_iff.mp h
    exact createLatencyNode_usedIds hcreate
  | createLatencyRequestNode env taskNextRun nodeId interval =>
    obtain ⟨⟨f, node⟩, hcreate, rfl⟩ := Option.map_eq_some_iff.mp h
    obtain ⟨⟨f', node'⟩, hlatency, hcreate⟩ := Option.bind_eq_some_iff.mp hcreate
    cases hcreate
    exact createLatencyNode_usedIds hlatency
  | createLatencyResponseNode env nodeId =>
    obtain ⟨⟨f, node⟩, hcreate, rfl⟩ := Option.map_eq_some_iff.mp h
    obtain ⟨⟨f', node'⟩, hlatency, hcreate⟩ := Option.bind_eq_some_iff.mp hcreate
    cases hcreate
    exact createLatencyNode_usedIds hlatency

theorem runFactory_append (factory : NodeFactory) (calls calls' : List FactoryCall) :
    runFactory C R factory (calls ++ calls') =
      (runFactory C R factory calls).bind fun factory => runFactory C R factory calls' := by
  induction calls generalizing factory with
  | nil => rfl
  | cons call calls ih =>
    rw [List.cons_append, runFactory, runFactory, Option.bind_assoc]
    congr 1
    funext factory'
    exact ih factory'

/-- No ID is ever forgotten. -/
theorem runFactory_usedIds {factory factory' : NodeFactory} {calls : List FactoryCall}
    (h : runFactory C R factory calls = some factory') : factory.usedIds ⊆ factory'.usedIds := by
  induction calls generalizing factory with
  | nil =>
    rw [← Option.some.inj h]
    exact List.Subset.refl _
  | cons call calls ih =>
    obtain ⟨f, hcall, h⟩ := Option.bind_eq_some_iff.mp h
    apply List.Subset.trans _ (ih h)
    rw [FactoryCall.run_usedIds hcall]
    exact List.subset_append_left _ _

/-- What `CreateNode()` picked is used in every later state. -/
theorem picked_mem {factory factory' : NodeFactory} {env : CreationEnv} {draw : ℕ → UInt8}
    {calls : List FactoryCall}
    (h : runFactory C R factory (.createNode env draw :: calls) = some factory') :
    NodeFactory.pickId draw factory.usedIds ∈ factory'.usedIds := by
  obtain ⟨f, hcall, h⟩ := Option.bind_eq_some_iff.mp h
  apply runFactory_usedIds h
  rw [FactoryCall.run_usedIds hcall]
  exact List.mem_append_right _ (List.mem_singleton.mpr rfl)

/-- Of the calls of `CreateNode()` with one generator the second and the third pick the same ID,
whatever comes in between. -/
theorem third_pick_repeats {factory f f' : NodeFactory} {env env' : CreationEnv}
    {draw : ℕ → UInt8} {mid mid' : List FactoryCall}
    (h : runFactory C R factory (.createNode env draw :: mid) = some f)
    (h' : runFactory C R f (.createNode env' draw :: mid') = some f') :
    NodeFactory.pickId draw f.usedIds = NodeFactory.pickId draw f'.usedIds := by
  have hsecond := pickId_repeats draw (picked_mem h) (runFactory_usedIds h)
  have hthird := pickId_repeats draw (picked_mem h') (runFactory_usedIds h')
  exact hsecond.trans hthird.symm

/-- `P` holds of the values drawn and the IDs used before in every call of `CreateNode()`. -/
def InEveryCreation (C : Canard) (R : ℕ) (factory : NodeFactory) (calls : List FactoryCall)
    (P : (ℕ → UInt8) → List UInt8 → Prop) : Prop :=
  ∀ pre env draw post f, calls = pre ++ .createNode env draw :: post →
    runFactory C R factory pre = some f → P draw f.usedIds

/-- `CreateNode()` picks no ID that was used before, and never the same twice. -/
structure UniqueIds (C : Canard) (R : ℕ) (factory : NodeFactory) (calls : List FactoryCall) :
    Prop where
  unused : InEveryCreation C R factory calls fun draw usedIds =>
    NodeFactory.pickId draw usedIds ∉ usedIds
  distinct : ∀ pre env draw mid env' draw' post f f',
    calls = pre ++ .createNode env draw :: (mid ++ .createNode env' draw' :: post) →
    runFactory C R factory pre = some f →
    runFactory C R f (.createNode env draw :: mid) = some f' →
      NodeFactory.pickId draw f.usedIds ≠ NodeFactory.pickId draw' f'.usedIds

/-- The IDs picked in a factory's life are unique exactly if in every call of `CreateNode()` one of
the first two values drawn is free. -/
theorem uniqueIds_iff (C : Canard) (R : ℕ) (usedIds : List UInt8) (calls : List FactoryCall) :
    UniqueIds C R (NodeFactory.construct usedIds) calls ↔
      InEveryCreation C R (NodeFactory.construct usedIds) calls fun draw usedIds =>
        draw 0 ∉ usedIds ∨ draw 1 ∉ usedIds := by
  have hiff : InEveryCreation C R (NodeFactory.construct usedIds) calls
      (fun draw usedIds => NodeFactory.pickId draw usedIds ∉ usedIds) ↔
      InEveryCreation C R (NodeFactory.construct usedIds) calls
        fun draw usedIds => draw 0 ∉ usedIds ∨ draw 1 ∉ usedIds := by
    unfold InEveryCreation
    simp only [pickId_not_mem_iff]
  constructor
  · intro h
    exact hiff.mp h.unused
  · intro h
    have hunused := hiff.mpr h
    refine ⟨hunused, ?_⟩
    intro pre env draw mid env' draw' post f f' hcalls hf hf' hsame
    have hsplit : calls =
        (pre ++ .createNode env draw :: mid) ++ .createNode env' draw' :: post := by
      rw [hcalls, List.append_assoc, List.cons_append]
    have hrun : runFactory C R (NodeFactory.construct usedIds)
        (pre ++ .createNode env draw :: mid) = some f' := by
      rw [runFactory_append, hf]
      exact hf'
    -- the earlier pick is on record when the later one is made
    exact hunused _ env' draw' post f' hsplit hrun (hsame ▸ picked_mem hf')

/-- A generator that counts. -/
def countingDraw (n : ℕ) : UInt8 := UInt8.ofNat (n % 126)

/-- Three nodes of one factory without used IDs. -/
def threeCreations : List FactoryCall :=
  [.addSocketCanInterface "vcan0", .createNode vcanEnv countingDraw,
    .createNode vcanEnv countingDraw, .createNode vcanEnv countingDraw]

/-- The second and the third node get the ID 1, and 2 would have been free. -/
theorem third_node_shares_id :
    (∀ n, countingDraw n ≤ 125) ∧ countingDraw 2 ∉ ([0, 1] : List UInt8) ∧
      ¬ UniqueIds SingleFrame.canard 1 (NodeFactory.construct []) threeCreations := by
  refine ⟨?_, by decide, ?_⟩
  · intro n
    have hlt : n % 126 < 126 := Nat.mod_lt n (by omega)
    rw [UInt8.le_iff_toNat_le, countingDraw, UInt8.toNat_ofNat_of_lt' (hlt.trans (by decide))]
    exact Nat.le_of_lt_succ hlt
  · intro h
    have hunused := h.unused (threeCreations.take 3) vcanEnv countingDraw []
      ⟨[0, 1], ["vcan0"]⟩ rfl rfl
    exact hunused (by decide)

end CyphalOnboard

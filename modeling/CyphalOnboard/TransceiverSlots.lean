import CyphalOnboard.Configuration
import CyphalOnboard.NodeFactory

namespace CyphalOnboard

open OpenCyphal

variable {C : Canard} {τ : Type} {R : ℕ}

/-- Slot `i` holds the transceiver at position `i`, and the slots behind the list are empty. -/
def HoldsInOrder (s : OpenCyphal C τ R) (transceivers : List τ) : Prop :=
  ∀ i : Fin R, s.transceiver i = transceivers[i.val]?

/-- A node takes the transceivers one by one. -/
def addEach (s : OpenCyphal C τ R) (transceivers : List τ) : OpenCyphal C τ R :=
  transceivers.foldl (fun s transceiver => s.addTransceiver (some transceiver)) s

/-- A node with the transceivers given to it, the first of them to the constructor. -/
def equip (nodeId : CanardNodeID) (first : τ) (rest : List τ) : OpenCyphal C τ R :=
  addEach (construct nodeId first) rest

theorem holdsInOrder_construct (nodeId : CanardNodeID) (first : τ) :
    HoldsInOrder (construct nodeId first : OpenCyphal C τ R) [first] := by
  intro i
  simp only [construct]
  split_ifs with hi
  · rw [hi]
    rfl
  · rw [List.getElem?_eq_none]
    rw [List.length_singleton]
    omega

/-- Density is kept: the next transceiver goes behind those before it, or nowhere. -/
theorem HoldsInOrder.add {s : OpenCyphal C τ R} {transceivers : List τ}
    (h : HoldsInOrder s transceivers) (hc : s.crashed = none) (transceiver : τ) :
    HoldsInOrder (s.addTransceiver (some transceiver)) (transceivers ++ [transceiver]) := by
  have hfilled {i : Fin R} (hi : i.val < transceivers.length) : (s.transceiver i).isSome := by
    rw [h i, List.getElem?_eq_getElem hi]
    rfl
  by_cases hfull : R ≤ transceivers.length
  · rw [addTransceiver_full hc fun i => hfilled (lt_of_lt_of_le i.isLt hfull)]
    intro i
    rw [h i, List.getElem?_append_left (lt_of_lt_of_le i.isLt hfull)]
  have hlt : transceivers.length < R := not_le.mp hfull
  have hk : s.transceiver ⟨transceivers.length, hlt⟩ = none := by
    rw [h, List.getElem?_eq_none (le_refl _)]
  intro i
  rw [addTransceiver_first_empty hc (fun i hi => hfilled (Fin.lt_def.mp hi)) hk, h i]
  split_ifs with hik
  · rw [hik, List.getElem?_concat_length]
  · have hne : i.val ≠ transceivers.length := fun he => hik (Fin.ext he)
    rcases lt_or_gt_of_ne hne with hlt | hgt
    · rw [List.getElem?_append_left hlt]
    · rw [List.getElem?_eq_none hgt.le, List.getElem?_eq_none]
      rw [List.length_append, List.length_singleton]
      omega

theorem HoldsInOrder.addEach {s : OpenCyphal C τ R} {transceivers : List τ}
    (h : HoldsInOrder s transceivers) (hc : s.crashed = none) (rest : List τ) :
    HoldsInOrder (addEach s rest) (transceivers ++ rest) := by
  induction rest generalizing s transceivers with
  | nil =>
    rw [List.append_nil]
    exact h
  | cons transceiver rest ih =>
    rw [← List.singleton_append, ← List.append_assoc]
    exact ih (h.add hc transceiver) ((addTransceiver_frame s transceiver).2.2.trans hc)

theorem holdsInOrder_equip (nodeId : CanardNodeID) (first : τ) (rest : List τ) :
    HoldsInOrder (equip nodeId first rest : OpenCyphal C τ R) (first :: rest) :=
  (holdsInOrder_construct nodeId first).addEach rfl rest

/-- A slot that holds a transceiver holds one of the list, and keeps it when the list grows. -/
theorem HoldsInOrder.kept {s s' : OpenCyphal C τ R} {transceivers rest : List τ}
    (h : HoldsInOrder s transceivers) (h' : HoldsInOrder s' (transceivers ++ rest)) {i : Fin R}
    (hi : s.transceiver i ≠ none) : s'.transceiver i = s.transceiver i := by
  have hlt : i.val < transceivers.length := by
    by_contra hge
    exact hi (by rw [h i, List.getElem?_eq_none (not_lt.mp hge)])
  rw [h' i, h i, List.getElem?_append_left hlt]

theorem HoldsInOrder.injective {s : OpenCyphal C τ R} {transceivers : List τ}
    (h : HoldsInOrder s transceivers) (hd : transceivers.Nodup) {i j : Fin R}
    (hi : s.transceiver i ≠ none) (hij : s.transceiver i = s.transceiver j) : i = j := by
  rw [h i] at hi hij
  rw [h j] at hij
  obtain ⟨hlt, -⟩ := List.getElem?_eq_some_iff.mp (Option.ne_none_iff_exists'.mp hi).choose_spec
  exact Fin.ext ((List.getElem?_inj hlt hd).mp hij)

/-- Interface `i` of the node is the one opened under the name at position `i`. -/
structure BindsInOrder (env : CreationEnv) (names : List String)
    (node : Node C SocketCANTransceiver R) : Prop where
  ifrName : ∀ i : Fin R, (node.host.base.transceiver i).map (·.ifrName) = names[i.val]?
  opened : ∀ (i : Fin R) (name : String), names[i.val]? = some name →
    node.host.base.transceiver i = SocketCANTransceiver.construct (env.kernel i) name true

/-- The transceivers opened for the names, from number `k` on. -/
structure Opened (env : CreationEnv) (k : ℕ) (names : List String)
    (opened : List SocketCANTransceiver) : Prop where
  length : opened.length = names.length
  nth : ∀ n name, names[n]? = some name →
    opened[n]? = SocketCANTransceiver.construct (env.kernel (k + n)) name true

theorem Opened.cons {env : CreationEnv} {k : ℕ} {name : String} {names : List String}
    {transceiver : SocketCANTransceiver} {opened : List SocketCANTransceiver}
    (hopen : SocketCANTransceiver.construct (env.kernel k) name true = some transceiver)
    (h : Opened env (k + 1) names opened) :
    Opened env k (name :: names) (transceiver :: opened) where
  length := congrArg (· + 1) h.length
  nth n name' hn := by
    cases n with
    | zero =>
      rw [List.getElem?_cons_zero] at hn ⊢
      rw [← Option.some.inj hn, Nat.add_zero, hopen]
    | succ n =>
      rw [List.getElem?_cons_succ] at hn ⊢
      rw [h.nth n name' hn, Nat.add_right_comm, Nat.add_assoc]

theorem addInterfaces_slots {env : CreationEnv} {k : ℕ} {names : List String}
    {node node' : Node C SocketCANTransceiver R}
    (h : NodeFactory.addInterfaces env k names node = some node') :
    ∃ opened, Opened env k names opened ∧ node'.host.base = addEach node.host.base opened := by
  induction names generalizing k node with
  | nil =>
    rw [← Option.some.inj h]
    exact ⟨[], ⟨rfl, by simp⟩, rfl⟩
  | cons name names ih =>
    obtain ⟨transceiver, hopen, h⟩ := Option.bind_eq_some_iff.mp h
    obtain ⟨opened, hopened, hbase⟩ := ih h
    exact ⟨transceiver :: opened, hopened.cons hopen, hbase⟩

theorem construct_ifrName {kernel : Kernel} {name : String} {canFd : Bool}
    {transceiver : SocketCANTransceiver}
    (h : SocketCANTransceiver.construct kernel name canFd = some transceiver) :
    transceiver.ifrName = name := by
  obtain ⟨socket, -, h⟩ := Option.map_eq_some_iff.mp h
  rw [← h]

theorem HoldsInOrder.binds {env : CreationEnv} {names : List String}
    {opened : List SocketCANTransceiver} {node : Node C SocketCANTransceiver R}
    (h : HoldsInOrder node.host.base opened) (hopened : Opened env 0 names opened) :
    BindsInOrder env names node := by
  have hnth (i : Fin R) (name : String) (hi : names[i.val]? = some name) :
      node.host.base.transceiver i = SocketCANTransceiver.construct (env.kernel i) name true := by
    rw [h i, hopened.nth i name hi, Nat.zero_add]
  refine ⟨fun i => ?_, hnth⟩
  cases hi : names[i.val]? with
  | none =>
    have hlen := List.getElem?_eq_none_iff.mp hi
    rw [h i, List.getElem?_eq_none (hopened.length ▸ hlen)]
    rfl
  | some name =>
    have hlt : i.val < opened.length := by
      rw [hopened.length]
      exact (List.getElem?_eq_some_iff.mp hi).1
    have hslot := h i
    rw [List.getElem?_eq_getElem hlt] at hslot
    have hopen := (hnth i name hi).symm.trans hslot
    rw [hslot, Option.map_some, construct_ifrName hopen]

/-- The subscription in the constructor of a node leaves the slots alone. -/
theorem holdsInOrder_node (nodeId : CanardNodeID) (transceiver : τ) (info : GetInfoResponse)
    (latency : Option (Fin 32 → UInt64)) (online : Bool) (nextRun : UInt64) :
    (Node.construct nodeId transceiver info latency online nextRun : Node C τ R).host.base.crashed =
        none ∧
      HoldsInOrder
        (Node.construct nodeId transceiver info latency online nextRun : Node C τ R).host.base
        [transceiver] :=
  ⟨rfl, holdsInOrder_construct (C := C) nodeId transceiver⟩

theorem bindsInOrder_latencyNode {env : CreationEnv} {nodeId : UInt8}
    {factory factory' : NodeFactory} {node : Node C SocketCANTransceiver R}
    (h : factory.createLatencyNode env nodeId = some (factory', node)) :
    BindsInOrder env factory.socketCanInterfaces node := by
  unfold NodeFactory.createLatencyNode at h
  cases hnames : factory.socketCanInterfaces with
  | nil =>
    rw [hnames] at h
    cases h
  | cons name names =>
    rw [hnames] at h
    obtain ⟨transceiver, hopen, h⟩ := Option.bind_eq_some_iff.mp h
    obtain ⟨node', hadd, h⟩ := Option.bind_eq_some_iff.mp h
    obtain ⟨opened, hopened, hbase⟩ := addInterfaces_slots hadd
    have hnode : node' = node := congrArg Prod.snd (Option.some.inj h)
    obtain ⟨hc, hfirst⟩ := holdsInOrder_node (C := C) (R := R) nodeId transceiver
      (NodeFactory.nodeInfo env "org.icarus.latency." nodeId) (some env.latency) env.online
      env.nextRun
    have hall := hfirst.addEach hc opened
    rw [← hbase, hnode] at hall
    exact HoldsInOrder.binds hall (hopened.cons hopen)

/-- The transceivers given to a node fill its slots densely and in order, as many as fit, and so do
the interfaces of a latency node. -/
theorem slots_filled_in_order (C : Canard) (τ : Type) (R : ℕ) :
    (∀ (nodeId : CanardNodeID) (first : τ) (rest : List τ),
      HoldsInOrder (equip nodeId first rest : OpenCyphal C τ R) (first :: rest) ∧
      ((first :: rest).Nodup → ∀ i j : Fin R,
        (equip nodeId first rest : OpenCyphal C τ R).transceiver i ≠ none →
        (equip nodeId first rest : OpenCyphal C τ R).transceiver i =
          (equip nodeId first rest : OpenCyphal C τ R).transceiver j → i = j) ∧
      ∀ pre post, rest = pre ++ post → ∀ i : Fin R,
        (equip nodeId first pre : OpenCyphal C τ R).transceiver i ≠ none →
        (equip nodeId first rest : OpenCyphal C τ R).transceiver i =
          (equip nodeId first pre : OpenCyphal C τ R).transceiver i) ∧
    ∀ (env : CreationEnv) (nodeId : UInt8) (factory factory' : NodeFactory)
      (node : Node C SocketCANTransceiver R),
      factory.createLatencyNode env nodeId = some (factory', node) →
        BindsInOrder env factory.socketCanInterfaces node := by
  constructor
  · intro nodeId first rest
    refine ⟨holdsInOrder_equip nodeId first rest, ?_, ?_⟩
    · intro hd i j hi hij
      exact (holdsInOrder_equip nodeId first rest).injective hd hi hij
    · rintro pre post rfl i hi
      exact (holdsInOrder_equip nodeId first pre).kept
        (holdsInOrder_equip nodeId first (pre ++ post)) hi
  · intro env nodeId factory factory' node h
    exact bindsInOrder_latencyNode h

/-- Three interfaces on a node with two slots. -/
def threeNames : NodeFactory :=
  (((NodeFactory.construct []).addSocketCanInterface "vcan0").addSocketCanInterface
    "vcan1").addSocketCanInterface "vcan2"

theorem slots_filled_in_order_two :
    HoldsInOrder (equip 1 10 [20, 30] : OpenCyphal SingleFrame.canard ℕ 2) [10, 20, 30] ∧
      (equip 1 10 [20, 30] : OpenCyphal SingleFrame.canard ℕ 2).transceiver 0 =
        (equip 1 10 [20] : OpenCyphal SingleFrame.canard ℕ 2).transceiver 0 ∧
      ∃ factory', ∃ node : Node SingleFrame.canard SocketCANTransceiver 2,
        threeNames.createLatencyNode vcanEnv 1 = some (factory', node) ∧
          BindsInOrder vcanEnv ["vcan0", "vcan1", "vcan2"] node := by
  obtain ⟨hslots, -, hkept⟩ :=
    (slots_filled_in_order SingleFrame.canard ℕ 2).1 1 10 [20, 30]
  refine ⟨hslots, hkept [20] [30] rfl 0 (by decide), _, _, rfl, ?_⟩
  exact (slots_filled_in_order SingleFrame.canard ℕ 2).2 vcanEnv 1 threeNames _ _ rfl

end CyphalOnboard

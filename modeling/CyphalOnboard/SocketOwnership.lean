import CyphalOnboard.SocketCan
import Mathlib.Data.Finset.Basic
import Mathlib.Data.Multiset.AddSub
import Mathlib.Logic.Relation

namespace CyphalOnboard

/-- A socket gets a descriptor that is not in use. -/
def Kernel.Fresh (kernel : Kernel) (opened : Finset ℤ) : Prop := kernel.socket ∉ opened

instance (kernel : Kernel) (opened : Finset ℤ) : Decidable (kernel.Fresh opened) :=
  inferInstanceAs (Decidable (_ ∉ _))

/-- The open descriptors when `socketcanOpen` returns. -/
def socketcanOpened (kernel : Kernel) (ifaceName : String) (canFd : Bool) (opened : Finset ℤ) :
    Finset ℤ :=
  let ifaceNameSize := ifaceName.utf8ByteSize + 1
  if ifaceNameSize > ifNameSize then opened
  else
    let fd := kernel.socket
    let opened := if 0 ≤ fd then insert fd opened else opened
    if socketReady kernel fd ifaceName canFd then opened
    -- `(void) close(fd)`, also where `socket` has failed
    else opened.erase fd

/-- The copy constructor opens the interface again. -/
def SocketCANTransceiver.copy (kernel : Kernel) (otherTransceiver : SocketCANTransceiver) :
    Option SocketCANTransceiver :=
  (socketcanOpen kernel (cStr otherTransceiver.ifrName) otherTransceiver.canFd).map fun socket =>
    { otherTransceiver with socket := socket }

/-- The open descriptors when the destructor has closed the socket. -/
def SocketCANTransceiver.destroyed (transceiver : SocketCANTransceiver) (opened : Finset ℤ) :
    Finset ℤ := opened.erase transceiver.socket

theorem socketReady_nonneg {kernel : Kernel} {fd : SocketCANFD} {ifaceName : String} {canFd : Bool}
    (h : socketReady kernel fd ifaceName canFd = true) : 0 ≤ fd := by
  unfold socketReady at h
  simp only [Bool.and_eq_true, decide_eq_true_eq] at h
  exact h.1.1.1.1.1

/-- Either the one socket is open and returned, or a negated errno and nothing has changed. -/
theorem socketcanOpened_cases {kernel : Kernel} {ifaceName : String} {canFd : Bool}
    {opened : Finset ℤ} (hfresh : kernel.Fresh opened) {socket : SocketCANFD}
    (h : socketcanOpen kernel ifaceName canFd = some socket) :
    (0 ≤ socket ∧ socket ∉ opened ∧
      socketcanOpened kernel ifaceName canFd opened = insert socket opened) ∨
    (socket < 0 ∧ socketcanOpened kernel ifaceName canFd opened = opened) := by
  unfold socketcanOpen at h
  unfold socketcanOpened
  dsimp only at h ⊢
  by_cases hsize : ifaceName.utf8ByteSize + 1 > ifNameSize
  · rw [if_pos hsize] at h ⊢
    rw [← Option.some.inj h]
    exact .inr ⟨by decide, rfl⟩
  rw [if_neg hsize] at h ⊢
  by_cases hready : socketReady kernel kernel.socket ifaceName canFd = true
  · rw [if_pos hready] at h ⊢
    obtain rfl := Option.some.inj h
    have hfd := socketReady_nonneg hready
    exact .inl ⟨hfd, hfresh, if_pos hfd⟩
  · rw [if_neg hready] at h ⊢
    refine .inr ⟨(getNegatedErrno_neg h).2, ?_⟩
    split_ifs
    · exact Finset.erase_insert hfresh
    · exact Finset.erase_eq_of_notMem hfresh

/-- The open descriptors of the process, those of them that no transceiver has opened, and the
transceivers that are alive. -/
structure SocketTable where
  opened : Finset ℤ
  others : Finset ℤ
  transceivers : List SocketCANTransceiver

namespace SocketTable

/-- The descriptors of the transceivers whose interfaces are open. -/
def sockets (table : SocketTable) : Multiset ℤ :=
  ((table.transceivers.map (·.socket)).filter (0 ≤ ·) : List ℤ)

/-- The process does something else with its descriptors, or with a transceiver; using one changes
none of them. Nothing assigns a transceiver to another. -/
inductive Step (table : SocketTable) : SocketTable → Prop
  | construct (kernel : Kernel) (ifrName : String) (canFd : Bool)
      (transceiver : SocketCANTransceiver) (hfresh : kernel.Fresh table.opened)
      (h : SocketCANTransceiver.construct kernel ifrName canFd = some transceiver) :
      Step table { table with
        opened := socketcanOpened kernel (cStr ifrName) canFd table.opened
        transceivers := table.transceivers ++ [transceiver] }
  | copy (kernel : Kernel) (other transceiver : SocketCANTransceiver)
      (hmem : other ∈ table.transceivers) (hfresh : kernel.Fresh table.opened)
      (h : other.copy kernel = some transceiver) :
      Step table { table with
        opened := socketcanOpened kernel (cStr other.ifrName) other.canFd table.opened
        transceivers := table.transceivers ++ [transceiver] }
  | destroy (pre : List SocketCANTransceiver) (transceiver : SocketCANTransceiver)
      (post : List SocketCANTransceiver) (h : table.transceivers = pre ++ transceiver :: post) :
      Step table { table with
        opened := transceiver.destroyed table.opened
        transceivers := pre ++ post }
  | openOther (fd : ℤ) (hfd : 0 ≤ fd) (h : fd ∉ table.opened) :
      Step table { table with
        opened := insert fd table.opened
        others := insert fd table.others }
  | closeOther (fd : ℤ) (h : fd ∈ table.others) :
      Step table { table with
        opened := table.opened.erase fd
        others := table.others.erase fd }

/-- Each descriptor has one owner. -/
structure Owned (table : SocketTable) : Prop where
  nonneg : ∀ fd ∈ table.opened, 0 ≤ fd
  balance : table.opened.val = table.others.val + table.sockets

theorem sockets_cons (transceiver : SocketCANTransceiver) (pre post : List SocketCANTransceiver) :
    (((pre ++ transceiver :: post).map (·.socket)).filter (0 ≤ ·) : Multiset ℤ) =
      (if 0 ≤ transceiver.socket then {transceiver.socket} else 0) +
        (((pre ++ post).map (·.socket)).filter (0 ≤ ·) : List ℤ) := by
  simp only [List.map_append, List.map_cons, List.filter_append, List.filter_cons,
    ← Multiset.coe_add, decide_eq_true_eq]
  split_ifs
  · rw [← Multiset.cons_coe, Multiset.add_cons, ← Multiset.singleton_add]
  · rw [zero_add]

/-- A transceiver that has opened its interface, or has failed to. -/
theorem Owned.opens {table : SocketTable} (h : table.Owned) {opened : Finset ℤ}
    {transceiver : SocketCANTransceiver}
    (hopened : (0 ≤ transceiver.socket ∧ transceiver.socket ∉ table.opened ∧
        opened = insert transceiver.socket table.opened) ∨
      (transceiver.socket < 0 ∧ opened = table.opened)) :
    Owned { table with
      opened := opened
      transceivers := table.transceivers ++ [transceiver] } := by
  have hsockets := sockets_cons transceiver table.transceivers []
  rw [List.append_nil] at hsockets
  rcases hopened with ⟨hfd, hnew, rfl⟩ | ⟨hfd, rfl⟩
  · refine ⟨(Finset.forall_mem_insert ..).mpr ⟨hfd, h.nonneg⟩, ?_⟩
    rw [sockets, hsockets, if_pos hfd, Finset.insert_val_of_notMem hnew, h.balance, sockets,
      ← Multiset.singleton_add, add_left_comm]
  · refine ⟨h.nonneg, ?_⟩
    rw [sockets, hsockets, if_neg (not_le.mpr hfd), zero_add]
    exact h.balance

/-- Of the transceivers that are alive one is destroyed. -/
theorem Owned.destroys {table : SocketTable} (h : table.Owned)
    {pre post : List SocketCANTransceiver} {transceiver : SocketCANTransceiver}
    (hmem : table.transceivers = pre ++ transceiver :: post) :
    Owned { table with
      opened := transceiver.destroyed table.opened
      transceivers := pre ++ post } := by
  refine ⟨fun fd hfd => h.nonneg fd (Finset.mem_of_mem_erase hfd), ?_⟩
  have hbalance := h.balance
  rw [sockets, hmem, sockets_cons] at hbalance
  rw [SocketCANTransceiver.destroyed, Finset.erase_val, sockets]
  by_cases hfd : 0 ≤ transceiver.socket
  · rw [if_pos hfd, add_left_comm, Multiset.singleton_add] at hbalance
    rw [hbalance, Multiset.erase_cons_head]
  · -- the socket was never open
    rw [if_neg hfd, zero_add] at hbalance
    rw [Multiset.erase_of_notMem fun hin => hfd (h.nonneg _ hin), hbalance]

theorem Owned.step {table table' : SocketTable} (h : table.Owned) (hstep : table.Step table') :
    table'.Owned := by
  cases hstep with
  | construct kernel ifrName canFd transceiver hfresh hopen =>
    obtain ⟨socket, hsocket, rfl⟩ := Option.map_eq_some_iff.mp hopen
    exact h.opens (socketcanOpened_cases hfresh hsocket)
  | copy kernel other transceiver hmem hfresh hopen =>
    obtain ⟨socket, hsocket, rfl⟩ := Option.map_eq_some_iff.mp hopen
    exact h.opens (socketcanOpened_cases hfresh hsocket)
  | destroy pre transceiver post hmem => exact h.destroys hmem
  | openOther fd hfd hnew =>
    refine ⟨(Finset.forall_mem_insert ..).mpr ⟨hfd, h.nonneg⟩, ?_⟩
    have hothers : fd ∉ table.others := by
      intro hin
      have hle : table.others.val ≤ table.opened.val := by
        rw [h.balance]
        exact Multiset.le_add_right ..
      exact hnew (Multiset.mem_of_le hle hin)
    have hbalance := h.balance
    rw [Finset.insert_val_of_notMem hnew, Finset.insert_val_of_notMem hothers,
      Multiset.cons_add, hbalance]
    rfl
  | closeOther fd hin =>
    refine ⟨fun fd' hfd => h.nonneg fd' (Finset.mem_of_mem_erase hfd), ?_⟩
    have hbalance := h.balance
    rw [Finset.erase_val, Finset.erase_val, hbalance]
    exact Multiset.erase_add_left_pos _ hin

theorem reachable_owned {opened : Finset ℤ} (hfds : ∀ fd ∈ opened, 0 ≤ fd) {table : SocketTable}
    (hrun : Relation.ReflTransGen Step ⟨opened, opened, []⟩ table) : table.Owned := by
  induction hrun with
  | refl => exact ⟨hfds, (add_zero _).symm⟩
  | tail _ hstep ih => exact ih.step hstep

/-- In every run the open descriptors are those of the transceivers, each of one, and those the
transceivers have nothing to do with. So no socket is left open, and a destructor closes the socket
of its own transceiver, if that has one, and nothing else. -/
theorem sockets_owned {opened : Finset ℤ} (hfds : ∀ fd ∈ opened, 0 ≤ fd) {table : SocketTable}
    (hrun : Relation.ReflTransGen Step ⟨opened, opened, []⟩ table) :
    table.opened.val = table.others.val + table.sockets ∧
      ∀ pre transceiver post, table.transceivers = pre ++ transceiver :: post →
        (transceiver.socket ∈ table.opened ↔ 0 ≤ transceiver.socket) ∧
        transceiver.socket ∉ table.others ∧
        (0 ≤ transceiver.socket → ∀ other ∈ pre ++ post, other.socket ≠ transceiver.socket) := by
  have h := reachable_owned hfds hrun
  refine ⟨h.balance, fun pre transceiver post hmem => ?_⟩
  have hbalance := h.balance
  rw [sockets, hmem, sockets_cons] at hbalance
  have hnodup := table.opened.nodup
  by_cases hfd : 0 ≤ transceiver.socket
  · rw [if_pos hfd, add_left_comm, Multiset.singleton_add] at hbalance
    rw [hbalance, Multiset.nodup_cons, Multiset.mem_add, not_or] at hnodup
    obtain ⟨⟨hothers, hrest⟩, -⟩ := hnodup
    have hopen : transceiver.socket ∈ table.opened.val := by
      rw [hbalance]
      exact Multiset.mem_cons_self ..
    refine ⟨⟨fun _ => hfd, fun _ => hopen⟩, hothers, fun _ other hother hsame => ?_⟩
    apply hrest
    rw [Multiset.mem_coe, List.mem_filter]
    exact ⟨List.mem_map.mpr ⟨other, hother, hsame⟩, decide_eq_true hfd⟩
  · have hclosed : transceiver.socket ∉ table.opened := fun hin => hfd (h.nonneg _ hin)
    refine ⟨⟨fun hin => absurd hin hclosed, fun hpos => absurd hpos hfd⟩, fun hin => ?_,
      fun hpos => absurd hpos hfd⟩
    apply hclosed
    rw [← Finset.mem_val, h.balance]
    exact Multiset.mem_add.mpr (.inl hin)

-- A transceiver is copied and destroyed, and another interface is not found.

def openingKernel (socket : ℤ) (found : Bool) : Kernel where
  socket := socket
  ioctlIfIndex _ _ := (if found then 0 else -1, 5)
  bind _ _ := 0
  setsockopt _ _ := 0
  ppoll _ _ _ := (0, 0)
  write _ _ _ := -1
  recvmsg _ := (-1, ⟨⟨0, 0, 0, []⟩, 0, none⟩)
  errno := 19

def copiedTable : SocketTable where
  opened := SocketCANTransceiver.destroyed ⟨3, "vcan0", true⟩
    (socketcanOpened (openingKernel 5 false) (cStr "vcan9") true
      (socketcanOpened (openingKernel 4 true) (cStr "vcan0") true
        (socketcanOpened (openingKernel 3 true) (cStr "vcan0") true {0, 1, 2})))
  others := {0, 1, 2}
  transceivers := [⟨4, "vcan0", true⟩, ⟨-19, "vcan9", true⟩]

theorem copiedTable_reachable :
    Relation.ReflTransGen Step ⟨{0, 1, 2}, {0, 1, 2}, []⟩ copiedTable :=
  (((Relation.ReflTransGen.refl.tail
    (.construct (openingKernel 3 true) "vcan0" true ⟨3, "vcan0", true⟩ (by decide) rfl)).tail
    (.copy (openingKernel 4 true) ⟨3, "vcan0", true⟩ ⟨4, "vcan0", true⟩ (by simp) (by decide)
      rfl)).tail
    (.construct (openingKernel 5 false) "vcan9" true ⟨-19, "vcan9", true⟩ (by decide) rfl)).tail
    (.destroy [] ⟨3, "vcan0", true⟩ _ rfl)

theorem sockets_owned_copied :
    copiedTable.opened.val = copiedTable.others.val + copiedTable.sockets ∧
      ∀ pre transceiver post, copiedTable.transceivers = pre ++ transceiver :: post →
        (transceiver.socket ∈ copiedTable.opened ↔ 0 ≤ transceiver.socket) ∧
        transceiver.socket ∉ copiedTable.others ∧
        (0 ≤ transceiver.socket → ∀ other ∈ pre ++ post, other.socket ≠ transceiver.socket) :=
  sockets_owned (by decide) copiedTable_reachable

end SocketTable

end CyphalOnboard

import CyphalOnboard.Configuration
import CyphalOnboard.NodeSpec
import CyphalOnboard.SingleFrameCanard

namespace CyphalOnboard

open OpenCyphal

variable {C : Canard} {τ : Type} {R : ℕ}

/-- The loop of `Publish` over some of the interfaces. -/
def publishOver (s : OpenCyphal C τ R) (deadline : CanardMicrosecond)
    (metadata : CanardTransferMetadata) (payload : List UInt8) (l : List (Fin R)) :
    OpenCyphal C τ R × Option ℤ :=
  l.foldl (fun acc ifidx => acc.1.publishOn deadline metadata payload ifidx) (s, some 0)

/-- What `canardTxPush` answers on interface `i`, whose queue is `que`, on the heap the interfaces
before it have left. -/
def pushOn (s : OpenCyphal C τ R) (deadline : CanardMicrosecond)
    (metadata : CanardTransferMetadata) (payload : List UInt8) (i : Fin R) (que : C.TxQueue) :
    TxPushResult C.TxQueue C.Instance :=
  C.canardTxPush que
    (publishOver s deadline metadata payload ((List.finRange R).take i.val)).1.inst deadline
    metadata payload

/-- Interface `i` has no room for the transfer. -/
def Rejects (s : OpenCyphal C τ R) (deadline : CanardMicrosecond)
    (metadata : CanardTransferMetadata) (payload : List UInt8) (i : Fin R) : Prop :=
  ∃ que ∈ s.txQueues i, (pushOn s deadline metadata payload i que).result < 0

/-- On the way from `s` to `s'` the queue of interface `i` has taken all frames of the transfer. -/
def Enqueued (L : TxLaws C) (s s' : OpenCyphal C τ R) (deadline : CanardMicrosecond)
    (metadata : CanardTransferMetadata) (payload : List UInt8) (i : Fin R) : Prop :=
  ∃ que ∈ s.txQueues i, ∃ frames,
    (pushOn s deadline metadata payload i que).result = (frames.length : ℤ) ∧
      (L.queued s' i).Perm (L.queued s i ++ frames)

/-- The result is non-negative exactly when the transfer is enqueued on every interface. -/
def ReportsFailures (L : TxLaws C) (s : OpenCyphal C τ R) (deadline : CanardMicrosecond)
    (metadata : CanardTransferMetadata) (payload : List UInt8) : Prop :=
  ∃ result, (s.publish deadline metadata payload).2 = some result ∧
    (0 ≤ result ↔
      ∀ i, Enqueued L s (s.publish deadline metadata payload).1 deadline metadata payload i)

theorem publishOn_other (s : OpenCyphal C τ R) (deadline : CanardMicrosecond)
    (metadata : CanardTransferMetadata) (payload : List UInt8) {i j : Fin R} (h : j ≠ i) :
    (s.publishOn deadline metadata payload i).1.txQueues j = s.txQueues j := by
  unfold publishOn
  split
  · rfl
  · rfl
  · exact Function.update_of_ne h _ _

theorem publishOn_push {s : OpenCyphal C τ R} (hc : s.crashed = none) {i : Fin R}
    {que : C.TxQueue} (hi : s.txQueues i = some que) (deadline : CanardMicrosecond)
    (metadata : CanardTransferMetadata) (payload : List UInt8) :
    (s.publishOn deadline metadata payload i).2 =
        some (C.canardTxPush que s.inst deadline metadata payload).result ∧
      (s.publishOn deadline metadata payload i).1.txQueues i =
        some (C.canardTxPush que s.inst deadline metadata payload).que := by
  simp only [publishOn, hc, hi, Function.update_self, and_self]

theorem publishOver_other (s : OpenCyphal C τ R) (deadline : CanardMicrosecond)
    (metadata : CanardTransferMetadata) (payload : List UInt8) {l : List (Fin R)} {j : Fin R}
    (h : j ∉ l) (r : Option ℤ) :
    (l.foldl (fun acc ifidx => acc.1.publishOn deadline metadata payload ifidx) (s, r)).1.txQueues
      j = s.txQueues j := by
  induction l generalizing s r with
  | nil => rfl
  | cons i l ih =>
    rw [List.mem_cons, not_or] at h
    obtain ⟨hji, hjl⟩ := h
    rw [List.foldl_cons]
    exact (ih _ hjl _).trans (publishOn_other s deadline metadata payload hji)

/-- The interfaces before `i`, which `Publish` has come to when it turns to `i`. -/
theorem finRange_split (i : Fin R) :
    ∃ post, List.finRange R = (List.finRange R).take i.val ++ i :: post := by
  refine ⟨(List.finRange R).drop (i.val + 1), ?_⟩
  have hlt : i.val < (List.finRange R).length := by simp
  have hi : (List.finRange R)[i.val] = i := by simp
  conv_lhs => rw [← List.take_append_drop i.val (List.finRange R),
    List.drop_eq_getElem_cons hlt, hi]

theorem publish_split (s : OpenCyphal C τ R) (deadline : CanardMicrosecond)
    (metadata : CanardTransferMetadata) (payload : List UInt8) {i : Fin R} {post : List (Fin R)}
    (hl : List.finRange R = (List.finRange R).take i.val ++ i :: post) :
    s.publish deadline metadata payload =
      post.foldl (fun acc ifidx => acc.1.publishOn deadline metadata payload ifidx)
        ((publishOver s deadline metadata payload ((List.finRange R).take i.val)).1.publishOn
          deadline metadata payload i) := by
  unfold publish publishOver
  conv_lhs => rw [hl, List.foldl_append, List.foldl_cons]

/-- A process that runs pushes on its first interface. -/
theorem publish_first (L : TxLaws C) {s : OpenCyphal C τ R} (hc : s.crashed = none) {i : Fin R}
    (hi : i.val = 0) (hq : (s.txQueues i).isSome) (deadline : CanardMicrosecond)
    (metadata : CanardTransferMetadata) (payload : List UInt8) :
    ∃ r frames evs, (s.publish deadline metadata payload).1.events =
      s.events ++ .push i deadline metadata payload r frames :: evs := by
  obtain ⟨post, hl⟩ := finRange_split i
  obtain ⟨r, frames, hfirst, -⟩ := publishOn_events L hc hq deadline metadata payload
  obtain ⟨evs, hrest, -⟩ := foldl_publishOn_pushes L
    (s.publishOn deadline metadata payload i).1 deadline metadata payload post
    (s.publishOn deadline metadata payload i).2
  refine ⟨r, frames, evs, ?_⟩
  rw [publish_split s deadline metadata payload hl, hi]
  refine hrest.trans ?_
  rw [hfirst, List.append_assoc, List.singleton_append]

/-- The loop makes its push on the queue as it was and on the heap as it is by then. -/
theorem publishOver_push (L : TxLaws C) {s : OpenCyphal C τ R} (hc : s.crashed = none)
    (hq : ∀ i, (s.txQueues i).isSome) (deadline : CanardMicrosecond)
    (metadata : CanardTransferMetadata) (payload : List UInt8) {i : Fin R} {que : C.TxQueue}
    (hi : s.txQueues i = some que) :
    ((publishOver s deadline metadata payload ((List.finRange R).take i.val)).1.publishOn deadline
        metadata payload i).2 = some (pushOn s deadline metadata payload i que).result ∧
      ((publishOver s deadline metadata payload ((List.finRange R).take i.val)).1.publishOn deadline
        metadata payload i).1.txQueues i = some (pushOn s deadline metadata payload i que).que := by
  obtain ⟨post, hl⟩ := finRange_split i
  have hnodup : ((List.finRange R).take i.val ++ i :: post).Nodup := hl ▸ List.nodup_finRange R
  have hnot : i ∉ (List.finRange R).take i.val := fun hm =>
    List.disjoint_of_nodup_append hnodup hm (List.mem_cons_self ..)
  obtain ⟨hc', -, -⟩ := foldl_publishOn_running L deadline metadata payload
    ((List.finRange R).take i.val) (r := some 0) hc rfl hq
  have hi' := (publishOver_other s deadline metadata payload hnot (some 0)).trans hi
  exact publishOn_push (s := (publishOver s deadline metadata payload
    ((List.finRange R).take i.val)).1) hc' hi' deadline metadata payload

theorem publish_queue (L : TxLaws C) {s : OpenCyphal C τ R} (hc : s.crashed = none)
    (hq : ∀ i, (s.txQueues i).isSome) (deadline : CanardMicrosecond)
    (metadata : CanardTransferMetadata) (payload : List UInt8) {i : Fin R} {que : C.TxQueue}
    (hi : s.txQueues i = some que) :
    (s.publish deadline metadata payload).1.txQueues i =
      some (pushOn s deadline metadata payload i que).que := by
  obtain ⟨post, hl⟩ := finRange_split i
  have hnodup : ((List.finRange R).take i.val ++ i :: post).Nodup := hl ▸ List.nodup_finRange R
  have hnot : i ∉ post := (List.nodup_cons.mp (List.nodup_append.mp hnodup).2.1).1
  rw [publish_split s deadline metadata payload hl]
  apply (publishOver_other _ deadline metadata payload hnot _).trans
  exact (publishOver_push L hc hq deadline metadata payload hi).2

/-- The result is that of the last interface. -/
theorem publish_result (L : TxLaws C) {s : OpenCyphal C τ (R + 1)} (hc : s.crashed = none)
    (hq : ∀ i, (s.txQueues i).isSome) (deadline : CanardMicrosecond)
    (metadata : CanardTransferMetadata) (payload : List UInt8) {que : C.TxQueue}
    (hlast : s.txQueues (Fin.last R) = some que) :
    (s.publish deadline metadata payload).2 =
      some (pushOn s deadline metadata payload (Fin.last R) que).result := by
  have hl : List.finRange (R + 1) =
      (List.finRange (R + 1)).take (Fin.last R).val ++ [Fin.last R] := by
    simp [List.finRange_succ_last]
  rw [publish_split s deadline metadata payload hl]
  exact (publishOver_push L hc hq deadline metadata payload hlast).1

/-- What a push does to its queue. -/
theorem enqueued_iff (L : TxLaws C) {s : OpenCyphal C τ R} (hc : s.crashed = none)
    (hq : ∀ i, (s.txQueues i).isSome) (deadline : CanardMicrosecond)
    (metadata : CanardTransferMetadata) (payload : List UInt8) (i : Fin R) :
    Enqueued L s (s.publish deadline metadata payload).1 deadline metadata payload i ↔
      ¬ Rejects s deadline metadata payload i := by
  obtain ⟨que, hi⟩ := Option.isSome_iff_exists.mp (hq i)
  have hqueue := publish_queue L hc hq deadline metadata payload hi
  constructor
  · rintro ⟨que', hque', frames, hresult, -⟩ ⟨que'', hque'', hneg⟩
    obtain rfl : que'' = que' := Option.some.inj (hque''.symm.trans hque')
    omega
  · intro h
    have hpos : 0 ≤ (pushOn s deadline metadata payload i que).result := by
      by_contra hneg
      exact h ⟨que, hi, by omega⟩
    refine ⟨que, hi, _, L.txPush_count _ _ _ _ _ hpos, ?_⟩
    rw [queued_of_some hi, queued_of_some hqueue]
    exact L.txPush_perm _ _ _ _ _ hpos

/-- A redundant publication reports every failure exactly when no interface before the last rejects
the transfer or the last one rejects it too. -/
theorem reportsFailures_iff (L : TxLaws C) (s : OpenCyphal C τ (R + 1)) (hc : s.crashed = none)
    (hq : ∀ i, (s.txQueues i).isSome) (deadline : CanardMicrosecond)
    (metadata : CanardTransferMetadata) (payload : List UInt8) :
    ReportsFailures L s deadline metadata payload ↔
      ((∃ i, Rejects s deadline metadata payload i) →
        Rejects s deadline metadata payload (Fin.last R)) := by
  obtain ⟨que, hlast⟩ := Option.isSome_iff_exists.mp (hq (Fin.last R))
  have hresult := publish_result L hc hq deadline metadata payload hlast
  have hneg : Rejects s deadline metadata payload (Fin.last R) ↔
      (pushOn s deadline metadata payload (Fin.last R) que).result < 0 :=
    ⟨fun ⟨que', hque', h⟩ => Option.some.inj (hque'.symm.trans hlast) ▸ h,
      fun h => ⟨que, hlast, h⟩⟩
  have hall : (∀ i, Enqueued L s (s.publish deadline metadata payload).1 deadline metadata payload
      i) ↔ ¬ ∃ i, Rejects s deadline metadata payload i := by
    rw [not_exists]
    exact forall_congr' (enqueued_iff L hc hq deadline metadata payload)
  unfold ReportsFailures
  rw [hresult, hneg, hall]
  simp only [Option.some.injEq, exists_eq_left']
  by_cases hrejects : ∃ i, Rejects s deadline metadata payload i
  · simp only [hrejects, not_true_eq_false, iff_false, not_le, true_imp_iff]
  · simp only [hrejects, not_false_eq_true, iff_true, false_imp_iff, iff_true]
    by_contra h
    exact hrejects ⟨Fin.last R, hneg.mpr (not_le.mp h)⟩

def emptyMetadata : CanardTransferMetadata := ⟨.nominal, .message, 32, canardNodeIdUnset, 0⟩

/-- Two interfaces, with `n` frames waiting on the first. -/
def waitingOnFirst (n : ℕ) : OpenCyphal SingleFrame.canard Unit 2 :=
  runNode (construct 1 ()) (.addTransceiver () ::
    List.replicate n (.publish (some ⟨0, by decide⟩) 0 emptyMetadata []))

theorem reportsFailures_iff_room :
    ReportsFailures SingleFrame.txLaws (waitingOnFirst 1) 0 emptyMetadata [] ↔
      ((∃ i, Rejects (waitingOnFirst 1) 0 emptyMetadata [] i) →
        Rejects (waitingOnFirst 1) 0 emptyMetadata [] (Fin.last 1)) :=
  reportsFailures_iff SingleFrame.txLaws (waitingOnFirst 1) rfl (by decide) 0 emptyMetadata []

/-- With 100 frames waiting on the first interface its push fails, and the result is that of the
second. -/
theorem failure_unreported :
    ¬ ReportsFailures SingleFrame.txLaws (waitingOnFirst 100) 0 emptyMetadata [] := by
  rintro ⟨result, hresult, h⟩
  have hone : ((waitingOnFirst 100).publish 0 emptyMetadata []).2 = some 1 := by decide +kernel
  obtain rfl : result = 1 := Option.some.inj (hresult.symm.trans hone)
  obtain ⟨que, hque, frames, hlen, -⟩ := h.mp (by decide) ⟨0, by decide⟩
  have hrejected : ((waitingOnFirst 100).txQueues ⟨0, by decide⟩).all fun que =>
      decide ((pushOn (waitingOnFirst 100) 0 emptyMetadata [] ⟨0, by decide⟩ que).result < 0) := by
    decide +kernel
  rw [Option.mem_def.mp hque] at hrejected
  have hneg := of_decide_eq_true hrejected
  omega

end CyphalOnboard

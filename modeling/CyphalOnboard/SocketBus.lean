import CyphalOnboard.SocketCan
import CyphalOnboard.Library.BroadcastLog

namespace CyphalOnboard

open BroadcastLog

/-- The kernel's frame as `socketcanPush` fills it in. -/
def canFdFrameOf (frame : CanardFrame) : CanFdFrame where
  canId := frame.extendedCanId ||| canEffFlag
  len := UInt8.ofNat frame.payload.length
  flags := canFdBrs
  data := frame.payload ++ List.replicate (canFdMaxDlen - frame.payload.length) 0

def mtuOf (frame : CanardFrame) : ℕ :=
  if frame.payload.length > canMaxDlen then canFdMtu else canMtu

/-- Only a poll that finds the socket ready answers more than zero. -/
theorem doPoll_pos {kernel : Kernel} {fd : SocketCANFD} {mask : UInt16}
    {timeoutUsec : CanardMicrosecond} {r : ℤ} (h : doPoll kernel fd mask timeoutUsec = some r) :
    0 < r ↔ r = 1 := by
  constructor
  · intro hpos
    rcases doPoll_documented h with h1 | h0 | ⟨-, hneg⟩
    · exact h1
    · omega
    · omega
  · omega

/-- A frame is accepted exactly when the kernel takes it in the form of `canFdFrameOf`. -/
theorem socketcanPush_accepted_iff {kernel : Kernel} {fd : SocketCANFD} {frame : CanardFrame}
    {timeoutUsec : CanardMicrosecond} {r : ℤ}
    (h : socketcanPush kernel fd (some frame) timeoutUsec = some r) :
    0 < r ↔ frame.payload.length ≤ canFdMaxDlen ∧
      doPoll kernel fd pollOut timeoutUsec = some 1 ∧
      0 ≤ kernel.write fd (canFdFrameOf frame) (mtuOf frame) := by
  unfold socketcanPush at h
  dsimp only at h
  by_cases hsize : frame.payload.length > 255
  · rw [if_pos hsize] at h
    have hr : r = -errnoInvalid := (Option.some.inj h).symm
    have hbig : ¬frame.payload.length ≤ canFdMaxDlen := by
      unfold canFdMaxDlen
      omega
    simp [hr, hbig, errnoInvalid]
  rw [if_neg hsize] at h
  obtain ⟨pollResult, hpoll, h⟩ := Option.bind_eq_some_iff.mp h
  by_cases hpos : pollResult > 0
  · have hone := (doPoll_pos hpoll).mp hpos
    subst hone
    rw [if_pos hpos] at h
    by_cases hlong : frame.payload.length > canFdMaxDlen
    · rw [if_pos hlong] at h
      cases h
    rw [if_neg hlong] at h
    change (if kernel.write fd (canFdFrameOf frame) (mtuOf frame) < 0 then
      getNegatedErrno kernel.errno else some 1) = some r at h
    by_cases hwrite : kernel.write fd (canFdFrameOf frame) (mtuOf frame) < 0
    · rw [if_pos hwrite] at h
      have hneg := (getNegatedErrno_neg h).2
      constructor
      · omega
      · rintro ⟨-, -, htaken⟩
        omega
    · rw [if_neg hwrite] at h
      have hr : r = 1 := (Option.some.inj h).symm
      exact ⟨fun _ => ⟨not_lt.mp hlong, hpoll, not_lt.mp hwrite⟩, fun _ => by omega⟩
  · rw [if_neg hpos] at h
    have hr : r = pollResult := (Option.some.inj h).symm
    constructor
    · omega
    · rintro ⟨-, hready, -⟩
      have hone : pollResult = 1 := Option.some.inj (hpoll.symm.trans hready)
      omega

/-- The message the kernel takes in its `write` when `frame` is pushed. -/
def socketcanWritten (kernel : Kernel) (fd : SocketCANFD) (frame : CanardFrame)
    (timeoutUsec : CanardMicrosecond) : Option CanFdFrame :=
  if frame.payload.length ≤ canFdMaxDlen ∧ doPoll kernel fd pollOut timeoutUsec = some 1 ∧
      0 ≤ kernel.write fd (canFdFrameOf frame) (mtuOf frame) then
    some (canFdFrameOf frame)
  else none

/-- The result of a push tells whether its frame was written. -/
theorem socketcanWritten_eq {kernel : Kernel} {fd : SocketCANFD} {frame : CanardFrame}
    {timeoutUsec : CanardMicrosecond} {r : ℤ}
    (h : socketcanPush kernel fd (some frame) timeoutUsec = some r) :
    socketcanWritten kernel fd frame timeoutUsec =
      if 0 < r then some (canFdFrameOf frame) else none := by
  unfold socketcanWritten
  simp only [socketcanPush_accepted_iff h]

variable {ι : Type} [DecidableEq ι]

/-- What the kernel and its environment decide when a socket is read: the poll and `errno`, whether
the read is refused though a message is waiting, and the time stamp of the message. -/
structure Reading where
  kernel : Kernel
  refused : Bool
  tvSec : ℕ
  tvUsec : ℕ

namespace Reading

/-- The kernel at the socket of `n` on which `waiting` are queued. -/
def kernelFor (reading : Reading) (n : ι) (waiting : List (Entry ι CanFdFrame)) : Kernel :=
  { reading.kernel with
    recvmsg := fun _ =>
      match reading.refused, waiting with
      | false, entry :: _ =>
        (if entry.message.len.toNat > canMaxDlen then canFdMtu else canMtu,
          { frame := entry.message
            msgFlags := if entry.sender = some n then msgConfirm else 0
            control := some (.timestamp reading.tvSec reading.tvUsec) })
      | _, _ => (-1, ⟨⟨0, 0, 0, []⟩, 0, none⟩) }

/-- The number of messages the read takes off the queue, if it has as many. -/
def pops (reading : Reading) (fd : SocketCANFD) : ℕ :=
  if doPoll reading.kernel fd pollIn 0 = some 1 ∧ reading.refused = false then 1 else 0

end Reading

/-- The frame a read hands out: that of an extended data frame that is not a copy of one's own. -/
def handedOut (n : ι) (entry : Entry ι CanFdFrame) : Option CanardFrame :=
  if entry.message.len.toNat ≤ canardMtuCanFd ∧ entry.message.canId &&& canEffFlag ≠ 0 ∧
      entry.message.canId &&& canErrFlag = 0 ∧ entry.message.canId &&& canRtrFlag = 0 ∧
      entry.sender ≠ some n then
    some (frameOf entry.message)
  else none

/-- The first message of a queue, as `socketcanPop` goes through it. -/
theorem popMessage_entry {reading : Reading} (hread : reading.refused = false) (n : ι)
    (entry : Entry ι CanFdFrame) (waiting : List (Entry ι CanFdFrame)) (fd : SocketCANFD)
    {pop : PopResult}
    (h : popMessage (reading.kernelFor n (entry :: waiting)) fd canardMtuCanFd false 1 =
      some pop) :
    (if 0 < pop.result then [pop.frame.getD .zero] else []) = (handedOut n entry).toList := by
  have hsize : ¬(if entry.message.len.toNat > canMaxDlen then canFdMtu else canMtu : ℤ) < 0 ∧
      ¬((if entry.message.len.toNat > canMaxDlen then canFdMtu else canMtu : ℤ) ≠ canMtu ∧
        (if entry.message.len.toNat > canMaxDlen then canFdMtu else canMtu : ℤ) ≠ canFdMtu) := by
    split_ifs <;> decide
  have hearly {r : ℤ} (hr : ¬0 < r) (h : some (PopResult.early r) = some pop) :
      (if 0 < pop.result then [pop.frame.getD .zero] else []) = [] := by
    rw [← Option.some.inj h]
    exact if_neg hr
  have hconfirm : ((if entry.sender = some n then msgConfirm else 0) &&& msgConfirm != 0) =
      decide (entry.sender = some n) := by
    by_cases hown : entry.sender = some n
    · rw [if_pos hown, decide_eq_true hown]
      decide
    · rw [if_neg hown, decide_eq_false hown]
      decide
  have hstamp : 0 ≤ (reading.tvSec : ℤ) ∧ 0 ≤ (reading.tvUsec : ℤ) :=
    ⟨Int.natCast_nonneg _, Int.natCast_nonneg _⟩
  unfold popMessage at h
  simp only [Reading.kernelFor, hread, hconfirm, Bool.not_false, Bool.true_and, if_pos hstamp,
    decide_eq_true_eq] at h
  rw [if_neg hsize.1, if_neg hsize.2] at h
  unfold handedOut
  by_cases hlen : entry.message.len.toNat > canardMtuCanFd
  · rw [if_pos hlen] at h
    rw [hearly (by decide) h, if_neg fun hok => absurd hok.1 (not_le.mpr hlen)]
    rfl
  rw [if_neg hlen] at h
  by_cases hinvalid : entry.message.canId &&& canEffFlag = 0 ∨
      entry.message.canId &&& canErrFlag ≠ 0 ∨ entry.message.canId &&& canRtrFlag ≠ 0
  · rw [if_pos hinvalid] at h
    have hout : ¬(entry.message.len.toNat ≤ canardMtuCanFd ∧
        entry.message.canId &&& canEffFlag ≠ 0 ∧
        entry.message.canId &&& canErrFlag = 0 ∧ entry.message.canId &&& canRtrFlag = 0 ∧
        entry.sender ≠ some n) := by
      rintro ⟨-, heff, herr, hrtr, -⟩
      rcases hinvalid with h0 | h0 | h0
      · exact heff h0
      · exact h0 herr
      · exact h0 hrtr
    rw [hearly (by decide) h, if_neg hout]
    rfl
  rw [if_neg hinvalid] at h
  by_cases hown : entry.sender = some n
  · rw [if_pos hown] at h
    rw [hearly (by decide) h, if_neg fun hok => hok.2.2.2.2 hown]
    rfl
  · rw [if_neg hown] at h
    rw [← Option.some.inj h]
    simp only [not_or, not_not] at hinvalid
    have hok : entry.message.len.toNat ≤ canardMtuCanFd ∧
        entry.message.canId &&& canEffFlag ≠ 0 ∧ entry.message.canId &&& canErrFlag = 0 ∧
        entry.message.canId &&& canRtrFlag = 0 ∧ entry.sender ≠ some n :=
      ⟨not_lt.mp hlen, hinvalid.1, hinvalid.2.1, hinvalid.2.2, hown⟩
    rw [if_pos hok]
    rfl

/-- What is read at a queue: the frame of the message taken off it, if it is handed out. -/
theorem receive_handedOut {reading : Reading} {n : ι} {waiting : List (Entry ι CanFdFrame)}
    {transceiver : SocketCANTransceiver} {pop : PopResult}
    (h : transceiver.receiveCanardFrame (reading.kernelFor n waiting) 0 canardMtuCanFd =
      some pop) :
    (if 0 < pop.result then [pop.frame.getD .zero] else []) =
      (waiting.take (reading.pops transceiver.socket)).filterMap (handedOut n) := by
  obtain ⟨pollResult, hpoll, h⟩ := Option.bind_eq_some_iff.mp h
  have hpoll' : doPoll reading.kernel transceiver.socket pollIn 0 = some pollResult := hpoll
  have hnothing (hr : ¬0 < pop.result) (hpops : reading.pops transceiver.socket = 0) :
      (if 0 < pop.result then [pop.frame.getD .zero] else []) =
        (waiting.take (reading.pops transceiver.socket)).filterMap (handedOut n) := by
    rw [if_neg hr, hpops, List.take_zero]
    rfl
  -- a read that fails hands out nothing
  have hfailed (hsize : ((reading.kernelFor n waiting).recvmsg transceiver.socket).1 < 0)
      (h : popMessage (reading.kernelFor n waiting) transceiver.socket canardMtuCanFd false 1 =
        some pop) : ¬0 < pop.result := by
    unfold popMessage at h
    dsimp only at h
    rw [if_pos hsize] at h
    obtain ⟨r, herrno, h⟩ := Option.map_eq_some_iff.mp h
    rw [← h]
    exact not_lt.mpr (getNegatedErrno_neg herrno).2.le
  by_cases hpos : pollResult > 0
  · have hone := (doPoll_pos hpoll).mp hpos
    subst hone
    rw [if_pos hpos] at h
    cases hrefused : reading.refused with
    | true =>
      have hpops : reading.pops transceiver.socket = 0 := by
        simp [Reading.pops, hrefused]
      exact hnothing (hfailed (by simp [Reading.kernelFor, hrefused]) h) hpops
    | false =>
      have hpops : reading.pops transceiver.socket = 1 := by
        simp [Reading.pops, hrefused, hpoll']
      cases waiting with
      | nil =>
        rw [if_neg (hfailed (by simp [Reading.kernelFor, hrefused]) h)]
        rw [List.take_nil]
        rfl
      | cons entry waiting =>
        rw [hpops, popMessage_entry hrefused n entry waiting _ h]
        simp only [List.take_succ_cons, List.take_zero, List.filterMap_cons, List.filterMap_nil]
        cases handedOut n entry <;> rfl
  · have hr : pop.result = pollResult := by
      rw [if_neg hpos] at h
      rw [← Option.some.inj h]
      rfl
    have hpops : reading.pops transceiver.socket = 0 := by
      have hne : pollResult ≠ 1 := by omega
      simp [Reading.pops, hpoll', hne]
    exact hnothing (by omega) hpops

theorem or_and_distrib (a b c : UInt32) : (a ||| b) &&& c = (a &&& c) ||| (b &&& c) := by
  apply UInt32.toBitVec_inj.mp
  rw [UInt32.toBitVec_and, UInt32.toBitVec_or, UInt32.toBitVec_or, UInt32.toBitVec_and,
    UInt32.toBitVec_and]
  exact BitVec.and_or_distrib_right

theorem CanardFrame.and_canEffMask (frame : CanardFrame) :
    frame.extendedCanId &&& canEffMask = frame.extendedCanId := by
  rw [← UInt32.toNat_inj, UInt32.toNat_and]
  change frame.extendedCanId.toNat &&& (2 ^ 29 - 1) = frame.extendedCanId.toNat
  rw [Nat.and_two_pow_sub_one_eq_mod, Nat.mod_eq_of_lt frame.extendedCanId_lt]

/-- No flag of the kernel's frame is one of the identifier's bits. -/
theorem CanardFrame.flags (frame : CanardFrame) :
    (canFdFrameOf frame).canId &&& canEffFlag ≠ 0 ∧ (canFdFrameOf frame).canId &&& canErrFlag = 0 ∧
      (canFdFrameOf frame).canId &&& canRtrFlag = 0 ∧
      (canFdFrameOf frame).canId &&& canEffMask = frame.extendedCanId := by
  have hoff {flag : UInt32} (hflag : canEffMask &&& flag = 0) :
      frame.extendedCanId &&& flag = 0 := by
    rw [← frame.and_canEffMask, UInt32.and_assoc, hflag, UInt32.and_zero]
  unfold canFdFrameOf
  dsimp only
  simp only [or_and_distrib]
  rw [hoff (by decide : canEffMask &&& canEffFlag = 0),
    hoff (by decide : canEffMask &&& canErrFlag = 0),
    hoff (by decide : canEffMask &&& canRtrFlag = 0), frame.and_canEffMask]
  refine ⟨by decide, by decide, by decide, ?_⟩
  rw [(by decide : canEffFlag &&& canEffMask = 0), UInt32.or_zero]

theorem canFdFrameOf_len {frame : CanardFrame} (h : frame.payload.length ≤ canFdMaxDlen) :
    (canFdFrameOf frame).len.toNat = frame.payload.length := by
  change (UInt8.ofNat frame.payload.length).toNat = _
  unfold canFdMaxDlen at h
  rw [UInt8.toNat_ofNat']
  exact Nat.mod_eq_of_lt (by omega)

theorem frameOf_canFdFrameOf {frame : CanardFrame}
    (hpayload : frame.payload.length ≤ canFdMaxDlen) : frameOf (canFdFrameOf frame) = frame := by
  have hdata : (canFdFrameOf frame).data.take frame.payload.length = frame.payload :=
    List.take_left
  have hid := frame.flags.2.2.2
  unfold frameOf
  simp only [canFdFrameOf_len hpayload, hdata, hid]

/-- A frame written on the bus is handed out to the others as it was. -/
theorem handedOut_written {frame : CanardFrame}
    (hpayload : frame.payload.length ≤ canFdMaxDlen) {n : ι} {entry : Entry ι CanFdFrame}
    (hmessage : entry.message = canFdFrameOf frame) (hsender : entry.sender ≠ some n) :
    handedOut n entry = some frame := by
  obtain ⟨heff, herr, hrtr, -⟩ := frame.flags
  unfold handedOut
  rw [hmessage, canFdFrameOf_len hpayload, if_pos ⟨hpayload, heff, herr, hrtr, hsender⟩,
    frameOf_canFdFrameOf hpayload]

/-- The own copy of a frame is dropped. -/
theorem handedOut_own {n : ι} {entry : Entry ι CanFdFrame} (h : entry.sender = some n) :
    handedOut n entry = none :=
  if_neg fun hok => hok.2.2.2.2 h

end CyphalOnboard

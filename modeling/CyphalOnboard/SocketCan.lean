import CyphalOnboard.OpenCyphal

namespace CyphalOnboard

/-- File descriptor alias. -/
abbrev SocketCANFD := ℤ

/-- `IFNAMSIZ`. -/
def ifNameSize : ℕ := 16

def errnoIo : ℤ := 5
def errnoInvalid : ℤ := 22
def errnoFileTooBig : ℤ := 27
def errnoNameTooLong : ℤ := 36

def int16Min : ℤ := -32768

def pollIn : UInt16 := 1
def pollOut : UInt16 := 4

def canMtu : ℕ := 16
def canFdMtu : ℕ := 72
def canMaxDlen : ℕ := 8
def canFdMaxDlen : ℕ := 64
def canFdBrs : UInt8 := 1

def canEffFlag : UInt32 := 0x80000000
def canRtrFlag : UInt32 := 0x40000000
def canErrFlag : UInt32 := 0x20000000
def canEffMask : UInt32 := 0x1FFFFFFF
def msgConfirm : UInt32 := 0x800

structure Timespec where
  tvSec : UInt64
  tvNsec : UInt64

inductive SocketOption where
  | canRawFdFrames
  | timestamp
  | canRawRecvOwnMsgs

structure CanFdFrame where
  canId : UInt32
  len : UInt8
  flags : UInt8
  data : List UInt8

/-- The ancillary data of a received message. -/
inductive ControlMessage where
  | timestamp (tvSec tvUsec : ℤ)
  | other

/-- What `recvmsg` fills in. -/
structure ReceivedMessage where
  frame : CanFdFrame
  msgFlags : UInt32
  control : Option ControlMessage

/-- The answers of the system calls, and `errno` when it is read. Every function reads it at most
once, after the call that failed. A function that answers `none` has ended the process. -/
structure Kernel where
  socket : ℤ
  ioctlIfIndex : SocketCANFD → String → ℤ × ℤ
  bind : SocketCANFD → (ifIndex : ℤ) → ℤ
  setsockopt : SocketCANFD → SocketOption → ℤ
  ppoll : SocketCANFD → (events : UInt16) → Timespec → ℤ × UInt16
  write : SocketCANFD → CanFdFrame → (mtu : ℕ) → ℤ
  recvmsg : SocketCANFD → ℤ × ReceivedMessage
  errno : ℤ

/-- An entry with a negative descriptor is ignored, and the call answers `0` after the timeout. -/
def Kernel.IgnoresNegative (kernel : Kernel) : Prop :=
  ∀ fd events ts, fd < 0 → (kernel.ppoll fd events ts).1 = 0

/-- An `errno` of zero fails the assertion. -/
def getNegatedErrno (errno : ℤ) : Option ℤ :=
  let out := -(errno.natAbs : ℤ)
  if out < 0 then
    if out ≥ int16Min then some out else some int16Min
  else none

def doPoll (kernel : Kernel) (fd : SocketCANFD) (mask : UInt16)
    (timeoutUsec : CanardMicrosecond) : Option ℤ :=
  let ts : Timespec := ⟨timeoutUsec / mega, timeoutUsec % mega * 1000⟩
  let (pollResult, revents) := kernel.ppoll fd mask ts
  if pollResult < 0 then getNegatedErrno kernel.errno
  else if pollResult = 0 then some 0
  else if revents &&& mask = 0 then some (-errnoIo)
  else some 1

/-- Whether all steps of opening the socket `fd` succeed. -/
def socketReady (kernel : Kernel) (fd : SocketCANFD) (ifaceName : String) (canFd : Bool) : Bool :=
  let ok := decide (0 ≤ fd)
  let ok := ok && (kernel.ioctlIfIndex fd ifaceName).1 == 0 &&
    kernel.bind fd (kernel.ioctlIfIndex fd ifaceName).2 == 0
  -- Enable CAN FD if required.
  let ok := ok && (!canFd || kernel.setsockopt fd .canRawFdFrames == 0)
  let ok := ok && kernel.setsockopt fd .timestamp == 0
  ok && kernel.setsockopt fd .canRawRecvOwnMsgs == 0

def socketcanOpen (kernel : Kernel) (ifaceName : String) (canFd : Bool) : Option SocketCANFD :=
  let ifaceNameSize := ifaceName.utf8ByteSize + 1
  if ifaceNameSize > ifNameSize then some (-errnoNameTooLong)
  else if socketReady kernel kernel.socket ifaceName canFd then some kernel.socket
  else getNegatedErrno kernel.errno

/-- The null pointer for a frame is `none`; its payload is never null. -/
def socketcanPush (kernel : Kernel) (fd : SocketCANFD) (frame : Option CanardFrame)
    (timeoutUsec : CanardMicrosecond) : Option ℤ :=
  match frame with
  | none => some (-errnoInvalid)
  | some frame =>
    if frame.payload.length > 255 then some (-errnoInvalid)
    else do
      let pollResult ← doPoll kernel fd pollOut timeoutUsec
      if pollResult > 0 then
        -- the payload is copied into the 64 bytes of the kernel's frame
        if frame.payload.length > canFdMaxDlen then none
        else
          let cfd : CanFdFrame := {
            canId := frame.extendedCanId ||| canEffFlag
            len := UInt8.ofNat frame.payload.length
            flags := canFdBrs
            data := frame.payload ++
              List.replicate (canFdMaxDlen - frame.payload.length) 0 }
          let mtu := if frame.payload.length > canMaxDlen then canFdMtu else canMtu
          if kernel.write fd cfd mtu < 0 then getNegatedErrno kernel.errno
          else some pollResult
      else some pollResult

theorem and_canEffMask_lt (canId : UInt32) : (canId &&& canEffMask).toNat < 2 ^ 29 := by
  rw [UInt32.toNat_and]
  exact Nat.and_lt_two_pow _ (by decide : canEffMask.toNat < 2 ^ 29)

/-- The frame `socketcanPop` makes of a message. -/
def frameOf (message : CanFdFrame) : CanardFrame where
  extendedCanId := message.canId &&& canEffMask
  payload := message.data.take message.len.toNat
  extendedCanId_lt := and_canEffMask_lt message.canId

/-- The value `socketcanPop` returns, and its out parameters where it writes them. -/
structure PopResult where
  result : ℤ
  frame : Option CanardFrame
  timestampUsec : Option CanardMicrosecond
  loopback : Option Bool

/-- A return without a frame. -/
def PopResult.early (result : ℤ) : PopResult := ⟨result, none, none, none⟩

/-- `socketcanPop` once the poll has answered. -/
def popMessage (kernel : Kernel) (fd : SocketCANFD) (payloadBufferSize : ℕ)
    (wantsLoopback : Bool) (pollResult : ℤ) : Option PopResult :=
  let (readSize, msg) := kernel.recvmsg fd
  let frame := msg.frame
  if readSize < 0 then (getNegatedErrno kernel.errno).map .early
  else if readSize ≠ canMtu ∧ readSize ≠ canFdMtu then some (.early (-errnoIo))
  else if frame.len.toNat > payloadBufferSize then some (.early (-errnoFileTooBig))
  -- Not an extended data frame -- drop silently and return early.
  else if frame.canId &&& canEffFlag = 0 ∨ frame.canId &&& canErrFlag ≠ 0 ∨
      frame.canId &&& canRtrFlag ≠ 0 then some (.early 0)
  else
    let loopbackFrame := msg.msgFlags &&& msgConfirm != 0
    if !wantsLoopback && loopbackFrame then some (.early 0)
    else
      match msg.control with
      | some (.timestamp tvSec tvUsec) =>
        if 0 ≤ tvSec ∧ 0 ≤ tvUsec then
          some {
            result := pollResult
            frame := some (frameOf frame)
            timestampUsec := some (UInt64.ofNat tvSec.toNat * mega + UInt64.ofNat tvUsec.toNat)
            loopback := bif wantsLoopback then some loopbackFrame else none }
        else none
      | _ => none

/-- The out parameters for the frame and its timestamp are not null, `wantsLoopback` says so of the
one for the loopback flag. A payload buffer of `none` is the null pointer. -/
def socketcanPop (kernel : Kernel) (fd : SocketCANFD) (payloadBufferSize : Option ℕ)
    (timeoutUsec : CanardMicrosecond) (wantsLoopback : Bool) : Option PopResult :=
  match payloadBufferSize with
  | none => some (.early (-errnoInvalid))
  | some payloadBufferSize => do
    let pollResult ← doPoll kernel fd pollIn timeoutUsec
    if pollResult > 0 then popMessage kernel fd payloadBufferSize wantsLoopback pollResult
    else some (.early pollResult)

/-- What a C function reads of a string: it ends at the first null character. -/
def cStr (s : String) : String := String.ofList (s.toList.takeWhile (· ≠ '\x00'))

structure SocketCANTransceiver where
  socket : SocketCANFD
  ifrName : String
  canFd : Bool

namespace SocketCANTransceiver

/-- The constructor keeps whatever `socketcanOpen` returns as its socket. -/
def construct (kernel : Kernel) (ifrName : String) (canFd : Bool) : Option SocketCANTransceiver :=
  (socketcanOpen kernel (cStr ifrName) canFd).map fun socket => ⟨socket, ifrName, canFd⟩

def sendCanardFrame (kernel : Kernel) (transceiver : SocketCANTransceiver) (frame : CanardFrame)
    (timeoutUsec : CanardMicrosecond) : Option ℤ :=
  socketcanPush kernel transceiver.socket (some frame) timeoutUsec

def receiveCanardFrame (kernel : Kernel) (transceiver : SocketCANTransceiver)
    (timeoutUsec : CanardMicrosecond) (bufSize : ℕ) : Option PopResult :=
  socketcanPop kernel transceiver.socket (some bufSize) timeoutUsec false

end SocketCANTransceiver

/-- 1 on success, 0 on timeout, negated errno on error. -/
def Documented (result : ℤ) : Prop :=
  result = 1 ∨ result = 0 ∨ int16Min ≤ result ∧ result < 0

theorem getNegatedErrno_neg {errno result : ℤ} (h : getNegatedErrno errno = some result) :
    int16Min ≤ result ∧ result < 0 := by
  unfold getNegatedErrno int16Min at h
  unfold int16Min
  dsimp only at h
  split_ifs at h with hneg hmin
  · have hr := Option.some.inj h
    omega
  · have hr := Option.some.inj h
    omega

theorem getNegatedErrno_documented {errno result : ℤ} (h : getNegatedErrno errno = some result) :
    Documented result := .inr (.inr (getNegatedErrno_neg h))

theorem doPoll_documented {kernel : Kernel} {fd : SocketCANFD} {mask : UInt16}
    {timeoutUsec : CanardMicrosecond} {result : ℤ}
    (h : doPoll kernel fd mask timeoutUsec = some result) : Documented result := by
  unfold doPoll at h
  dsimp only at h
  split_ifs at h with hneg hzero hmask
  · exact getNegatedErrno_documented h
  · exact .inr (.inl (Option.some.inj h).symm)
  · rw [← Option.some.inj h]
    exact .inr (.inr (by decide))
  · exact .inl (Option.some.inj h).symm

theorem socketcanPush_documented {kernel : Kernel} {fd : SocketCANFD} {frame : Option CanardFrame}
    {timeoutUsec : CanardMicrosecond} {result : ℤ}
    (h : socketcanPush kernel fd frame timeoutUsec = some result) : Documented result := by
  have hinvalid : Documented (-errnoInvalid) := .inr (.inr (by decide))
  unfold socketcanPush at h
  cases frame with
  | none =>
    rw [← Option.some.inj h]
    exact hinvalid
  | some frame =>
    dsimp only at h
    by_cases hsize : frame.payload.length > 255
    · rw [if_pos hsize] at h
      rw [← Option.some.inj h]
      exact hinvalid
    rw [if_neg hsize] at h
    obtain ⟨pollResult, hpoll, h⟩ := Option.bind_eq_some_iff.mp h
    have hdoc := doPoll_documented hpoll
    by_cases hpos : pollResult > 0
    · rw [if_pos hpos] at h
      by_cases hlong : frame.payload.length > canFdMaxDlen
      · rw [if_pos hlong] at h
        cases h
      rw [if_neg hlong] at h
      split_ifs at h
      · exact getNegatedErrno_documented h
      · exact Option.some.inj h ▸ hdoc
      · exact getNegatedErrno_documented h
      · exact Option.some.inj h ▸ hdoc
    · rw [if_neg hpos] at h
      exact Option.some.inj h ▸ hdoc

theorem PopResult.early_documented {result : ℤ} (hdoc : Documented result) {pop : PopResult}
    (h : some (PopResult.early result) = some pop) : Documented pop.result :=
  Option.some.inj h ▸ hdoc

theorem popMessage_documented {kernel : Kernel} {fd : SocketCANFD} {payloadBufferSize : ℕ}
    {wantsLoopback : Bool} {pollResult : ℤ} (hpoll : Documented pollResult) {pop : PopResult}
    (h : popMessage kernel fd payloadBufferSize wantsLoopback pollResult = some pop) :
    Documented pop.result := by
  unfold popMessage at h
  dsimp only at h
  split_ifs at h with hread hmtu hlen hvalid hloop
  · obtain ⟨result, herrno, h⟩ := Option.map_eq_some_iff.mp h
    exact h ▸ getNegatedErrno_documented herrno
  · exact PopResult.early_documented (.inr (.inr (by decide))) h
  · exact PopResult.early_documented (.inr (.inr (by decide))) h
  · exact PopResult.early_documented (.inr (.inl rfl)) h
  · exact PopResult.early_documented (.inr (.inl rfl)) h
  -- the frame is handed out, if the kernel has stamped it
  · split at h
    · split_ifs at h with hstamp
      exact Option.some.inj h ▸ hpoll
    · cases h

theorem socketcanPop_documented {kernel : Kernel} {fd : SocketCANFD}
    {payloadBufferSize : Option ℕ} {timeoutUsec : CanardMicrosecond} {wantsLoopback : Bool}
    {pop : PopResult}
    (h : socketcanPop kernel fd payloadBufferSize timeoutUsec wantsLoopback = some pop) :
    Documented pop.result := by
  unfold socketcanPop at h
  cases payloadBufferSize with
  | none => exact PopResult.early_documented (.inr (.inr (by decide))) h
  | some payloadBufferSize =>
    obtain ⟨pollResult, hpoll, h⟩ := Option.bind_eq_some_iff.mp h
    have hdoc := doPoll_documented hpoll
    by_cases hpos : pollResult > 0
    · rw [if_pos hpos] at h
      exact popMessage_documented hdoc h
    · rw [if_neg hpos] at h
      exact PopResult.early_documented hdoc h

/-- Opening returns a negative value exactly when the name is too long or a step fails. -/
theorem socketcanOpen_neg_iff {kernel : Kernel} {ifaceName : String} {canFd : Bool}
    {fd : SocketCANFD} (h : socketcanOpen kernel ifaceName canFd = some fd) :
    fd < 0 ↔ ifNameSize ≤ ifaceName.utf8ByteSize ∨
      socketReady kernel kernel.socket ifaceName canFd = false := by
  unfold socketcanOpen at h
  dsimp only at h
  split_ifs at h with hname hready
  · rw [← Option.some.inj h]
    exact ⟨fun _ => .inl (Nat.le_of_lt_succ hname), fun _ => by decide⟩
  · have hfd : 0 ≤ kernel.socket := by
      unfold socketReady at hready
      simp only [Bool.and_eq_true, decide_eq_true_eq] at hready
      exact hready.1.1.1.1.1
    rw [← Option.some.inj h, hready]
    constructor
    · intro hneg
      exact absurd hfd (Int.not_le.mpr hneg)
    · rintro (hlong | hfalse)
      · exact absurd (Nat.lt_succ_of_le hlong) hname
      · cases hfalse
  · exact ⟨fun _ => .inr (Bool.eq_false_iff.mpr hready), fun _ => (getNegatedErrno_neg h).2⟩

/-- A descriptor that is no descriptor polls as one on which nothing happens. -/
theorem doPoll_of_negative {kernel : Kernel} (hkernel : kernel.IgnoresNegative) {fd : SocketCANFD}
    (hfd : fd < 0) (mask : UInt16) (timeoutUsec : CanardMicrosecond) :
    doPoll kernel fd mask timeoutUsec = some 0 := by
  simp [doPoll, hkernel fd _ _ hfd]

theorem socketcanPush_of_negative {kernel : Kernel} (hkernel : kernel.IgnoresNegative)
    {fd : SocketCANFD} (hfd : fd < 0) (frame : CanardFrame) (timeoutUsec : CanardMicrosecond) :
    socketcanPush kernel fd (some frame) timeoutUsec =
      some (if frame.payload.length > 255 then -errnoInvalid else 0) := by
  simp only [socketcanPush, doPoll_of_negative hkernel hfd]
  split_ifs <;> rfl

theorem socketcanPop_of_negative {kernel : Kernel} (hkernel : kernel.IgnoresNegative)
    {fd : SocketCANFD} (hfd : fd < 0) (payloadBufferSize : ℕ) (timeoutUsec : CanardMicrosecond)
    (wantsLoopback : Bool) :
    socketcanPop kernel fd (some payloadBufferSize) timeoutUsec wantsLoopback =
      some (.early 0) := by
  simp only [socketcanPop, doPoll_of_negative hkernel hfd]
  rfl

end CyphalOnboard

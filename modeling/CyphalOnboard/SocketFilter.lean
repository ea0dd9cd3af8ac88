import CyphalOnboard.SocketBus
import Mathlib.Data.Nat.Bitwise

namespace CyphalOnboard

open BroadcastLog

/-- `CAN_RAW_FILTER_MAX`. -/
def canRawFilterMax : ℕ := 512

/-- `CAN_INV_FILTER`. -/
def canInvFilter : UInt32 := 0x20000000

structure CanFilter where
  canId : UInt32
  canMask : UInt32

/-- A filter of extended frames that is not inverted and does not ask for error frames. -/
def CanFilter.Extended (filter : CanFilter) : Prop :=
  filter.canId &&& canEffFlag ≠ 0 ∧ filter.canId &&& canInvFilter = 0 ∧
    filter.canMask &&& canErrFlag = 0

/-- The kernel's part in filtering, which is not the repository's: whether a message with an
identifier is queued at a socket, and what `CAN_RAW_FILTER` changes of that. -/
structure FilterKernel where
  State : Type
  accepts : State → SocketCANFD → (canId : UInt32) → Bool
  setsockopt : State → SocketCANFD → List CanFilter → ℤ × State
  errno : State → ℤ

/-- The documented behaviour of `CAN_RAW_FILTER`: the identifiers of data and remote frames are
compared under the masks of the new filters. Error frames are the business of
`CAN_RAW_ERR_FILTER`. -/
structure FilterLaws (K : FilterKernel) : Prop where
  setsockopt_failed : ∀ state fd cfs, (K.setsockopt state fd cfs).1 < 0 →
    K.accepts (K.setsockopt state fd cfs).2 = K.accepts state
  setsockopt_other : ∀ state fd cfs other, other ≠ fd →
    K.accepts (K.setsockopt state fd cfs).2 other = K.accepts state other
  setsockopt_data : ∀ state fd cfs canId, 0 ≤ (K.setsockopt state fd cfs).1 →
    (∀ filter ∈ cfs, filter.Extended) → canId &&& canErrFlag = 0 →
      (K.accepts (K.setsockopt state fd cfs).2 fd canId = true ↔
        ∃ filter ∈ cfs, canId &&& filter.canMask = filter.canId &&& filter.canMask)
  setsockopt_error : ∀ state fd cfs canId, canId &&& canErrFlag ≠ 0 →
    K.accepts (K.setsockopt state fd cfs).2 fd canId = K.accepts state fd canId

/-- `CAN_RAW_ERR_FILTER` is not set, as on every socket of the program. -/
def FilterKernel.NoErrorFrames (K : FilterKernel) (state : K.State) (fd : SocketCANFD) : Prop :=
  ∀ canId, canId &&& canErrFlag ≠ 0 → K.accepts state fd canId = false

variable {K : FilterKernel}

structure CanardFilter where
  extendedCanId : UInt32
  extendedMask : UInt32

/-- Whether an identifier is that of the configuration, as far as the mask goes. -/
def CanardFilter.accepts (config : CanardFilter) (extendedCanId : UInt32) : Bool :=
  extendedCanId &&& (config.extendedMask &&& canEffMask) ==
    config.extendedCanId &&& (config.extendedMask &&& canEffMask)

/-- The kernel's filter as `socketcanFilter` fills it in. -/
def canFilterOf (config : CanardFilter) : CanFilter where
  canId := (config.extendedCanId &&& canEffMask) ||| canEffFlag
  canMask := (config.extendedMask &&& canEffMask) ||| canEffFlag ||| canRtrFlag

/-- The null pointer for the configurations is `none`. -/
def socketcanFilter (state : K.State) (fd : SocketCANFD) (numConfigs : ℕ)
    (configs : Option (List CanardFilter)) : Option (ℤ × K.State) :=
  match configs with
  | none => some (-errnoInvalid, state)
  | some configs =>
    if numConfigs > canRawFilterMax then some (-errnoFileTooBig, state)
    -- the loop would read behind the configurations
    else if numConfigs > configs.length then none
    else
      let cfs := (configs.take numConfigs).map canFilterOf
      let r := K.setsockopt state fd cfs
      if r.1 < 0 then (getNegatedErrno (K.errno r.2)).map fun result => (result, r.2)
      else some (0, r.2)

/-- The transceiver hands on the address of its argument, which is not null. -/
def SocketCANTransceiver.canardFilter (state : K.State) (transceiver : SocketCANTransceiver)
    (numConfigs : ℕ) (configs : List CanardFilter) : Option (ℤ × K.State) :=
  socketcanFilter state transceiver.socket numConfigs (some configs)

/-- A call fails, and the kernel accepts what it did, or it has set the filters of all
configurations. -/
theorem socketcanFilter_cases (hK : FilterLaws K) {state state' : K.State} {fd : SocketCANFD}
    {numConfigs : ℕ} {configs : Option (List CanardFilter)} {result : ℤ}
    (h : socketcanFilter state fd numConfigs configs = some (result, state')) :
    int16Min ≤ result ∧ result < 0 ∧ K.accepts state' = K.accepts state ∨
      result = 0 ∧ numConfigs ≤ canRawFilterMax ∧ ∃ given, configs = some given ∧
        numConfigs ≤ given.length ∧
          0 ≤ (K.setsockopt state fd ((given.take numConfigs).map canFilterOf)).1 ∧
          state' = (K.setsockopt state fd ((given.take numConfigs).map canFilterOf)).2 := by
  have hfailed {r : ℤ} {s : K.State} (hr : int16Min ≤ r ∧ r < 0)
      (hs : K.accepts s = K.accepts state) (h : some (r, s) = some (result, state')) :
      int16Min ≤ result ∧ result < 0 ∧ K.accepts state' = K.accepts state := by
    obtain ⟨hresult, hstate⟩ := Prod.mk.inj (Option.some.inj h)
    exact ⟨hresult ▸ hr.1, hresult ▸ hr.2, hstate ▸ hs⟩
  unfold socketcanFilter at h
  cases configs with
  | none => exact .inl (hfailed (by decide) rfl h)
  | some given =>
    dsimp only at h
    split_ifs at h with hmax hlen hset
    · exact .inl (hfailed (by decide) rfl h)
    · obtain ⟨r, herrno, hr⟩ := Option.map_eq_some_iff.mp h
      exact .inl (hfailed (getNegatedErrno_neg herrno) (hK.setsockopt_failed _ _ _ hset)
        (congrArg some hr))
    · obtain ⟨hresult, hstate⟩ := Prod.mk.inj (Option.some.inj h)
      exact .inr ⟨hresult.symm, not_lt.mp hmax, given, rfl, not_lt.mp hlen, not_lt.mp hset,
        hstate.symm⟩

theorem and_or_distrib (x p q : UInt32) : x &&& (p ||| q) = (x &&& p) ||| (x &&& q) := by
  rw [UInt32.and_comm, or_and_distrib, UInt32.and_comm p, UInt32.and_comm q]

theorem or_and_left (p q : UInt32) : (p ||| q) &&& p = p := by
  apply UInt32.toBitVec_inj.mp
  ext i
  rw [UInt32.toBitVec_and, UInt32.toBitVec_or, BitVec.getElem_and, BitVec.getElem_or]
  cases p.toBitVec[i] <;> simp

/-- Two words agree on a union of masks if they do on each. -/
theorem and_or_eq_iff (x y p q : UInt32) :
    x &&& (p ||| q) = y &&& (p ||| q) ↔ x &&& p = y &&& p ∧ x &&& q = y &&& q := by
  constructor
  · intro h
    have hmask (r : UInt32) (hr : (p ||| q) &&& r = r) : x &&& r = y &&& r := by
      have h' : x &&& (p ||| q) &&& r = y &&& (p ||| q) &&& r := by rw [h]
      rwa [UInt32.and_assoc, UInt32.and_assoc, hr] at h'
    constructor
    · exact hmask p (or_and_left p q)
    · apply hmask q
      rw [UInt32.or_comm]
      exact or_and_left q p
  · rintro ⟨hp, hq⟩
    rw [and_or_distrib, and_or_distrib, hp, hq]

/-- The flag of an extended frame is a single bit. -/
theorem and_canEffFlag_eq_iff (x : UInt32) :
    x &&& canEffFlag = canEffFlag ↔ x &&& canEffFlag ≠ 0 := by
  have hbit : (x &&& canEffFlag).toNat = (x.toNat.testBit 31).toNat * 2 ^ 31 := by
    rw [UInt32.toNat_and]
    exact Nat.and_two_pow _ 31
  constructor
  · intro h
    rw [h]
    decide
  · intro hne
    cases hset : x.toNat.testBit 31 with
    | true =>
      rw [hset] at hbit
      exact UInt32.toNat_inj.mp hbit
    | false =>
      rw [hset, Bool.toNat_false, Nat.zero_mul] at hbit
      exact absurd (UInt32.toNat_inj.mp hbit) hne

theorem canFilterOf_flag (config : CanardFilter) {flag : UInt32} (h : canEffMask &&& flag = 0) :
    (canFilterOf config).canId &&& flag = canEffFlag &&& flag := by
  change (config.extendedCanId &&& canEffMask ||| canEffFlag) &&& flag = _
  rw [or_and_distrib, UInt32.and_assoc, h, UInt32.and_zero, UInt32.zero_or]

theorem canFilterOf_extended (config : CanardFilter) : (canFilterOf config).Extended := by
  refine ⟨?_, ?_, ?_⟩
  · rw [canFilterOf_flag config (by decide)]
    decide
  · rw [canFilterOf_flag config (by decide)]
    decide
  · change ((config.extendedMask &&& canEffMask) ||| canEffFlag ||| canRtrFlag) &&& canErrFlag = 0
    rw [or_and_distrib, or_and_distrib, UInt32.and_assoc,
      (by decide : canEffMask &&& canErrFlag = 0), UInt32.and_zero]
    decide

/-- The filter of a configuration matches the extended frames, not remote ones, that the
configuration accepts. -/
theorem canFilterOf_matches (config : CanardFilter) (canId : UInt32) :
    canId &&& (canFilterOf config).canMask =
        (canFilterOf config).canId &&& (canFilterOf config).canMask ↔
      canId &&& canEffFlag ≠ 0 ∧ canId &&& canRtrFlag = 0 ∧
        config.accepts (canId &&& canEffMask) = true := by
  have hid : (canFilterOf config).canId &&& (config.extendedMask &&& canEffMask) =
      config.extendedCanId &&& (config.extendedMask &&& canEffMask) := by
    change (config.extendedCanId &&& canEffMask ||| canEffFlag) &&& _ = _
    rw [or_and_distrib, UInt32.and_comm config.extendedMask, ← UInt32.and_assoc canEffFlag,
      (by decide : canEffFlag &&& canEffMask = 0), UInt32.zero_and, UInt32.or_zero,
      UInt32.and_assoc, ← UInt32.and_assoc canEffMask, UInt32.and_self]
  have heff : (canFilterOf config).canId &&& canEffFlag = canEffFlag := by
    rw [canFilterOf_flag config (by decide)]
    decide
  have hrtr : (canFilterOf config).canId &&& canRtrFlag = 0 := by
    rw [canFilterOf_flag config (by decide)]
    decide
  have haccepts : config.accepts (canId &&& canEffMask) = true ↔
      canId &&& (config.extendedMask &&& canEffMask) =
        config.extendedCanId &&& (config.extendedMask &&& canEffMask) := by
    unfold CanardFilter.accepts
    rw [beq_iff_eq, UInt32.and_assoc, UInt32.and_comm config.extendedMask,
      ← UInt32.and_assoc canEffMask, UInt32.and_self]
  change canId &&& ((config.extendedMask &&& canEffMask) ||| canEffFlag ||| canRtrFlag) =
    (canFilterOf config).canId &&& ((config.extendedMask &&& canEffMask) ||| canEffFlag |||
      canRtrFlag) ↔ _
  rw [and_or_eq_iff, and_or_eq_iff, hid, heff, hrtr, and_canEffFlag_eq_iff, haccepts]
  tauto

/-- What a socket accepts once the filters of some configurations are set. -/
theorem accepts_canFilterOf (hK : FilterLaws K) {state : K.State} {fd : SocketCANFD}
    (hquiet : K.NoErrorFrames state fd) {configs : List CanardFilter}
    (h : 0 ≤ (K.setsockopt state fd (configs.map canFilterOf)).1) (canId : UInt32) :
    K.accepts (K.setsockopt state fd (configs.map canFilterOf)).2 fd canId = true ↔
      canId &&& canEffFlag ≠ 0 ∧ canId &&& canErrFlag = 0 ∧ canId &&& canRtrFlag = 0 ∧
        configs.any (·.accepts (canId &&& canEffMask)) = true := by
  by_cases herr : canId &&& canErrFlag = 0
  · have hextended : ∀ filter ∈ configs.map canFilterOf, filter.Extended := by
      intro filter hmem
      obtain ⟨config, -, rfl⟩ := List.mem_map.mp hmem
      exact canFilterOf_extended config
    rw [hK.setsockopt_data _ _ _ _ h hextended herr, List.any_eq_true]
    constructor
    · rintro ⟨filter, hmem, hmatch⟩
      obtain ⟨config, hconfig, rfl⟩ := List.mem_map.mp hmem
      obtain ⟨heff, hrtr, haccepts⟩ := (canFilterOf_matches config canId).mp hmatch
      exact ⟨heff, herr, hrtr, config, hconfig, haccepts⟩
    · rintro ⟨heff, -, hrtr, config, hconfig, haccepts⟩
      exact ⟨_, List.mem_map_of_mem hconfig,
        (canFilterOf_matches config canId).mpr ⟨heff, hrtr, haccepts⟩⟩
  · rw [hK.setsockopt_error _ _ _ _ herr, hquiet canId herr]
    simp [herr]

variable {ι : Type} [DecidableEq ι]

/-- To filter the messages of a queue is to filter the frames it hands out. -/
theorem handedOut_filtered {accepts : UInt32 → Bool} {configs : List CanardFilter}
    (h : ∀ canId, accepts canId = true ↔
      canId &&& canEffFlag ≠ 0 ∧ canId &&& canErrFlag = 0 ∧ canId &&& canRtrFlag = 0 ∧
        configs.any (·.accepts (canId &&& canEffMask)) = true)
    (n : ι) (entry : Entry ι CanFdFrame) :
    (if accepts entry.message.canId then handedOut n entry else none) =
      (handedOut n entry).filter fun frame => configs.any (·.accepts frame.extendedCanId) := by
  by_cases hok : entry.message.len.toNat ≤ canardMtuCanFd ∧
      entry.message.canId &&& canEffFlag ≠ 0 ∧ entry.message.canId &&& canErrFlag = 0 ∧
      entry.message.canId &&& canRtrFlag = 0 ∧ entry.sender ≠ some n
  · have hout : handedOut n entry = some (frameOf entry.message) := if_pos hok
    have hany : accepts entry.message.canId =
        configs.any (·.accepts (frameOf entry.message).extendedCanId) := by
      rw [Bool.eq_iff_iff, h]
      exact ⟨fun h => h.2.2.2, fun h => ⟨hok.2.1, hok.2.2.1, hok.2.2.2.1, h⟩⟩
    rw [hout, hany]
    rfl
  · have hout : handedOut n entry = none := if_neg hok
    rw [hout, ite_self]
    rfl

/-- What `socketcanFilter` makes the sockets accept. A call that fails changes nothing; after one
that succeeds the socket is given extended data frames only, of those written with
`socketcanPush` the ones that some configuration accepts, and it hands out what it would without
filters and some configuration accepts. -/
theorem socketcanFilter_accepts (hK : FilterLaws K) {state state' : K.State} {fd : SocketCANFD}
    (hquiet : K.NoErrorFrames state fd) {numConfigs : ℕ} {configs : Option (List CanardFilter)}
    {result : ℤ} (h : socketcanFilter state fd numConfigs configs = some (result, state')) :
    (∀ other, other ≠ fd → K.accepts state' other = K.accepts state other) ∧
      (int16Min ≤ result ∧ result < 0 ∧ K.accepts state' = K.accepts state ∨
        result = 0 ∧ numConfigs ≤ canRawFilterMax ∧
          ∃ given, configs = some given ∧ numConfigs ≤ given.length ∧
            (∀ canId, K.accepts state' fd canId = true →
              canId &&& canEffFlag ≠ 0 ∧ canId &&& canErrFlag = 0 ∧ canId &&& canRtrFlag = 0) ∧
            (∀ frame : CanardFrame, K.accepts state' fd (canFdFrameOf frame).canId =
              (given.take numConfigs).any (·.accepts frame.extendedCanId)) ∧
            ∀ (n : ι) (queue : List (Entry ι CanFdFrame)),
              (queue.filter fun entry => K.accepts state' fd entry.message.canId).filterMap
                  (handedOut n) =
                (queue.filterMap (handedOut n)).filter fun frame =>
                  (given.take numConfigs).any (·.accepts frame.extendedCanId)) := by
  rcases socketcanFilter_cases hK h with
    ⟨hmin, hneg, hsame⟩ | ⟨hzero, hmax, given, hgiven, hlen, hset, rfl⟩
  · exact ⟨fun other _ => by rw [hsame], .inl ⟨hmin, hneg, hsame⟩⟩
  have haccepts := accepts_canFilterOf hK hquiet hset
  refine ⟨hK.setsockopt_other _ _ _, .inr ⟨hzero, hmax, given, hgiven, hlen, ?_, ?_, ?_⟩⟩
  · intro canId hpasses
    obtain ⟨heff, herr, hrtr, -⟩ := (haccepts canId).mp hpasses
    exact ⟨heff, herr, hrtr⟩
  · intro frame
    obtain ⟨heff, herr, hrtr, hmask⟩ := frame.flags
    rw [Bool.eq_iff_iff, haccepts, hmask]
    exact ⟨fun h => h.2.2.2, fun h => ⟨heff, herr, hrtr, h⟩⟩
  · intro n queue
    rw [List.filterMap_filter, List.filter_filterMap]
    congr 1
    funext entry
    exact handedOut_filtered haccepts n entry

/-- The filters of each socket. -/
abbrev RawFilters := SocketCANFD → List CanFilter

namespace RawFilters

/-- An inverted filter matches the other identifiers, and error frames are not asked for. -/
def accepts (filters : RawFilters) (fd : SocketCANFD) (canId : UInt32) : Bool :=
  canId &&& canErrFlag == 0 && (filters fd).any fun filter =>
    (canId &&& filter.canMask == filter.canId &&& filter.canMask) !=
      (filter.canId &&& canInvFilter != 0)

def setsockopt (filters : RawFilters) (fd : SocketCANFD) (cfs : List CanFilter) :
    ℤ × RawFilters :=
  if cfs.length > canRawFilterMax then (-1, filters) else (0, Function.update filters fd cfs)

theorem setsockopt_cases (filters : RawFilters) (fd : SocketCANFD) (cfs : List CanFilter) :
    filters.setsockopt fd cfs = (-1, filters) ∨
      filters.setsockopt fd cfs = (0, Function.update filters fd cfs) := by
  unfold setsockopt
  split_ifs
  · exact .inl rfl
  · exact .inr rfl

theorem accepts_error (filters : RawFilters) (fd : SocketCANFD) {canId : UInt32}
    (h : canId &&& canErrFlag ≠ 0) : filters.accepts fd canId = false := by
  unfold accepts
  rw [beq_eq_false_iff_ne.mpr h, Bool.false_and]

theorem setsockopt_failed {filters : RawFilters} {fd : SocketCANFD} {cfs : List CanFilter}
    (h : (filters.setsockopt fd cfs).1 < 0) : (filters.setsockopt fd cfs).2 = filters := by
  rcases filters.setsockopt_cases fd cfs with hfailed | hset
  · rw [hfailed]
  · rw [hset] at h
    exact absurd h (lt_irrefl 0)

theorem setsockopt_other (filters : RawFilters) (fd : SocketCANFD) (cfs : List CanFilter)
    {other : SocketCANFD} (h : other ≠ fd) :
    (filters.setsockopt fd cfs).2.accepts other = filters.accepts other := by
  rcases filters.setsockopt_cases fd cfs with hfailed | hset
  · rw [hfailed]
  · rw [hset]
    funext canId
    unfold accepts
    dsimp only
    rw [Function.update_of_ne h]

theorem setsockopt_data {filters : RawFilters} {fd : SocketCANFD} {cfs : List CanFilter}
    {canId : UInt32} (h : 0 ≤ (filters.setsockopt fd cfs).1)
    (hextended : ∀ filter ∈ cfs, filter.Extended) (herr : canId &&& canErrFlag = 0) :
    (filters.setsockopt fd cfs).2.accepts fd canId = true ↔
      ∃ filter ∈ cfs, canId &&& filter.canMask = filter.canId &&& filter.canMask := by
  rcases filters.setsockopt_cases fd cfs with hfailed | hset
  · rw [hfailed] at h
    exact absurd h (by simp)
  · rw [hset]
    unfold accepts
    dsimp only
    rw [Function.update_self, herr, beq_self_eq_true, Bool.true_and, List.any_eq_true]
    refine exists_congr fun filter => and_congr_right fun hmem => ?_
    rw [(hextended filter hmem).2.1, bne_self_eq_false, Bool.bne_false, beq_iff_eq]

end RawFilters

def rawKernel : FilterKernel where
  State := RawFilters
  accepts := RawFilters.accepts
  setsockopt := RawFilters.setsockopt
  errno _ := errnoInvalid

theorem rawKernel_laws : FilterLaws rawKernel where
  setsockopt_failed _ _ _ h := congrArg RawFilters.accepts (RawFilters.setsockopt_failed h)
  setsockopt_other filters fd cfs _ := filters.setsockopt_other fd cfs
  setsockopt_data _ _ _ _ := RawFilters.setsockopt_data
  setsockopt_error _ fd _ _ herr :=
    (RawFilters.accepts_error _ fd herr).trans (RawFilters.accepts_error _ fd herr).symm

/-- The sockets of a process that has set no filters get everything but error frames. -/
def unfiltered : RawFilters := fun _ => [⟨0, 0⟩]

/-- The heartbeats, and no other subject. -/
def heartbeatFilter : CanardFilter := ⟨0x1D5500, 0x21FFF80⟩

def heartbeatFrame : CanardFrame := ⟨0x107D5505, [0], by decide⟩

/-- A heartbeat, a message of another subject, and an error frame with a heartbeat's identifier. -/
def mixedQueue : List (Entry Bool CanFdFrame) :=
  [⟨some false, canFdFrameOf heartbeatFrame, fun _ => true⟩,
    ⟨some false, canFdFrameOf ⟨0x10600505, [1], by decide⟩, fun _ => true⟩,
    ⟨none, ⟨0xB07D5505, 0, 0, []⟩, fun _ => true⟩]

/-- What the kernel keeps of the configuration for heartbeats at descriptor 3. -/
def heartbeatsOnly : RawFilters :=
  Function.update unfiltered 3 [canFilterOf heartbeatFilter]

theorem socketcanFilter_accepts_heartbeats :
    (mixedQueue.filter fun entry => heartbeatsOnly.accepts 3 entry.message.canId).filterMap
      (handedOut true) = [heartbeatFrame] := by
  have hset : socketcanFilter (K := rawKernel) unfiltered 3 1 (some [heartbeatFilter]) =
      some (0, heartbeatsOnly) := rfl
  obtain ⟨-, hfailed | ⟨-, -, given, hgiven, -, -, -, hqueue⟩⟩ :=
    socketcanFilter_accepts (ι := Bool) rawKernel_laws
      (fun _ => unfiltered.accepts_error 3) hset
  · exact absurd hfailed.2.1 (lt_irrefl 0)
  · obtain rfl := Option.some.inj hgiven
    refine (hqueue true mixedQueue).trans ?_
    decide +kernel

end CyphalOnboard

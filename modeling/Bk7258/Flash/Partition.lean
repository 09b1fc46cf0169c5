import Mathlib.Data.List.Range
import Bk7258.Flash.Client

/-!
# Partitions of the flash

`flash_partition.c` turns an offset of a partition into an address of the flash and calls the client, whose results none
of the three functions looks at. Any operation of the client may fail, and nothing is assumed about what a read leaves
in its buffer. Addresses, offsets and lengths are `uint32_t`. `CONFIG_FLASH_PARTITION_CHECK_VALID` may be on or off.
-/

namespace Bk7258

structure LogicPartition where
  startAddr : UInt32
  length : UInt32
  options : UInt32
deriving DecidableEq, Repr

/-- `bk_flash_partitions`, `CONFIG_FLASH_PARTITION_CHECK_VALID` and the address of `flash_partition_write_perm_check` -/
structure PartitionCfg where
  partitions : List LogicPartition
  checkValid : Bool
  permCheckAddr : UInt32

/-- The calls of the client, with their arguments -/
inductive FlashOp
  | readBytes (addr len : UInt32)
  | writeBytes (addr : UInt32) (data : List UInt8)
  | eraseSector (addr : UInt32)
deriving DecidableEq, Repr

/-- The flash, and what the client does: `res k` is the result of its `k`-th operation, `buf k` are the bytes that are
in the buffer after it when it is a read. -/
structure FlashEnv where
  flash : UInt32 → UInt8
  res : Nat → FlashErr
  buf : Nat → Nat → UInt8

abbrev FlashLog := List (FlashOp × FlashErr)

abbrev FlashM := StateM FlashLog

def FlashM.exec {α : Type} (x : FlashM α) : α × FlashLog := x []

namespace FlashEnv

variable (env : FlashEnv)

def bytes (addr : UInt32) (n : Nat) : List UInt8 := (List.range n).map fun i => env.flash (addr + UInt32.ofNat i)

def op (o : FlashOp) : FlashM FlashErr := fun log => (env.res log.length, log ++ [(o, env.res log.length)])

def readBytes (addr len : UInt32) : FlashM (FlashErr × List UInt8) := fun log =>
  ((env.res log.length, (List.range len.toNat).map (env.buf log.length)),
    log ++ [(.readBytes addr len, env.res log.length)])

def writeBytes (addr : UInt32) (data : List UInt8) : FlashM FlashErr := env.op (.writeBytes addr data)

def eraseSector (addr : UInt32) : FlashM FlashErr := env.op (.eraseSector addr)

end FlashEnv

namespace PartitionCfg

variable (cfg : PartitionCfg)

def getInfo (partition : Nat) : Option LogicPartition := cfg.partitions[partition]?

def addrCheck (p : LogicPartition) (offset size : UInt32) : FlashErr :=
  if cfg.checkValid && (offset ≥ p.length || size > p.length || offset + size > p.length) then .errFlashAddrOutOfRange
  else .ok

def logicalToPhy (addr : UInt32) : UInt32 := addr / 32 * 34 + addr % 32

def writePermCheck (p : LogicPartition) : FlashErr :=
  if cfg.checkValid then
    if p.options &&& 2 = 0 then .fail
    else
      let phy := logicalToPhy (cfg.permCheckAddr &&& (0x1000000 - 1))
      if phy < p.startAddr then .ok
      else if phy > p.startAddr + p.length then .ok
      else .fail
  else .ok

end PartitionCfg

def eraseAddrs (p : LogicPartition) (offset size : UInt32) : List UInt32 :=
  let startSector := offset >>> 12
  let endSector := (offset + size - 1) >>> 12
  (List.range' startSector.toNat (endSector.toNat + 1 - startSector.toNat)).map fun i =>
    p.startAddr + (UInt32.ofNat i <<< 12)

def alignDown (x : UInt32) : UInt32 := x &&& ~~~0x1F

section
variable (cfg : PartitionCfg) (env : FlashEnv)

def bkFlashPartitionEraseInternal (p : LogicPartition) (offset size : UInt32) : FlashM FlashErr := do
  if size = 0 then
    return .ok
  (eraseAddrs p offset size).forM fun a => do
    let _ ← env.eraseSector a
  return .ok

def PartitionCfg.modify (partition : Nat) (offset size : UInt32) (f : LogicPartition → FlashM FlashErr) :
    FlashM FlashErr :=
  match cfg.getInfo partition with
  | none => return .errFlashPartitionNotFound
  | some p =>
    if cfg.addrCheck p offset size ≠ .ok then return .errFlashAddrOutOfRange
    else if cfg.writePermCheck p ≠ .ok then return .fail
    else f p

def bkFlashPartitionErase (partition : Nat) (offset size : UInt32) : FlashM FlashErr :=
  cfg.modify partition offset size fun p => bkFlashPartitionEraseInternal env p offset size

/-- `buffer` is what the pointer points to; `none` is a null pointer. -/
def bkFlashPartitionWriteInternal (p : LogicPartition) (buffer : Option (Nat → UInt8)) (offset len : UInt32) :
    FlashM FlashErr := do
  match buffer with
  | none => return .errNullParam
  | some userBuf =>
    if offset + len > p.length then return .errFlashAddrOutOfRange
    if offset + len ≤ p.length then
      let _ ← env.writeBytes (p.startAddr + offset) ((List.range len.toNat).map userBuf)
    return .ok

def bkFlashPartitionWrite (partition : Nat) (buffer : Option (Nat → UInt8)) (offset len : UInt32) : FlashM FlashErr :=
  cfg.modify partition offset len fun p => bkFlashPartitionWriteInternal env p buffer offset len

def bkFlashPartitionReadInternal (p : LogicPartition) (offset len : UInt32) : FlashM (FlashErr × List UInt8) := do
  if offset + len > p.length then return (.errFlashAddrOutOfRange, [])
  let (_, buf) ← env.readBytes (p.startAddr + offset) len
  return (.ok, buf)

/-- The result and the caller's buffer, which holds `out` before; `malloced` says whether `malloc` gives memory. -/
def bkFlashPartitionRead (partition : Nat) (out : List UInt8) (offset len : UInt32) (malloced : Bool) :
    FlashM (FlashErr × List UInt8) :=
  match cfg.getInfo partition with
  | none => return (.errFlashPartitionNotFound, out)
  | some p =>
    if cfg.addrCheck p offset len ≠ .ok then return (.errFlashAddrOutOfRange, out)
    else do
      let alignedOffset := alignDown offset
      let alignedEnd := alignDown (offset + len + 31)
      let alignedLength := alignedEnd - alignedOffset
      if !malloced then return (.errNoMem, out)
      let (readStatus, buf) ← bkFlashPartitionReadInternal env p alignedOffset alignedLength
      if readStatus ≠ .ok then return (readStatus, out)
      return (.ok, (buf.drop (offset - alignedOffset).toNat).take len.toNat)

end

/-! ## The calls that reach the client -/

section
variable (cfg : PartitionCfg)

def PartitionCfg.Writable (partition : Nat) (offset size : UInt32) (p : LogicPartition) : Prop :=
  cfg.getInfo partition = some p ∧ cfg.addrCheck p offset size = .ok ∧ cfg.writePermCheck p = .ok

def PartitionCfg.ReadReaches (partition : Nat) (offset len : UInt32) (malloced : Bool) : Prop :=
  malloced = true ∧ ∃ p, cfg.getInfo partition = some p ∧ cfg.addrCheck p offset len = .ok ∧
    alignDown offset + (alignDown (offset + len + 31) - alignDown offset) ≤ p.length

def PartitionCfg.WriteReaches (partition : Nat) (buffer : Option (Nat → UInt8)) (offset len : UInt32) : Prop :=
  buffer ≠ none ∧ ∃ p, cfg.Writable partition offset len p ∧ offset + len ≤ p.length

def PartitionCfg.EraseReaches (partition : Nat) (offset size : UInt32) : Prop :=
  size ≠ 0 ∧ offset >>> 12 ≤ (offset + size - 1) >>> 12 ∧ ∃ p, cfg.Writable partition offset size p

end

section
variable (cfg : PartitionCfg) (env : FlashEnv) (partition : Nat) (offset len : UInt32)

theorem modify_cases (f : LogicPartition → FlashM FlashErr) :
    (∃ e, e ≠ .ok ∧ cfg.modify partition offset len f = pure e ∧ ¬∃ p, cfg.Writable partition offset len p) ∨
      ∃ p, cfg.Writable partition offset len p ∧ cfg.modify partition offset len f = f p := by
  unfold PartitionCfg.modify PartitionCfg.Writable
  cases hp : cfg.getInfo partition with
  | none => exact .inl ⟨.errFlashPartitionNotFound, FlashErr.noConfusion, rfl,
    fun ⟨p, h, _⟩ => Option.some_ne_none p h.symm⟩
  | some p =>
    dsimp only
    by_cases hc : cfg.addrCheck p offset len ≠ .ok
    · rw [if_pos hc]
      exact .inl ⟨_, FlashErr.noConfusion, rfl, fun ⟨q, hq, h, _⟩ => hc (Option.some.inj hq ▸ h)⟩
    by_cases hw : cfg.writePermCheck p ≠ .ok
    · rw [if_neg hc, if_pos hw]
      exact .inl ⟨_, FlashErr.noConfusion, rfl, fun ⟨q, hq, _, h⟩ => hw (Option.some.inj hq ▸ h)⟩
    rw [if_neg hc, if_neg hw]
    exact .inr ⟨p, ⟨rfl, Decidable.not_not.1 hc, Decidable.not_not.1 hw⟩, rfl⟩

theorem read_cases (out : List UInt8) (malloced : Bool) :
    (bkFlashPartitionRead cfg env partition out offset len malloced).exec.1.1 ≠ .ok ∧
        ¬cfg.ReadReaches partition offset len malloced ∨
      cfg.ReadReaches partition offset len malloced ∧
        ∃ o, (bkFlashPartitionRead cfg env partition out offset len malloced).exec.1.1 = .ok ∧
          (bkFlashPartitionRead cfg env partition out offset len malloced).exec.2 = [(o, env.res 0)] := by
  unfold bkFlashPartitionRead PartitionCfg.ReadReaches FlashM.exec
  cases hp : cfg.getInfo partition with
  | none => exact .inl ⟨FlashErr.noConfusion, fun ⟨_, p, h, _⟩ => Option.some_ne_none p h.symm⟩
  | some p =>
    dsimp only
    by_cases hc : cfg.addrCheck p offset len ≠ .ok
    · rw [if_pos hc]
      exact .inl ⟨FlashErr.noConfusion, fun ⟨_, q, hq, h, _⟩ => hc (Option.some.inj hq ▸ h)⟩
    rw [if_neg hc]
    cases malloced with
    | false => exact .inl ⟨FlashErr.noConfusion, fun ⟨h, _⟩ => Bool.noConfusion h⟩
    | true =>
      rw [Bool.not_true, if_neg Bool.false_ne_true]
      unfold bkFlashPartitionReadInternal
      by_cases hr : alignDown offset + (alignDown (offset + len + 31) - alignDown offset) > p.length
      · rw [if_pos hr]
        exact .inl ⟨FlashErr.noConfusion, fun ⟨_, q, hq, _, h⟩ => UInt32.not_le.2 hr (Option.some.inj hq ▸ h)⟩
      · rw [if_neg hr]
        exact .inr ⟨⟨rfl, p, rfl, Decidable.not_not.1 hc, UInt32.not_lt.1 hr⟩, _, rfl, rfl⟩

theorem write_cases (buffer : Option (Nat → UInt8)) :
    (bkFlashPartitionWrite cfg env partition buffer offset len).exec.1 ≠ .ok ∧
        ¬cfg.WriteReaches partition buffer offset len ∨
      cfg.WriteReaches partition buffer offset len ∧ ∃ p userBuf, cfg.getInfo partition = some p ∧
        buffer = some userBuf ∧
        (bkFlashPartitionWrite cfg env partition buffer offset len).exec =
          (.ok, [(.writeBytes (p.startAddr + offset) ((List.range len.toNat).map userBuf), env.res 0)]) := by
  unfold bkFlashPartitionWrite PartitionCfg.WriteReaches FlashM.exec
  rcases modify_cases cfg partition offset len (fun p => bkFlashPartitionWriteInternal env p buffer offset len) with
    ⟨e, he, hrun, hnot⟩ | ⟨p, hp, hrun⟩
  · rw [hrun]
    exact .inl ⟨he, fun ⟨_, p, hp, _⟩ => hnot ⟨p, hp⟩⟩
  rw [hrun]
  unfold bkFlashPartitionWriteInternal
  cases buffer with
  | none => exact .inl ⟨FlashErr.noConfusion, fun h => h.1 rfl⟩
  | some userBuf =>
    by_cases hr : offset + len > p.length
    · simp only [if_pos hr]
      exact .inl ⟨FlashErr.noConfusion, fun ⟨_, q, hq, h⟩ =>
        UInt32.not_le.2 hr (Option.some.inj (hp.1.symm.trans hq.1) ▸ h)⟩
    · have hle := UInt32.not_lt.1 hr
      simp only [if_neg hr, if_pos hle]
      exact .inr ⟨⟨Option.some_ne_none _, p, hp, hle⟩, p, userBuf, hp.1, rfl, rfl⟩

theorem log_eraseAll (as : List UInt32) (log : FlashLog) :
    ∃ new : FlashLog, (((as.forM fun a => do let _ ← env.eraseSector a) : FlashM PUnit) log).2 = log ++ new ∧
      new.map (·.1) = as.map .eraseSector ∧ (as ≠ [] → ∃ o ∈ new, o.2 = env.res log.length) := by
  induction as generalizing log with
  | nil => exact ⟨[], (List.append_nil log).symm, rfl, fun h => absurd rfl h⟩
  | cons a as ih =>
    obtain ⟨new, hlog, hops, -⟩ := ih (log ++ [(.eraseSector a, env.res log.length)])
    refine ⟨(.eraseSector a, env.res log.length) :: new, ?_, by rw [List.map_cons, hops, List.map_cons], fun _ => ?_⟩
    · exact hlog.trans (List.append_assoc ..)
    · exact ⟨_, List.mem_cons_self, rfl⟩

variable {offset len} in
theorem eraseAddrs_ne_nil {p : LogicPartition} :
    eraseAddrs p offset len ≠ [] ↔ offset >>> 12 ≤ (offset + len - 1) >>> 12 := by
  rw [eraseAddrs, ne_eq, List.map_eq_nil_iff, List.range'_eq_nil_iff, UInt32.le_iff_toNat_le]
  omega

theorem erase_cases :
    (bkFlashPartitionErase cfg env partition offset len).exec.1 ≠ .ok ∧ ¬cfg.EraseReaches partition offset len ∨
      ∃ p, cfg.Writable partition offset len p ∧ (bkFlashPartitionErase cfg env partition offset len).exec.1 = .ok ∧
        (bkFlashPartitionErase cfg env partition offset len).exec.2.map (·.1) =
          (if len = 0 then [] else eraseAddrs p offset len).map .eraseSector ∧
        (cfg.EraseReaches partition offset len →
          ∃ o ∈ (bkFlashPartitionErase cfg env partition offset len).exec.2, o.2 = env.res 0) := by
  unfold bkFlashPartitionErase PartitionCfg.EraseReaches FlashM.exec
  rcases modify_cases cfg partition offset len (fun p => bkFlashPartitionEraseInternal env p offset len) with
    ⟨e, he, hrun, hnot⟩ | ⟨p, hp, hrun⟩
  · rw [hrun]
    exact .inl ⟨he, fun ⟨_, _, h⟩ => hnot h⟩
  refine .inr ⟨p, hp, ?_⟩
  rw [hrun]
  unfold bkFlashPartitionEraseInternal
  by_cases hz : len = 0
  · rw [if_pos hz, if_pos hz]
    exact ⟨rfl, rfl, fun h => absurd hz h.1⟩
  · obtain ⟨new, hlog, hops, hres⟩ := log_eraseAll env (eraseAddrs p offset len) []
    rw [if_neg hz, if_neg hz]
    refine ⟨rfl, (congrArg _ hlog).trans hops, fun h => ?_⟩
    obtain ⟨o, ho, hr⟩ := hres (eraseAddrs_ne_nil.2 h.2.1)
    exact ⟨o, hlog.symm ▸ ho, hr⟩

end

/-- Whatever the client does, a call answers `BK_OK` only for operations that succeeded: this holds of the calls that
are refused before they reach the client, and of no others. -/
theorem partition_ok_iff_refused (cfg : PartitionCfg) (partition : Nat) (offset len : UInt32) :
    (∀ out malloced,
      (∀ env, let r := (bkFlashPartitionRead cfg env partition out offset len malloced).exec
        r.1.1 = .ok → (∀ o ∈ r.2, o.2 = .ok) ∧
          ∃ p, cfg.getInfo partition = some p ∧ r.1.2 = env.bytes (p.startAddr + offset) len.toNat) ↔
        ¬cfg.ReadReaches partition offset len malloced) ∧
    (∀ buffer,
      (∀ env, let r := (bkFlashPartitionWrite cfg env partition buffer offset len).exec
        r.1 = .ok → ∀ o ∈ r.2, o.2 = .ok) ↔
        ¬cfg.WriteReaches partition buffer offset len) ∧
    ((∀ env, let r := (bkFlashPartitionErase cfg env partition offset len).exec
        r.1 = .ok → ∀ o ∈ r.2, o.2 = .ok) ↔
      ¬cfg.EraseReaches partition offset len) := by
  -- a client all of whose operations fail
  let broken : FlashEnv := ⟨fun _ => 0, fun _ => .fail, fun _ _ => 0⟩
  refine ⟨fun out malloced => ⟨fun h hreach => ?_, fun hnot env hok => ?_⟩,
    fun buffer => ⟨fun h hreach => ?_, fun hnot env hok => ?_⟩, fun h hreach => ?_, fun hnot env hok o ho => ?_⟩
  · rcases read_cases cfg broken partition offset len out malloced with ⟨-, hnot⟩ | ⟨-, o, hok, hlog⟩
    · exact hnot hreach
    · cases (h broken hok).1 (o, .fail) (by rw [hlog]; exact List.mem_singleton_self _)
  · rcases read_cases cfg env partition offset len out malloced with ⟨hne, -⟩ | ⟨hreach, -⟩
    · exact absurd hok hne
    · exact absurd hreach hnot
  · rcases write_cases cfg broken partition offset len buffer with ⟨-, hnot⟩ | ⟨-, p, userBuf, -, -, hrun⟩
    · exact hnot hreach
    · have hops := h broken
      rw [hrun] at hops
      cases hops rfl _ (List.mem_singleton_self _)
  · rcases write_cases cfg env partition offset len buffer with ⟨hne, -⟩ | ⟨hreach, -⟩
    · exact absurd hok hne
    · exact absurd hreach hnot
  · rcases erase_cases cfg broken partition offset len with ⟨-, hnot⟩ | ⟨p, -, hok, -, hres⟩
    · exact hnot hreach
    · obtain ⟨o, ho, hr⟩ := hres hreach
      cases hr.symm.trans (h broken hok o ho)
  · rcases erase_cases cfg env partition offset len with ⟨hne, -⟩ | ⟨p, hp, -, hops, -⟩
    · exact absurd hok hne
    -- an accepted erase that does not reach the client has no sectors
    have hnil : (if len = 0 then [] else eraseAddrs p offset len) = [] := by
      split
      · rfl
      · rename_i hz
        exact Decidable.not_not.1 fun hne => hnot ⟨hz, eraseAddrs_ne_nil.1 hne, p, hp⟩
    rw [hnil, List.map_nil, List.map_eq_nil_iff] at hops
    rw [hops] at ho
    cases ho

def userPartition : PartitionCfg := ⟨[⟨0x1000, 0x2000, 3⟩], true, 0x100000⟩

theorem partition_swallows_errors :
    let env : FlashEnv := ⟨fun a => a.toUInt8, fun _ => .fail, fun _ _ => 0xA5⟩
    (bkFlashPartitionRead userPartition env 0 [] 0x21 3 true).exec =
        ((.ok, [0xA5, 0xA5, 0xA5]), [(.readBytes 0x1020 0x20, .fail)]) ∧
      env.bytes (0x1000 + 0x21) 3 = [0x21, 0x22, 0x23] ∧
      (bkFlashPartitionWrite userPartition env 0 (some fun i => i.toUInt8) 0x21 2).exec =
        (.ok, [(.writeBytes 0x1021 [0, 1], .fail)]) ∧
      (bkFlashPartitionErase userPartition env 0 0 0x1001).exec =
        (.ok, [(.eraseSector 0x1000, .fail), (.eraseSector 0x2000, .fail)]) := by
  refine ⟨?_, ?_, ?_, ?_⟩ <;> decide +kernel

end Bk7258

import Bk7258.Flash.Partition
import Bk7258.Flash.Request

/-!
# The bytes of a partition that are read and written

Over the CBUS the flash is memory, written in units of 34 bytes, 32 of data and two of CRC: a logical address counts the
data, a physical one all bytes. Read converts offset and length one by one, but conversion is not additive; write
neither converts nor calls the checks of `bk_flash_partition_write`. The latter writes through the client, whose
requests have an address of 24 bits.
-/

namespace Bk7258
open PartitionCfg

def phyAddrValid (addr : UInt32) : Bool := addr % 34 < 32

def phyToLogical (addr : UInt32) : UInt32 := addr / 34 * 32 + addr % 34

def flashLogicalBaseAddr : UInt32 := 0x02000000

inductive FlashProtectType
  | none
  | all
  | half
  | unprotectLastBlock
deriving DecidableEq, Repr

structure CbusEnv where
  mem : UInt32 → UInt8
  socFlashDataBase : UInt32
  protectType : FlashProtectType

inductive CbusOp
  | memcpy (inPtr len : UInt32)
  | memcpy4w (wrPtr : UInt32) (data : List UInt8)
  | setProtectType (type : FlashProtectType)
deriving DecidableEq, Repr

section
variable (cfg : PartitionCfg) (env : CbusEnv)

def bkFlashPartitionReadCbus (partition : Nat) (out : Option (List UInt8)) (offset len : UInt32) :
    FlashErr × Option (List UInt8) × List CbusOp :=
  match out with
  | none => (.errNullParam, none, [])
  | some buf =>
    match cfg.getInfo partition with
    | none => (.errFlashPartitionNotFound, some buf, [])
    | some p =>
      if !phyAddrValid p.startAddr then (.fail, some buf, [])
      else
        let ret := cfg.addrCheck p (logicalToPhy offset) (logicalToPhy len)
        if ret ≠ .ok then (ret, some buf, [])
        else
          let inPtr := flashLogicalBaseAddr + phyToLogical p.startAddr + offset
          (.ok, some ((List.range len.toNat).map fun i => env.mem (inPtr + UInt32.ofNat i)), [.memcpy inPtr len])

def bkFlashPartitionWriteCbus (partition : Nat) (buffer : Option (Nat → UInt8)) (offset len : UInt32) :
    FlashErr × List CbusOp :=
  match buffer with
  | none => (.errNullParam, [])
  | some userBuf =>
    match cfg.getInfo partition with
    | none => (.errFlashPartitionNotFound, [])
    | some p =>
      let wrPtr := env.socFlashDataBase + phyToLogical p.startAddr + offset
      if offset + len > p.length then (.errFlashAddrOutOfRange, [])
      else
        (.ok, [.setProtectType .none] ++
          (if offset + len ≤ p.length then [.memcpy4w wrPtr ((List.range len.toNat).map userBuf)] else []) ++
          [.setProtectType env.protectType])

end

/-! ## Units of 34 bytes -/

def toPhy (l : Nat) : Nat := l / 32 * 34 + l % 32

theorem toNat_phyToLogical (a : UInt32) : (phyToLogical a).toNat = a.toNat / 34 * 32 + a.toNat % 34 := by
  have ha := a.toNat_lt
  have h32 : UInt32.toNat 32 = 32 := rfl
  have h34 : UInt32.toNat 34 = 34 := rfl
  rw [phyToLogical, UInt32.toNat_add, UInt32.toNat_mul, UInt32.toNat_div, UInt32.toNat_mod, h32, h34]
  omega

theorem toNat_logicalToPhy (a : UInt32) : (logicalToPhy a).toNat = toPhy a.toNat % 0x100000000 := by
  have h32 : UInt32.toNat 32 = 32 := rfl
  have h34 : UInt32.toNat 34 = 34 := rfl
  unfold toPhy
  rw [logicalToPhy, UInt32.toNat_add, UInt32.toNat_mul, UInt32.toNat_div, UInt32.toNat_mod, h32, h34]
  omega

namespace LogicPartition
variable {p : LogicPartition} {offset len : UInt32} {i : Nat}

def Holds (p : LogicPartition) (a : Nat) : Prop := p.startAddr.toNat ≤ a ∧ a < p.startAddr.toNat + p.length.toNat

def Inside (p : LogicPartition) (addr : UInt32) : Prop := p.Holds addr.toNat

instance (p : LogicPartition) (addr : UInt32) : Decidable (p.Inside addr) := inferInstanceAs (Decidable (_ ∧ _))

/-- The physical address of byte `i` of a range over the CBUS -/
def cbusAddr (p : LogicPartition) (offset : UInt32) (i : Nat) : UInt32 :=
  logicalToPhy (phyToLogical p.startAddr + offset + UInt32.ofNat i)

theorem toNat_cbusAddr (h : (phyToLogical p.startAddr).toNat + offset.toNat + i < 0x100000000) :
    (p.cbusAddr offset i).toNat = (p.startAddr.toNat + toPhy offset.toNat + i +
      2 * ((p.startAddr.toNat % 34 + offset.toNat % 32 + i) / 32)) % 0x100000000 := by
  have hl : (phyToLogical p.startAddr + offset + UInt32.ofNat i).toNat =
      (phyToLogical p.startAddr).toNat + offset.toNat + i := by
    rw [UInt32.toNat_add, UInt32.toNat_add, UInt32.toNat_ofNat']
    omega
  rw [cbusAddr, toNat_logicalToPhy, hl, toNat_phyToLogical]
  unfold toPhy
  congr 1
  omega

/-- The units that the residues of start, offset and length go over together -/
def crossings (p : LogicPartition) (offset len : UInt32) : Nat :=
  (p.startAddr.toNat % 34 + offset.toNat % 32 + len.toNat % 32 - 1) / 32

theorem inside_cbusAddr_iff (hsize : p.startAddr.toNat + p.length.toNat ≤ 0x1000000)
    (hoff : (logicalToPhy offset).toNat ≤ p.length.toNat) (hi : i ≤ 0x1000004) : p.Inside (p.cbusAddr offset i) ↔
      (logicalToPhy offset).toNat + i + 2 * ((p.startAddr.toNat % 34 + offset.toNat % 32 + i) / 32) <
        p.length.toNat := by
  have ho := offset.toNat_lt
  have hphy : toPhy offset.toNat = (logicalToPhy offset).toNat + toPhy offset.toNat / 0x100000000 * 0x100000000 := by
    rw [toNat_logicalToPhy]
    omega
  have hlt : (phyToLogical p.startAddr).toNat + offset.toNat + i < 0x100000000 := by
    have hw : toPhy offset.toNat / 0x100000000 ≤ 1 := by
      unfold toPhy
      omega
    have hle : toPhy offset.toNat ≤ 0x101000000 := by omega
    rw [toNat_phyToLogical]
    unfold toPhy at hle
    omega
  rw [Inside, Holds, toNat_cbusAddr hlt, hphy]
  generalize (logicalToPhy offset).toNat = o at hoff
  generalize toPhy offset.toNat / 0x100000000 = w
  omega

end LogicPartition

/-! ## Read -/

section
variable {cfg : PartitionCfg} {p : LogicPartition} {partition : Nat} {offset len : UInt32}

theorem addrCheck_ok (hcheck : cfg.checkValid) (hlen : p.length.toNat ≤ 0x80000000)
    (h : cfg.addrCheck p offset len = .ok) : offset.toNat + len.toNat ≤ p.length.toNat := by
  unfold PartitionCfg.addrCheck at h
  rw [hcheck, Bool.true_and] at h
  split at h
  · cases h
  · rename_i hout
    simp only [ge_iff_le, gt_iff_lt, Bool.or_eq_true, decide_eq_true_eq, not_or, UInt32.le_iff_toNat_le,
      UInt32.lt_iff_toNat_lt, UInt32.toNat_add] at hout
    omega

theorem readCbus_ok {env : CbusEnv} {out : Option (List UInt8)} (hp : cfg.getInfo partition = some p)
    (h : (bkFlashPartitionReadCbus cfg env partition out offset len).1 = .ok) :
    cfg.addrCheck p (logicalToPhy offset) (logicalToPhy len) = .ok ∧
      (bkFlashPartitionReadCbus cfg env partition out offset len).2.2 =
        [.memcpy (flashLogicalBaseAddr + phyToLogical p.startAddr + offset) len] := by
  unfold bkFlashPartitionReadCbus at h ⊢
  cases out with
  | none => cases h
  | some buf =>
    simp only [hp] at h ⊢
    split at h
    · cases h
    · rename_i hvalid
      rw [if_neg hvalid]
      split at h
      · rename_i hret
        exact absurd h hret
      · rename_i hret
        rw [if_neg hret]
        exact ⟨Decidable.not_not.1 hret, rfl⟩

end

/-- In steps of three at most, `f` does not miss the numbers right behind `b`. -/
theorem exists_between {f : Nat → Nat} {b : Nat} (hstep : ∀ i, f (i + 1) ≤ f i + 3) (h₀ : f 0 ≤ b + 4) (n : Nat)
    (hn : b ≤ f n) : ∃ i ≤ n, b ≤ f i ∧ f i ≤ b + 4 := by
  induction n with
  | zero => exact ⟨0, Nat.le_refl 0, hn, h₀⟩
  | succ n ih =>
    by_cases hb : b ≤ f n
    · obtain ⟨i, hi, hf⟩ := ih hb
      exact ⟨i, Nat.le_succ_of_le hi, hf⟩
    · have hs := hstep n
      exact ⟨n + 1, Nat.le_refl _, hn, by omega⟩

/-- A read over the CBUS that is accepted is in the partition if and only if that has the two bytes more for each unit
the residues go over. -/
theorem read_cbus_inside (cfg : PartitionCfg) (env : CbusEnv) (partition : Nat) (out : Option (List UInt8))
    (offset len : UInt32) (p : LogicPartition) (hcheck : cfg.checkValid = true) (hp : cfg.getInfo partition = some p)
    (hsize : p.startAddr.toNat + p.length.toNat ≤ 0x1000000)
    (hok : (bkFlashPartitionReadCbus cfg env partition out offset len).1 = .ok) :
    (bkFlashPartitionReadCbus cfg env partition out offset len).2.2 =
        [.memcpy (flashLogicalBaseAddr + phyToLogical p.startAddr + offset) len] ∧
      ((∀ i < len.toNat, p.Inside (p.cbusAddr offset i)) ↔
        len = 0 ∨ (logicalToPhy offset).toNat + toPhy len.toNat + 2 * p.crossings offset len ≤ p.length.toNat) := by
  obtain ⟨haddr, hops⟩ := readCbus_ok hp hok
  have hsum := addrCheck_ok hcheck (by omega) haddr
  have hoff : (logicalToPhy offset).toNat ≤ p.length.toNat := by omega
  refine ⟨hops, ?_⟩
  rw [toNat_logicalToPhy len] at hsum
  rw [← UInt32.toNat_inj, UInt32.toNat_zero, LogicPartition.crossings]
  unfold toPhy at hsum ⊢
  constructor
  · intro hin
    by_contra hnot
    -- the first byte that is not in front of the end; the bytes before it are, so nothing has wrapped around
    obtain ⟨i, hi, hlo, hhi⟩ := exists_between (b := p.length.toNat)
      (f := fun i => (logicalToPhy offset).toNat + i +
        2 * ((p.startAddr.toNat % 34 + offset.toNat % 32 + i) / 32))
      (fun i => by omega) (by omega) (len.toNat - 1) (by omega)
    have hbyte := (LogicPartition.inside_cbusAddr_iff hsize hoff (by omega)).1 (hin i (by omega))
    omega
  · intro hroom i hi
    exact (LogicPartition.inside_cbusAddr_iff hsize hoff (by omega)).2 (by omega)

theorem read_cbus_inside_all :
    let cfg : PartitionCfg := ⟨[⟨0x22000, 0x1000, 1⟩], true, 0x100000⟩
    let env : CbusEnv := ⟨fun a => a.toUInt8, 0x02000000, .all⟩
    (bkFlashPartitionReadCbus cfg env 0 (some []) 0 3856).2.2 = [.memcpy 0x02020000 3856] ∧
      ∀ i < 3856, LogicPartition.Inside ⟨0x22000, 0x1000, 1⟩ (LogicPartition.cbusAddr ⟨0x22000, 0x1000, 1⟩ 0 i) := by
  intro cfg env
  obtain ⟨hops, hin⟩ := read_cbus_inside cfg env 0 (some []) 0 3856 ⟨0x22000, 0x1000, 1⟩ rfl rfl (by decide)
    (by decide +kernel)
  exact ⟨hops, hin.2 (.inr (by decide))⟩

/-- The sum is the length of the partition, 4096, and the last byte is the second one behind the partition. -/
theorem read_cbus_outside :
    let p : LogicPartition := ⟨0, 0x1000, 1⟩
    let cfg : PartitionCfg := ⟨[p], true, 0x100000⟩
    let env : CbusEnv := ⟨fun a => a.toUInt8, 0x02000000, .all⟩
    let r := bkFlashPartitionReadCbus cfg env 0 (some []) 31 3827
    r.1 = .ok ∧ r.2.2 = [.memcpy (flashLogicalBaseAddr + phyToLogical p.startAddr + 31) 3827] ∧
      p.cbusAddr 31 3826 = 4097 ∧ ¬p.Inside (p.cbusAddr 31 3826) := by
  refine ⟨?_, ?_, ?_, ?_⟩ <;> decide +kernel

/-! ## Write -/

/-- Where byte `j` of a write goes: its request has the address of a piece of 512 bytes, in 24 bits. -/
def requestAddr (address j : Nat) : Nat :=
  (address + j / flashIpcWriteSize * flashIpcWriteSize) % 0x1000000 + j % flashIpcWriteSize

/-- The requests of a write call of the client -/
def FlashOp.sent (reply : Nat → FlashReply) : FlashOp → List FlashReq
  | .writeBytes addr data =>
    (bkFlashWriteBytes reply true addr (fun i => data.getD i 0) (UInt32.ofNat data.length) []).2.map (·.1)
  | _ => []

/-- The piece of a write that is at `wrLen` -/
def pieceReq (address : Nat) (userBuf : Nat → UInt8) (wrLen n : Nat) : FlashReq :=
  writeReq ((address + wrLen) % 0x100000000) (fun i => userBuf (wrLen + i)) n

theorem writeLoop_log (reply : Nat → FlashReply) (address : Nat) (userBuf : Nat → UInt8) (wrLen size : Nat)
    (log : List (FlashReq × FlashReply)) : (writeLoop reply address userBuf wrLen size log).2 =
      let log' := log ++ [(pieceReq address userBuf wrLen (min size flashIpcWriteSize), reply log.length)]
      if size > flashIpcWriteSize ∧ (reply log.length).check .write = .ok then
        (writeLoop reply address userBuf (wrLen + flashIpcWriteSize) (size - flashIpcWriteSize) log').2
      else log' := by
  have hwrite (n : Nat) (hn : n ≤ flashIpcWriteSize) :
      flashWriteBytes reply ((address + wrLen) % 0x100000000) (fun i => userBuf (wrLen + i)) n log =
        ((reply log.length).check .write, log ++ [(pieceReq address userBuf wrLen n, reply log.length)]) := by
    unfold flashWriteBytes
    rw [if_neg (by rw [flashIpcWriteSize] at hn; omega)]
    rfl
  rw [writeLoop]
  by_cases hlt : size > flashIpcWriteSize
  · rw [if_pos hlt, FlashReqM.bind_run, hwrite _ (Nat.le_refl _), Nat.min_eq_right (Nat.le_of_lt hlt)]
    by_cases hok : (reply log.length).check .write = .ok
    · simp only [hlt, hok, ne_eq, not_true_eq_false, if_false, and_self, if_true]
    · simp only [hlt, hok, ne_eq, not_false_eq_true, if_true, and_false, if_false]
      rfl
  · rw [if_neg hlt, hwrite _ (Nat.not_lt.1 hlt), Nat.min_eq_left (Nat.not_lt.1 hlt)]
    simp only [hlt, false_and, if_false]

theorem mem_writes_pieceReq (address : Nat) (userBuf : Nat → UInt8) (wrLen : Nat) {n : Nat} (hn : n ≤ flashIpcWriteSize)
    {a : Nat} : (∃ v, (a, v) ∈ (pieceReq address userBuf wrLen n).writes) ↔
      ∃ j < n, a = requestAddr (address + wrLen) j := by
  rw [flashIpcWriteSize] at hn
  have hmod : (address + wrLen) % 0x100000000 % 0x1000000 = (address + wrLen) % 0x1000000 := by omega
  simp only [FlashReq.writes, pieceReq, writeReq, hmod, Nat.mod_eq_of_lt (show n < 0x10000 by omega), List.mem_map,
    List.mem_range, Prod.mk.injEq, requestAddr, flashIpcWriteSize]
  constructor
  · rintro ⟨v, j, hj, ha, -⟩
    exact ⟨j, hj, by omega⟩
  · rintro ⟨j, hj, rfl⟩
    exact ⟨_, j, hj, by omega, rfl⟩

/-- The requests of a write are about no other bytes than the client was asked to write, and about all of them when each
is accepted. -/
theorem writeLoop_sent (reply : Nat → FlashReply) (address : Nat) (userBuf : Nat → UInt8) (wrLen size : Nat)
    (log : List (FlashReq × FlashReply)) : ∃ new : List (FlashReq × FlashReply),
      (writeLoop reply address userBuf wrLen size log).2 = log ++ new ∧
      (∀ x ∈ new, ∀ w ∈ x.1.writes, ∃ j < size, w.1 = requestAddr (address + wrLen) j) ∧
      ((∀ k, reply k = .answer .write 0) → ∀ j < size, ∃ x ∈ new, ∃ w ∈ x.1.writes,
        w.1 = requestAddr (address + wrLen) j) := by
  induction hs : size using Nat.strongRecOn generalizing wrLen size log with
  | _ _ ih =>
    subst hs
    let x := (pieceReq address userBuf wrLen (min size flashIpcWriteSize), reply log.length)
    have hfirst (a : Nat) :=
      mem_writes_pieceReq address userBuf wrLen (Nat.min_le_right size flashIpcWriteSize) (a := a)
    have hsub₁ : ∀ w ∈ x.1.writes, ∃ j < size, w.1 = requestAddr (address + wrLen) j := fun w hw => by
      obtain ⟨j, hj, ha⟩ := (hfirst w.1).1 ⟨w.2, hw⟩
      exact ⟨j, Nat.lt_of_lt_of_le hj (Nat.min_le_left ..), ha⟩
    have hall₁ (j : Nat) (hj : j < size) (hj' : j < flashIpcWriteSize) :
        ∃ w ∈ x.1.writes, w.1 = requestAddr (address + wrLen) j := by
      obtain ⟨v, hv⟩ := (hfirst _).2 ⟨j, Nat.lt_min.2 ⟨hj, hj'⟩, rfl⟩
      exact ⟨_, hv, rfl⟩
    rw [writeLoop_log]
    dsimp only
    split
    · rename_i hgo
      obtain ⟨new, hlog, hsub, hall⟩ := ih (size - flashIpcWriteSize) (by rw [flashIpcWriteSize] at *; omega)
        (wrLen + flashIpcWriteSize) (size - flashIpcWriteSize) (log ++ [x]) rfl
      have hnext (j : Nat) : requestAddr (address + (wrLen + flashIpcWriteSize)) j =
          requestAddr (address + wrLen) (flashIpcWriteSize + j) := by
        rw [requestAddr, requestAddr, flashIpcWriteSize]
        omega
      refine ⟨x :: new, ?_, List.forall_mem_cons.2 ⟨hsub₁, fun y hy w hw => ?_⟩, fun hacc j hj => ?_⟩
      · rw [hlog, List.append_assoc]
        rfl
      · obtain ⟨j, hj, ha⟩ := hsub y hy w hw
        exact ⟨flashIpcWriteSize + j, by omega, ha.trans (hnext j)⟩
      · by_cases hj' : j < flashIpcWriteSize
        · exact ⟨x, List.mem_cons_self, hall₁ j hj hj'⟩
        · obtain ⟨y, hy, w, hw, ha⟩ := hall hacc (j - flashIpcWriteSize) (by omega)
          refine ⟨y, List.mem_cons_of_mem _ hy, w, hw, ?_⟩
          rw [ha, hnext, Nat.add_sub_cancel' (Nat.not_lt.1 hj')]
    · rename_i hstop
      refine ⟨[x], rfl, List.forall_mem_singleton.2 hsub₁, fun hacc j hj => ?_⟩
      refine ⟨x, List.mem_singleton_self x, hall₁ j hj ?_⟩
      rw [hacc] at hstop
      exact Nat.lt_of_lt_of_le hj (Nat.not_lt.1 fun hlt => hstop ⟨hlt, rfl⟩)

namespace LogicPartition
variable (p : LogicPartition) (offset len : UInt32)

/-- The range does not wrap around, and each of its requests begins in the first 16 MB. -/
def WriteFits : Prop :=
  len = 0 ∨ offset.toNat + len.toNat ≤ p.length.toNat ∧
    p.startAddr.toNat + offset.toNat + (len.toNat - 1) / flashIpcWriteSize * flashIpcWriteSize < 0x1000000

/-- With the CRC bytes in front of its last byte the range ends in the partition, and below 4 GB. -/
def CbusFits : Prop :=
  len = 0 ∨ p.startAddr.toNat + offset.toNat + len.toNat +
      2 * ((p.startAddr.toNat % 34 + offset.toNat + len.toNat - 1) / 32) ≤
    min (p.startAddr.toNat + p.length.toNat) 0x100000000

variable {p offset len}

/-- When the sum wraps around, the byte in front of the partition is written too. -/
theorem writeFits_iff (hr : offset + len ≤ p.length) (hlen : p.length.toNat < 0x1000000) :
    p.WriteFits offset len ↔ ∀ j < len.toNat, p.Holds (requestAddr (p.startAddr + offset).toNat j) := by
  have ho := offset.toNat_lt
  have hn := len.toNat_lt
  rw [UInt32.le_iff_toNat_le, UInt32.toNat_add] at hr
  have haddr (j : Nat) : requestAddr (p.startAddr + offset).toNat j =
      (p.startAddr.toNat + offset.toNat + j / 512 * 512) % 0x1000000 + j % 512 := by
    rw [requestAddr, UInt32.toNat_add, flashIpcWriteSize]
    omega
  simp only [WriteFits, Holds, haddr, flashIpcWriteSize, ← UInt32.toNat_inj, UInt32.toNat_zero]
  constructor
  · rintro (hz | ⟨hsum, hpiece⟩) j hj
    · omega
    · have hle : j / 512 ≤ (len.toNat - 1) / 512 := Nat.div_le_div_right (by omega)
      rw [Nat.mod_eq_of_lt (Nat.lt_of_le_of_lt (Nat.add_le_add_left (Nat.mul_le_mul_right 512 hle) _) hpiece)]
      omega
  · intro hin
    by_cases hz : len.toNat = 0
    · exact .inl hz
    have hsum : offset.toNat + len.toNat ≤ p.length.toNat := by
      by_contra hnot
      have hfront := hin (0x100000000 - 1 - offset.toNat) (by omega)
      omega
    refine .inr ⟨hsum, ?_⟩
    by_contra hnot
    have hlast := hin ((len.toNat - 1) / 512 * 512) (by omega)
    omega

/-- The byte in front of the partition, or the last logical address -/
theorem not_inside_front (hend : p.length.toNat < 0x1000000) (h33 : p.startAddr.toNat % 34 ≠ 33) :
    ¬p.Inside (p.cbusAddr offset (0x100000000 - 1 - offset.toNat)) := by
  have ho := offset.toNat_lt
  have hs := p.startAddr.toNat_lt
  have hl : (phyToLogical p.startAddr + offset + UInt32.ofNat (0x100000000 - 1 - offset.toNat)).toNat =
      (p.startAddr.toNat / 34 * 32 + p.startAddr.toNat % 34 + 0xFFFFFFFF) % 0x100000000 := by
    rw [UInt32.toNat_add, UInt32.toNat_add, UInt32.toNat_ofNat', toNat_phyToLogical]
    omega
  rw [Inside, Holds, cbusAddr, toNat_logicalToPhy, hl]
  by_cases h₀ : p.startAddr.toNat = 0
  · rw [h₀]
    unfold toPhy
    omega
  · rw [show (p.startAddr.toNat / 34 * 32 + p.startAddr.toNat % 34 + 0xFFFFFFFF) % 0x100000000 =
      p.startAddr.toNat / 34 * 32 + p.startAddr.toNat % 34 - 1 by omega]
    refine fun h => absurd h.1 (Nat.not_le.2 (Nat.lt_of_le_of_lt (Nat.mod_le ..) ?_))
    unfold toPhy
    omega

theorem cbusFits_iff (hr : offset + len ≤ p.length) (hlen : p.length.toNat < 0x1000000)
    (h33 : p.startAddr.toNat % 34 ≠ 33) :
    p.CbusFits offset len ↔ ∀ i < len.toNat, p.Inside (p.cbusAddr offset i) := by
  have ho := offset.toNat_lt
  have hn := len.toNat_lt
  have hs := p.startAddr.toNat_lt
  rw [UInt32.le_iff_toNat_le, UInt32.toNat_add] at hr
  have hbyte (i : Nat) (hi : offset.toNat + i ≤ 0x1000000) : p.Inside (p.cbusAddr offset i) ↔
      p.startAddr.toNat + offset.toNat + i + 2 * ((p.startAddr.toNat % 34 + offset.toNat + i) / 32) <
        min (p.startAddr.toNat + p.length.toNat) 0x100000000 := by
    rw [Inside, Holds, toNat_cbusAddr (by rw [toNat_phyToLogical]; omega)]
    unfold toPhy
    omega
  rw [CbusFits, ← UInt32.toNat_inj, UInt32.toNat_zero]
  constructor
  · intro hsum i hi
    exact (hbyte i (by omega)).2 (by omega)
  · intro hin
    by_cases hwrap : offset.toNat + len.toNat < 0x100000000
    · by_contra hnot
      have hlast := (hbyte (len.toNat - 1) (by omega)).1 (hin _ (by omega))
      omega
    · exact absurd (hin (0x100000000 - 1 - offset.toNat) (by omega)) (not_inside_front hlen h33)

end LogicPartition

theorem FlashOp.sent_writeBytes (addr : UInt32) {data : List UInt8} {len : UInt32} (hlen : data.length = len.toNat) :
    (∀ reply, ∀ r ∈ (writeBytes addr data).sent reply, ∀ w ∈ r.writes,
      ∃ j < len.toNat, w.1 = requestAddr addr.toNat j) ∧
    ∀ j < len.toNat, ∃ r ∈ (writeBytes addr data).sent fun _ => .answer .write 0,
      ∃ w ∈ r.writes, w.1 = requestAddr addr.toNat j := by
  have hsent (reply : Nat → FlashReply) :=
    writeLoop_sent reply addr.toNat (fun i => data.getD i 0) 0 (UInt32.ofNat data.length).toNat []
  simp only [hlen, UInt32.ofNat_toNat, Nat.add_zero, List.nil_append] at hsent
  have hrun (reply : Nat → FlashReply) : (writeBytes addr data).sent reply =
      (writeLoop reply addr.toNat (fun i => data.getD i 0) 0 len.toNat []).2.map (·.1) := by
    rw [sent, hlen, UInt32.ofNat_toNat]
    rfl
  constructor
  · intro reply r hr w hw
    obtain ⟨new, hlog, hsub, -⟩ := hsent reply
    rw [hrun, hlog] at hr
    obtain ⟨x, hx, rfl⟩ := List.mem_map.1 hr
    exact hsub x hx w hw
  · intro j hj
    obtain ⟨new, hlog, -, hall⟩ := hsent fun _ => .answer .write 0
    obtain ⟨x, hx, w, hw, ha⟩ := hall (fun _ => rfl) j hj
    rw [hrun, hlog]
    exact ⟨x.1, List.mem_map_of_mem hx, w, hw, ha⟩

theorem writeCbus_mem {cfg : PartitionCfg} {env : CbusEnv} {partition : Nat} {p : LogicPartition} {offset len : UInt32}
    {userBuf : Nat → UInt8} (hp : cfg.getInfo partition = some p) (hr : offset + len ≤ p.length) {wrPtr : UInt32}
    {data : List UInt8} :
    .memcpy4w wrPtr data ∈ (bkFlashPartitionWriteCbus cfg env partition (some userBuf) offset len).2 ↔
      wrPtr = env.socFlashDataBase + phyToLogical p.startAddr + offset ∧
        data = (List.range len.toNat).map userBuf := by
  unfold bkFlashPartitionWriteCbus
  simp only [hp, gt_iff_lt, if_neg (UInt32.not_lt.2 hr), if_pos hr, List.mem_append, List.mem_singleton, reduceCtorEq,
    false_or, or_false, CbusOp.memcpy4w.injEq]

theorem LogicPartition.cbusAddr_eq {p : LogicPartition} {offset : UInt32} (base : UInt32) (i : Nat) :
    logicalToPhy (base + phyToLogical p.startAddr + offset - base + UInt32.ofNat i) = p.cbusAddr offset i := by
  rw [UInt32.add_assoc base, UInt32.add_comm base, UInt32.add_sub_cancel, LogicPartition.cbusAddr]

theorem write_log {cfg : PartitionCfg} {partition : Nat} {p : LogicPartition} {offset len : UInt32} (env : FlashEnv)
    (userBuf : Nat → UInt8) (hp : cfg.Writable partition offset len p) (hr : offset + len ≤ p.length) :
    (bkFlashPartitionWrite cfg env partition (some userBuf) offset len).exec.2 =
      [(.writeBytes (p.startAddr + offset) ((List.range len.toNat).map userBuf), env.res 0)] := by
  rcases write_cases cfg env partition offset len (some userBuf) with ⟨-, hnot⟩ | ⟨-, q, b, hq, hb, hrun⟩
  · exact absurd ⟨Option.some_ne_none _, p, hp, hr⟩ hnot
  · cases hp.1.symm.trans hq
    cases hb
    rw [hrun]

/-- A write through the client is in the partition if and only if `offset + buffer_len` does not wrap around and its
requests begin in the first 16 MB, and one over the CBUS if and only if the CRC bytes in front of its last byte have
room too. -/
theorem partition_write_inside (cfg : PartitionCfg) (partition : Nat) (userBuf : Nat → UInt8) (offset len : UInt32)
    (p : LogicPartition) (hp : cfg.getInfo partition = some p) (hr : offset + len ≤ p.length)
    (hlen : p.length.toNat < 0x1000000) :
    (cfg.addrCheck p offset len = .ok → cfg.writePermCheck p = .ok →
      ((∀ env reply, ∀ o ∈ (bkFlashPartitionWrite cfg env partition (some userBuf) offset len).exec.2,
        ∀ r ∈ o.1.sent reply, ∀ w ∈ r.writes, p.Holds w.1) ↔ p.WriteFits offset len)) ∧
    (p.startAddr.toNat % 34 ≠ 33 →
      ((∀ env wrPtr data,
        .memcpy4w wrPtr data ∈ (bkFlashPartitionWriteCbus cfg env partition (some userBuf) offset len).2 →
        ∀ i < data.length, p.Inside (logicalToPhy (wrPtr - env.socFlashDataBase + UInt32.ofNat i))) ↔
          p.CbusFits offset len)) := by
  constructor
  · intro haddr hperm
    have hlog (env : FlashEnv) := write_log env userBuf ⟨hp, haddr, hperm⟩ hr
    obtain ⟨hsub, hall⟩ := FlashOp.sent_writeBytes (p.startAddr + offset)
      (show ((List.range len.toNat).map userBuf).length = len.toNat by rw [List.length_map, List.length_range])
    rw [LogicPartition.writeFits_iff hr hlen]
    constructor
    · intro hin j hj
      let env : FlashEnv := ⟨fun _ => 0, fun _ => .ok, fun _ _ => 0⟩
      obtain ⟨r, hr, w, hw, ha⟩ := hall j hj
      rw [← ha]
      exact hin env _ _ (by rw [hlog]; exact List.mem_singleton_self _) r hr w hw
    · intro hin env reply o ho r hr w hw
      rw [hlog, List.mem_singleton] at ho
      subst ho
      obtain ⟨j, hj, ha⟩ := hsub reply r hr w hw
      rw [ha]
      exact hin j hj
  · intro h33
    rw [LogicPartition.cbusFits_iff hr hlen h33]
    constructor
    · intro hin i hi
      let env : CbusEnv := ⟨fun _ => 0, 0, .none⟩
      rw [← LogicPartition.cbusAddr_eq env.socFlashDataBase]
      exact hin env _ _ ((writeCbus_mem hp hr).2 ⟨rfl, rfl⟩) i (by rw [List.length_map, List.length_range]; exact hi)
    · intro hin env wrPtr data ho i hi
      obtain ⟨rfl, rfl⟩ := (writeCbus_mem hp hr).1 ho
      rw [List.length_map, List.length_range] at hi
      rw [LogicPartition.cbusAddr_eq]
      exact hin i hi

theorem partition_write_inside_tail :
    let p : LogicPartition := ⟨0x22000, 0x1000, 2⟩
    let cfg : PartitionCfg := ⟨[p], true, 0x1000⟩
    let userBuf : Nat → UInt8 := fun _ => 7
    (∀ env reply, ∀ o ∈ (bkFlashPartitionWrite cfg env 0 (some userBuf) 0xF10 16).exec.2,
      ∀ r ∈ o.1.sent reply, ∀ w ∈ r.writes, p.Holds w.1) ∧
    ∀ env wrPtr data, .memcpy4w wrPtr data ∈ (bkFlashPartitionWriteCbus cfg env 0 (some userBuf) 0xF00 16).2 →
      ∀ i < data.length, p.Inside (logicalToPhy (wrPtr - env.socFlashDataBase + UInt32.ofNat i)) := by
  intro p cfg userBuf
  constructor
  · exact ((partition_write_inside cfg 0 userBuf 0xF10 16 p rfl (by decide) (by decide)).1 (by decide) (by decide)).2
      (.inr ⟨by decide, by decide⟩)
  · exact ((partition_write_inside cfg 0 userBuf 0xF00 16 p rfl (by decide) (by decide)).2 (by decide)).2
      (.inr (by decide))

/-- With the check off, `offset + buffer_len` wraps around to 0. Over the CBUS the last bytes are behind the partition.
-/
theorem partition_write_outside :
    let p : LogicPartition := ⟨0x22000, 0x1000, 2⟩
    let cfg : PartitionCfg := ⟨[p], false, 0x1000⟩
    let env : FlashEnv := ⟨fun _ => 0xFF, fun _ => .ok, fun _ _ => 0⟩
    let cbus : CbusEnv := ⟨fun _ => 0xFF, 0x12000000, .all⟩
    let userBuf : Nat → UInt8 := fun i => i.toUInt8
    ((bkFlashPartitionWrite cfg env 0 (some userBuf) 0xFFFFFFFC 4).exec =
        (.ok, [(.writeBytes 0x21FFC [0, 1, 2, 3], .ok)]) ∧
      ∃ r ∈ (FlashOp.writeBytes 0x21FFC [0, 1, 2, 3]).sent fun _ => .answer .write 0, ∃ w ∈ r.writes,
        w.1 = 0x21FFC ∧ ¬p.Holds w.1) ∧
    (bkFlashPartitionWriteCbus { cfg with checkValid := true } cbus 0 (some userBuf) 0xFFC 4).2 =
        [.setProtectType .none, .memcpy4w 0x12020FFC [0, 1, 2, 3], .setProtectType .all] ∧
      ∀ i < 4, ¬p.Inside (logicalToPhy (0x12020FFC - 0x12000000 + UInt32.ofNat i)) := by
  refine ⟨⟨by decide +kernel, ?_⟩, by decide +kernel, by decide +kernel⟩
  obtain ⟨r, hr, w, hw, ha⟩ := (FlashOp.sent_writeBytes 0x21FFC
    (show [0, 1, 2, 3].length = UInt32.toNat 4 from rfl)).2 0
    (by decide)
  exact ⟨r, hr, w, hw, ha, fun h => absurd h.1 (by rw [ha]; decide)⟩

end Bk7258

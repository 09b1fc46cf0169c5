import Mathlib.Data.List.Find
import Mathlib.Data.List.Pairwise
import Bk7258.Flash.Cbus

/-!
# Permission to write at an address

`bk_flash_partition_write_perm_check_by_addr` looks for the partition of an address, checks the range in it and asks
`flash_partition_write_perm_check`, which takes code that begins right behind a partition to be in it.
-/

namespace Bk7258
open PartitionCfg

def flashApiMagicCode : UInt32 := 0x12345678

section
variable (cfg : PartitionCfg)

/-- `flash_partition_get_info_by_addr`; the end of a partition is a `uint32_t`. -/
def flashPartitionGetInfoByAddr (addr : UInt32) : Option LogicPartition :=
  cfg.partitions.find? fun pt => !decide (addr < pt.startAddr) && !decide (addr ≥ pt.startAddr + pt.length)

def bkFlashPartitionWritePermCheckByAddr (addr size magicCode : UInt32) : FlashErr :=
  if magicCode ≠ flashApiMagicCode then .fail
  else
    match flashPartitionGetInfoByAddr cfg addr with
    | none => .fail
    | some p =>
      let offset := addr - p.startAddr
      let retVal := cfg.addrCheck p offset size
      if retVal ≠ .ok then retVal else cfg.writePermCheck p

def PartitionCfg.codeAddr : UInt32 := logicalToPhy (cfg.permCheckAddr &&& (0x1000000 - 1))

end

def LogicPartition.Disjoint (p q : LogicPartition) : Prop := ∀ a, ¬(p.Inside a ∧ q.Inside a)

instance : Std.Symm LogicPartition.Disjoint := ⟨fun _ _ h a hb => h a hb.symm⟩

def LogicPartition.stop (p : LogicPartition) : Nat := p.startAddr.toNat + p.length.toNat

section
variable {cfg : PartitionCfg} {p : LogicPartition} {addr size : UInt32}

/-- A partition that does not end below `2 ^ 32` is never found: its end is a small number. -/
theorem getInfo_test (p : LogicPartition) (addr : UInt32) :
    (!decide (addr < p.startAddr) && !decide (addr ≥ p.startAddr + p.length)) = true ↔
      p.Inside addr ∧ p.stop < 0x100000000 := by
  have hs := p.startAddr.toNat_lt
  have hl := p.length.toNat_lt
  simp only [Bool.and_eq_true, Bool.not_eq_true', decide_eq_false_iff_not, ge_iff_le, UInt32.lt_iff_toNat_lt,
    UInt32.le_iff_toNat_le, UInt32.toNat_add, LogicPartition.Inside, LogicPartition.Holds, LogicPartition.stop]
  omega

theorem addrCheck_ok_iff (hcheck : cfg.checkValid) (hin : p.Inside addr) :
    cfg.addrCheck p (addr - p.startAddr) size = .ok ↔ size.toNat ≤ p.length.toNat ∧
      (addr.toNat - p.startAddr.toNat + size.toNat) % 0x100000000 ≤ p.length.toNat := by
  obtain ⟨hlo, hhi⟩ := hin
  have hoff : (addr - p.startAddr).toNat = addr.toNat - p.startAddr.toNat :=
    UInt32.toNat_sub_of_le _ _ (UInt32.le_iff_toNat_le.2 hlo)
  unfold PartitionCfg.addrCheck
  simp only [hcheck, Bool.true_and, ge_iff_le, gt_iff_lt, Bool.or_eq_true, decide_eq_true_eq, UInt32.le_iff_toNat_le,
    UInt32.lt_iff_toNat_lt, UInt32.toNat_add, hoff]
  split
  · refine iff_of_false FlashErr.noConfusion ?_
    omega
  · refine iff_of_true rfl ?_
    omega

theorem writePermCheck_ok_iff (hcheck : cfg.checkValid) (hend : p.stop < 0x100000000) :
    cfg.writePermCheck p = .ok ↔
      p.options &&& 2 ≠ 0 ∧ ¬(p.startAddr.toNat ≤ cfg.codeAddr.toNat ∧ cfg.codeAddr.toNat ≤ p.stop) := by
  have hsum : (p.startAddr + p.length).toNat = p.stop := by
    rw [UInt32.toNat_add]
    exact Nat.mod_eq_of_lt hend
  unfold PartitionCfg.writePermCheck
  rw [if_pos hcheck]
  by_cases hopt : p.options &&& 2 = 0
  · rw [if_pos hopt]
    exact iff_of_false FlashErr.noConfusion fun h => h.1 hopt
  rw [if_neg hopt]
  show (if cfg.codeAddr < p.startAddr then _ else if cfg.codeAddr > p.startAddr + p.length then _ else _) = _ ↔ _
  simp only [gt_iff_lt, UInt32.lt_iff_toNat_lt, hsum]
  split
  · exact iff_of_true rfl ⟨hopt, by omega⟩
  · split
    · exact iff_of_true rfl ⟨hopt, by omega⟩
    · exact iff_of_false FlashErr.noConfusion fun h => h.2 (by omega)

theorem exists_inside_iff {l : List LogicPartition} (hdisj : l.Pairwise LogicPartition.Disjoint) (hp : p ∈ l)
    (hin : p.Inside addr) (P : LogicPartition → Prop) : (∃ q ∈ l, q.Inside addr ∧ P q) ↔ P p := by
  refine ⟨fun ⟨q, hq, hqin, hP⟩ => ?_, fun hP => ⟨p, hp, hin, hP⟩⟩
  by_cases hne : p = q
  · rwa [hne]
  · exact absurd ⟨hin, hqin⟩ (hdisj.forall hp hq hne addr)

theorem writePermCheckByAddr_eq_ok (hcheck : cfg.checkValid = true)
    (hdisj : cfg.partitions.Pairwise LogicPartition.Disjoint) :
    bkFlashPartitionWritePermCheckByAddr cfg addr size flashApiMagicCode = .ok ↔
      ∃ p ∈ cfg.partitions, p.Inside addr ∧ p.stop < 0x100000000 ∧ (size.toNat ≤ p.length.toNat ∧
        (addr.toNat - p.startAddr.toNat + size.toNat) % 0x100000000 ≤ p.length.toNat) ∧
        p.options &&& 2 ≠ 0 ∧ ¬(p.startAddr.toNat ≤ cfg.codeAddr.toNat ∧ cfg.codeAddr.toNat ≤ p.stop) := by
  unfold bkFlashPartitionWritePermCheckByAddr
  rw [if_neg (not_not_intro rfl)]
  cases hf : flashPartitionGetInfoByAddr cfg addr with
  | none =>
    refine iff_of_false FlashErr.noConfusion fun ⟨p, hp, hin, hend, _⟩ => ?_
    exact List.find?_eq_none.1 hf p hp ((getInfo_test p addr).2 ⟨hin, hend⟩)
  | some p =>
    have htest := List.find?_some hf
    obtain ⟨hin, hend⟩ := (getInfo_test p addr).1 htest
    rw [exists_inside_iff hdisj (List.mem_of_find?_eq_some hf) hin, ← addrCheck_ok_iff hcheck hin,
      ← writePermCheck_ok_iff hcheck hend]
    dsimp only
    by_cases hret : cfg.addrCheck p (addr - p.startAddr) size = .ok
    · rw [if_neg (not_not_intro hret)]
      exact ⟨fun h => ⟨hend, hret, h⟩, fun h => h.2.2⟩
    · rw [if_pos hret]
      exact iff_of_false hret fun h => hret h.2.1

end

/-- A range of the partition is decided right if the partition ends below `2 ^ 32` and the running code is not its end;
one that is not in the partition, unless its end wraps around into it. -/
def PartitionCfg.DecidedRight (cfg : PartitionCfg) (p : LogicPartition) (addr size : UInt32) : Prop :=
  (addr.toNat + size.toNat ≤ p.stop → p.stop < 0x100000000 ∧ cfg.codeAddr.toNat ≠ p.stop) ∧
  (p.stop < addr.toNat + size.toNat → p.stop < 0x100000000 → cfg.codeAddr.toNat ≠ p.stop →
    p.length.toNat < size.toNat ∨ addr.toNat - p.startAddr.toNat + size.toNat < 0x100000000)

instance (cfg : PartitionCfg) (p : LogicPartition) (addr size : UInt32) : Decidable (cfg.DecidedRight p addr size) := by
  unfold PartitionCfg.DecidedRight
  infer_instance

/-- That a write is permitted if and only if its range is in one partition, which may be written and does not have the
running code, depends on that partition alone. -/
theorem writePermCheckByAddr_ok_iff (cfg : PartitionCfg) (hcheck : cfg.checkValid = true)
    (hdisj : cfg.partitions.Pairwise LogicPartition.Disjoint) (addr size : UInt32) :
    (bkFlashPartitionWritePermCheckByAddr cfg addr size flashApiMagicCode = .ok ↔
      ∃ p ∈ cfg.partitions, p.Inside addr ∧ addr.toNat + size.toNat ≤ p.startAddr.toNat + p.length.toNat ∧
        p.options &&& 2 ≠ 0 ∧ ¬p.Inside cfg.codeAddr) ↔
    ∀ p ∈ cfg.partitions, p.Inside addr → p.options &&& 2 ≠ 0 → ¬p.Inside cfg.codeAddr →
      cfg.DecidedRight p addr size := by
  rw [writePermCheckByAddr_eq_ok hcheck hdisj]
  by_cases hex : ∃ p ∈ cfg.partitions, p.Inside addr
  · obtain ⟨p, hp, hin⟩ := hex
    have hall : (∀ q ∈ cfg.partitions, q.Inside addr → q.options &&& 2 ≠ 0 → ¬q.Inside cfg.codeAddr →
        cfg.DecidedRight q addr size) ↔ (p.options &&& 2 ≠ 0 → ¬p.Inside cfg.codeAddr →
          cfg.DecidedRight p addr size) := by
      refine ⟨fun h => h p hp hin, fun h q hq hqin => ?_⟩
      by_cases hne : p = q
      · rwa [← hne]
      · exact absurd ⟨hin, hqin⟩ (hdisj.forall hp hq hne addr)
    rw [exists_inside_iff hdisj hp hin, exists_inside_iff hdisj hp hin, hall]
    have ha := addr.toNat_lt
    by_cases hopt : p.options &&& 2 = 0
    · exact iff_of_true (iff_of_false (fun h => h.2.2.1 hopt) fun h => h.2.1 hopt) fun h => absurd hopt h
    simp only [ne_eq, hopt, not_false_eq_true, true_and, forall_true_left, LogicPartition.Inside, LogicPartition.Holds,
      PartitionCfg.DecidedRight, LogicPartition.stop] at hin ⊢
    omega
  · refine iff_of_true (iff_of_false ?_ ?_) fun p hp hin => absurd ⟨p, hp, hin⟩ hex
    · rintro ⟨p, hp, hin, -⟩
      exact hex ⟨p, hp, hin⟩
    · rintro ⟨p, hp, hin, -⟩
      exact hex ⟨p, hp, hin⟩

def bootTable : PartitionCfg := ⟨[⟨0, 0x11000, 1⟩, ⟨0x11000, 0x1000, 3⟩], true, 0x02001000⟩

theorem bootTable_disjoint : bootTable.partitions.Pairwise LogicPartition.Disjoint := by
  refine List.pairwise_pair.2 fun a => ?_
  rintro ⟨⟨-, h1⟩, ⟨h2, -⟩⟩
  exact absurd (Nat.lt_of_le_of_lt h2 h1) (by decide)

theorem writePermCheckByAddr_ok_iff_boot :
    bkFlashPartitionWritePermCheckByAddr bootTable 0x11010 0xFF0 flashApiMagicCode = .ok ↔
      ∃ p ∈ bootTable.partitions, p.Inside 0x11010 ∧ 0x12000 ≤ p.startAddr.toNat + p.length.toNat ∧
        p.options &&& 2 ≠ 0 ∧ ¬p.Inside bootTable.codeAddr :=
  (writePermCheckByAddr_ok_iff bootTable rfl bootTable_disjoint 0x11010 0xFF0).2 (by decide)

/-- The code begins right behind the partition; a partition ends at 2^32; the end of the range wraps around. -/
theorem writePermCheckByAddr_wrong :
    (let p : LogicPartition := ⟨0, 0x22000, 3⟩
     let cfg : PartitionCfg := ⟨[p], true, 0x02020000⟩
     bkFlashPartitionWritePermCheckByAddr cfg 0x1000 0x1000 flashApiMagicCode = .fail ∧ p.Inside 0x1000 ∧
       0x1000 + 0x1000 ≤ p.startAddr.toNat + p.length.toNat ∧ p.options &&& 2 ≠ 0 ∧ ¬p.Inside cfg.codeAddr) ∧
    (let p : LogicPartition := ⟨0xFFFFF000, 0x1000, 3⟩
     let cfg : PartitionCfg := ⟨[p], true, 0x02020000⟩
     bkFlashPartitionWritePermCheckByAddr cfg 0xFFFFF000 0x100 flashApiMagicCode = .fail ∧ p.Inside 0xFFFFF000 ∧
       0xFFFFF000 + 0x100 ≤ p.startAddr.toNat + p.length.toNat ∧ p.options &&& 2 ≠ 0 ∧ ¬p.Inside cfg.codeAddr) ∧
    (let p : LogicPartition := ⟨0x01000000, 0xF0000000, 3⟩
     let cfg : PartitionCfg := ⟨[p], true, 0x02000000⟩
     bkFlashPartitionWritePermCheckByAddr cfg 0xE1000000 0x20000000 flashApiMagicCode = .ok ∧ p.Inside 0xE1000000 ∧
       ¬0xE1000000 + 0x20000000 ≤ p.startAddr.toNat + p.length.toNat) := by
  refine ⟨?_, ?_, ?_⟩ <;> decide +kernel

end Bk7258

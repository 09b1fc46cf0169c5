import Bk7258.Flash.Cbus

/-!
# The sectors of a partition erase

`bk_flash_partition_erase` goes from the sector of its first byte to that of its last. The addresses are those of a
partition that starts with a sector, and each is the address of one request, in 24 bits.
-/

namespace Bk7258

def FlashOp.sector? : FlashOp → Option Nat
  | .eraseSector addr => some ((eraseSectorReq addr).cmd.addr / 0x1000)
  | _ => none

section
variable {cfg : PartitionCfg} {env : FlashEnv} {p : LogicPartition} {partition : Nat} {offset size : UInt32}

theorem ops_partitionErase (hp : cfg.getInfo partition = some p)
    (h : (bkFlashPartitionErase cfg env partition offset size).exec.1 = .ok) : cfg.addrCheck p offset size = .ok ∧
      (bkFlashPartitionErase cfg env partition offset size).exec.2.map (·.1) =
        (if size = 0 then [] else eraseAddrs p offset size).map .eraseSector := by
  rcases erase_cases cfg env partition offset size with ⟨hne, -⟩ | ⟨q, hq, -, hops, -⟩
  · exact absurd h hne
  · cases hp.symm.trans hq.1
    exact ⟨hq.2.1, hops⟩

theorem sectors_eraseAddrs (hstart : p.startAddr.toNat % 0x1000 = 0)
    (hend : p.startAddr.toNat + p.length.toNat ≤ 0x1000000) (hsum : offset.toNat + size.toNat ≤ p.length.toNat)
    (hsize : size ≠ 0) : (eraseAddrs p offset size).map (fun a => (eraseSectorReq a).cmd.addr / 0x1000) =
      List.range' ((p.startAddr.toNat + offset.toNat) / 0x1000)
        ((offset.toNat + size.toNat - 1) / 0x1000 + 1 - offset.toNat / 0x1000) := by
  have hlt := size.toNat_lt
  have hpos : size.toNat ≠ 0 := fun h => hsize (UInt32.toNat_inj.1 h)
  have h12 : UInt32.toNat 12 % 32 = 12 := rfl
  have hlast : (offset + size - 1).toNat = offset.toNat + size.toNat - 1 := by
    rw [UInt32.toNat_sub, UInt32.toNat_add, UInt32.toNat_one]
    omega
  have hshift (x : UInt32) : (x >>> 12).toNat = x.toNat / 0x1000 := by
    rw [UInt32.toNat_shiftRight, h12, Nat.shiftRight_eq_div_pow]
  simp only [eraseAddrs, List.map_map, hshift, hlast]
  rw [show (p.startAddr.toNat + offset.toNat) / 0x1000 = p.startAddr.toNat / 0x1000 + offset.toNat / 0x1000 by omega,
    List.range'_eq_map_range, List.range'_eq_map_range, List.map_map]
  apply List.map_congr_left
  intro i hi
  rw [List.mem_range] at hi
  have haddr : (p.startAddr + (UInt32.ofNat (offset.toNat / 0x1000 + i)) <<< 12).toNat =
      p.startAddr.toNat + (offset.toNat / 0x1000 + i) * 0x1000 := by
    rw [UInt32.toNat_add, UInt32.toNat_shiftLeft, h12, UInt32.toNat_ofNat', Nat.shiftLeft_eq]
    omega
  simp only [Function.comp, eraseSectorReq, haddr]
  omega

end

/-- A partition erase that is accepted erases the sectors of its range, each once, all in the partition, if that starts
and ends with a sector below 16 MB. -/
theorem partitionErase_sectors (cfg : PartitionCfg) (env : FlashEnv) (hcheck : cfg.checkValid = true) (partition : Nat)
    (offset size : UInt32) (p : LogicPartition) (hp : cfg.getInfo partition = some p)
    (hstart : p.startAddr.toNat % 0x1000 = 0) (hlength : p.length.toNat % 0x1000 = 0)
    (hend : p.startAddr.toNat + p.length.toNat ≤ 0x1000000)
    (hok : (bkFlashPartitionErase cfg env partition offset size).exec.1 = .ok) :
    ∃ sectors : List Nat,
      (bkFlashPartitionErase cfg env partition offset size).exec.2.map (·.1.sector?) = sectors.map some ∧
      sectors.Nodup ∧
      (∀ k, k ∈ sectors ↔ ∃ a, a / 0x1000 = k ∧ p.startAddr.toNat + offset.toNat ≤ a ∧
        a < p.startAddr.toNat + offset.toNat + size.toNat) ∧
      ∀ k ∈ sectors, ∀ a, a / 0x1000 = k →
        p.startAddr.toNat ≤ a ∧ a < p.startAddr.toNat + p.length.toNat := by
  obtain ⟨haddr, hops⟩ := ops_partitionErase hp hok
  have hsum := addrCheck_ok hcheck (by omega) haddr
  have hmap : (bkFlashPartitionErase cfg env partition offset size).exec.2.map (·.1.sector?) =
      ((if size = 0 then [] else eraseAddrs p offset size).map fun a => (eraseSectorReq a).cmd.addr /
        0x1000).map some := by
    rw [show (fun x : FlashOp × FlashErr => x.1.sector?) = FlashOp.sector? ∘ (·.1) from rfl, ← List.map_map, hops,
      List.map_map, List.map_map]
    rfl
  refine ⟨_, hmap, ?_⟩
  by_cases hz : size = 0
  · rw [if_pos hz]
    subst hz
    refine ⟨List.nodup_nil, fun k => iff_of_false List.not_mem_nil ?_, fun k hk => absurd hk List.not_mem_nil⟩
    rintro ⟨a, -, hlo, hhi⟩
    exact absurd hhi (Nat.not_lt.2 hlo)
  · rw [if_neg hz, sectors_eraseAddrs hstart hend hsum hz]
    have hpos : size.toNat ≠ 0 := fun h => hz (UInt32.toNat_inj.1 h)
    refine ⟨List.nodup_range', fun k => ?_, fun k hk a ha => ?_⟩
    · rw [List.mem_range'_1]
      constructor
      · intro hk
        -- the sector's first byte, or that of the range
        refine ⟨max (k * 0x1000) (p.startAddr.toNat + offset.toNat), ?_, ?_, ?_⟩ <;> omega
      · rintro ⟨a, rfl, hlo, hhi⟩
        omega
    · rw [List.mem_range'_1] at hk
      omega

theorem partitionErase_sectors_user :
    let env : FlashEnv := ⟨fun a => a.toUInt8, fun _ => .ok, fun _ _ => 0⟩
    ∃ sectors : List Nat,
      (bkFlashPartitionErase userPartition env 0 0x10 0x1000).exec.2.map (·.1.sector?) = sectors.map some ∧
      sectors.Nodup ∧ ∀ k, k ∈ sectors ↔ ∃ a, a / 0x1000 = k ∧ 0x1010 ≤ a ∧ a < 0x2010 := by
  intro env
  obtain ⟨sectors, hops, hnodup, hmem, -⟩ := partitionErase_sectors userPartition env rfl 0 0x10 0x1000
    ⟨0x1000, 0x2000, 3⟩ rfl (by decide) (by decide) (by decide) (by decide +kernel)
  exact ⟨sectors, hops, hnodup, hmem⟩

end Bk7258

import Bk7258.SpiFlash.Spi

/-!
# Erasing a range

Both drivers erase every byte of the range. They erase more than its sectors when a block of 32 or 64 KB begins before
the first sector of the range, or ends behind the last one.
-/

namespace Bk7258

structure EraseDone (addr size : Nat) (m m' : Bytes.Mem) : Prop where
  erased : ∀ x, addr ≤ x → x < addr + size → m' x = 0xFF
  kept : ∀ x, (∀ a, addr ≤ a → a < addr + size → a / 0x1000 ≠ x / 0x1000) → m' x = m x

theorem eraseBlocks_zero (addr : Nat) : eraseBlocks addr 0 = [] := by
  rw [eraseBlocks, eraseSteps_zero, List.map_nil]

section
variable {addr size : Nat} (hend : addr + size ≤ 0x1000000)
include hend

theorem eraseDone_blocks (hsnug : Snug addr size) (m : Bytes.Mem) :
    EraseDone addr size m (Nor.eraseAll (eraseBlocks addr size) m) := by
  refine ⟨fun x h₁ h₂ => (eraseAll_blocks hend m x).1 (eraseSteps_covers h₁ h₂), fun x hx => ?_⟩
  refine (eraseAll_blocks hend m x).2 fun ⟨b, hb, hin⟩ => ?_
  have hpos : 0 < size := (mem_eraseSteps hb).1
  obtain ⟨hlo, hhi⟩ := eraseSteps_snug hsnug hb hin
  -- a sector between the first and the last one has its first byte in the range, or is the first
  refine hx (max addr (x / 0x1000 * 0x1000)) ?_ ?_ ?_ <;> omega

/-- On a chip that is not erased a block outside the sectors of the range shows. -/
theorem snug_of_eraseDone (h : EraseDone addr size (fun _ => 0) (Nor.eraseAll (eraseBlocks addr size) fun _ => 0)) :
    Snug addr size := by
  by_contra hsnug
  obtain ⟨x, hout, hin⟩ := exists_spill hsnug
  have herased := (eraseAll_blocks hend (fun _ => 0) x).1 hin
  rw [h.kept x fun a h₁ h₂ ha => hout ?_] at herased
  · cases herased
  · unfold InSectors
    omega

theorem bkQspiFlashErase_mem (s : QspiSys) :
    (bkQspiFlashErase s addr size).1.chip.mem = Nor.eraseAll (eraseBlocks addr size) s.chip.mem := by
  rcases Nat.eq_zero_or_pos size with rfl | hpos
  · rw [eraseBlocks_zero, bkQspiFlashErase, if_pos rfl, ite_self]
    rfl
  · rw [bkQspiFlashErase, if_neg (by omega), if_neg (Nat.ne_of_gt hpos)]
    exact foldl_eraseSteps (fun s : QspiSys => s.chip.mem) (fun s b => rfl) addr size s

end

theorem spiFlashEarse_fold (env : SpiEnv) (bs : List (EraseMode × Nat)) (s : SpiSys) :
    s.count ≤ (bs.foldl (fun s b => spiFlashEarse env s b.2 b.1) s).count ∧
    (env.Carries s (bs.foldl (fun s b => spiFlashEarse env s b.2 b.1) s) →
      (bs.foldl (fun s b => spiFlashEarse env s b.2 b.1) s).chip.mem =
        Nor.eraseAll (bs.map fun b => (b.1.size, b.2 % 0x1000000)) s.chip.mem) ∧
    ((∀ k, env.xfer k = false) → (bs.foldl (fun s b => spiFlashEarse env s b.2 b.1) s).chip = s.chip) := by
  induction bs generalizing s with
  | nil => exact ⟨Nat.le_refl _, fun _ => rfl, fun _ => rfl⟩
  | cons b bs ih =>
    obtain ⟨hcount, hmem, hkept⟩ := ih (spiFlashEarse env s b.2 b.1)
    have hstep : s.count < (spiFlashEarse env s b.2 b.1).count := count_sendEnabled ..
    simp only [List.foldl_cons]
    refine ⟨by omega, fun hx => ?_, fun hx => ?_⟩
    · have hfirst : (spiFlashEarse env s b.2 b.1).chip.mem = Nor.erase b.1.size (b.2 % 0x1000000) s.chip.mem := by
        rw [spiFlashEarse, sendEnabled_chip (hx.left hcount)]
        rfl
      rw [hmem (hx.right (Nat.le_of_lt hstep)), hfirst]
      rfl
    · rw [hkept hx, spiFlashEarse, sendEnabled_refused hx]

def blankQspi : QspiSys := ⟨⟨fun _ => 0, false⟩, fun _ => 0, []⟩

def blankSpi : SpiSys := ⟨⟨fun _ => 0, false⟩, 0, 0⟩

/-- Both drivers erase the range and keep what is outside its sectors, if and only if it is snug in its blocks, as long
as the transfers of the SPI driver take place. As one that does not is not noticed, without that only the empty range is
left to it. -/
theorem erase_done {addr size : Nat} (hend : addr + size ≤ 0x1000000) :
    ((∀ s, EraseDone addr size s.chip.mem (bkQspiFlashErase s addr size).1.chip.mem) ↔ Snug addr size) ∧
    ((∀ env s, env.Carries s (bkSpiFlashErase env s addr size) →
      EraseDone addr size s.chip.mem (bkSpiFlashErase env s addr size).chip.mem) ↔ Snug addr size) ∧
    ((∀ env s, EraseDone addr size s.chip.mem (bkSpiFlashErase env s addr size).chip.mem) ↔ size = 0) := by
  refine ⟨⟨fun h => snug_of_eraseDone hend ?_, fun hsnug s => ?_⟩,
    ⟨fun h => snug_of_eraseDone hend ?_, fun hsnug env s hx => ?_⟩, fun h => ?_, ?_⟩
  · have hdone := h blankQspi
    rwa [bkQspiFlashErase_mem hend] at hdone
  · rw [bkQspiFlashErase_mem hend]
    exact eraseDone_blocks hend hsnug _
  · have hmem := (spiFlashEarse_fold slowChip (eraseSteps addr size size) blankSpi).2.1 fun _ _ _ => rfl
    have hdone := h slowChip blankSpi fun _ _ _ => rfl
    rwa [bkSpiFlashErase, hmem] at hdone
  · rw [bkSpiFlashErase, (spiFlashEarse_fold _ _ s).2.1 hx]
    exact eraseDone_blocks hend hsnug _
  · by_contra hz
    -- no transfer takes place, and the chip stays as it is
    let env : SpiEnv := ⟨fun _ => false, fun _ => 0, fun _ => true⟩
    have hdone := (h env blankSpi).erased addr (Nat.le_refl _) (by omega)
    rw [bkSpiFlashErase, (spiFlashEarse_fold _ _ _).2.2 fun _ => rfl] at hdone
    cases hdone
  · rintro rfl env s
    rw [bkSpiFlashErase, eraseSteps_zero]
    exact ⟨fun x h₁ h₂ => absurd h₂ (Nat.not_lt.2 h₁), fun x _ => rfl⟩

theorem erase_done_block :
    Snug 0x10000 0x11000 ∧ EraseDone 0x10000 0x11000 (fun _ => 0)
    (bkQspiFlashErase blankQspi 0x10000 0x11000).1.chip.mem ∧
      EraseDone 0x10000 0x11000 (fun _ => 0) (bkSpiFlashErase slowChip blankSpi 0x10000 0x11000).chip.mem := by
  obtain ⟨hqspi, hspi, -⟩ := erase_done (show 0x10000 + 0x11000 ≤ 0x1000000 by decide)
  exact ⟨by decide, hqspi.2 (by decide) blankQspi, hspi.2 (by decide) slowChip blankSpi fun _ _ _ => rfl⟩

theorem erase_too_much :
    ((bkQspiFlashErase blankQspi 0 0x1001).1.chip.mem 0x2000 = 0xFF ∧
      (bkSpiFlashErase slowChip blankSpi 0 0x1001).chip.mem 0x2000 = 0xFF ∧
      ∀ a, a < 0x1001 → a / 0x1000 ≠ 0x2000 / 0x1000) ∧
    (bkSpiFlashErase ⟨fun _ => false, fun _ => 0, fun _ => true⟩ blankSpi 0 0x1000).chip.mem 0 = 0 := by
  refine ⟨⟨?_, ?_, ?_⟩, ?_⟩
  · decide +kernel
  · decide +kernel
  · intro a ha
    omega
  · decide +kernel

end Bk7258

import Bk7258.Lib.Nor

/-!
# The erase loop

`bk_qspi_flash_erase` and `bk_spi_flash_erase` have the same loop. Each step erases the aligned block with the address
in it and goes on to the end of the block; the size of the block depends on `size`, which is the size of the range in
the first step and the length of the step before afterwards.
-/

namespace Bk7258

/-- `FLASH_ERASE_SECTOR_CMD`, `FLASH_ERASE_32K_CMD`, `FLASH_ERASE_64K_CMD` -/
inductive EraseMode
  | sector
  | block32k
  | block64k
deriving DecidableEq, Repr

def EraseMode.size : EraseMode → Nat
  | .sector => 0x1000
  | .block32k => 0x8000
  | .block64k => 0x10000

def eraseMode (size leftSize : Nat) : EraseMode :=
  if leftSize ≤ 0x1000 then .sector else if size ≤ 0x8000 then .block32k else .block64k

def eraseLen (mode : EraseMode) (addr : Nat) : Nat :=
  if addr % mode.size ≠ 0 then mode.size - addr % mode.size else mode.size

theorem eraseLen_eq (mode : EraseMode) (addr : Nat) : eraseLen mode addr = mode.size - addr % mode.size := by
  unfold eraseLen
  split <;> omega

theorem eraseLen_pos (mode : EraseMode) (addr : Nat) : 0 < eraseLen mode addr := by
  rw [eraseLen_eq]
  cases mode <;> simp only [EraseMode.size] <;> omega

/-- The erases of the loop, in order; `left_size` goes below 0 in the last step, which is 0 here. -/
def eraseSteps (addr size leftSize : Nat) : List (EraseMode × Nat) :=
  if leftSize = 0 then []
  else
    let mode := eraseMode size leftSize
    let len := eraseLen mode addr
    -- `size` is the length of this step in the next one
    (mode, addr) :: eraseSteps (addr + len) len (leftSize - len)
termination_by leftSize
decreasing_by
  have := eraseLen_pos (eraseMode size leftSize) addr
  omega

def InBlock (b : EraseMode × Nat) (x : Nat) : Prop := x / b.1.size = b.2 / b.1.size

variable {mode : EraseMode} {addr x : Nat}

theorem inBlock_step (h₁ : addr ≤ x) (h₂ : x < addr + eraseLen mode addr) : InBlock (mode, addr) x := by
  rw [eraseLen_eq] at h₂
  unfold InBlock
  cases mode <;> simp only [EraseMode.size] at h₂ ⊢ <;> omega

theorem eraseSteps_zero (addr size : Nat) : eraseSteps addr size 0 = [] := by rw [eraseSteps, if_pos rfl]

variable {size leftSize : Nat} {b : EraseMode × Nat}

theorem mem_eraseSteps (h : b ∈ eraseSteps addr size leftSize) : 0 < leftSize ∧ (b = (eraseMode size leftSize, addr) ∨
      eraseLen (eraseMode size leftSize) addr < leftSize ∧
        b ∈ eraseSteps (addr + eraseLen (eraseMode size leftSize) addr) (eraseLen (eraseMode size leftSize) addr)
          (leftSize - eraseLen (eraseMode size leftSize) addr)) := by
  rw [eraseSteps] at h
  by_cases hleft : leftSize = 0
  · rw [if_pos hleft] at h
    cases h
  rw [if_neg hleft] at h
  refine ⟨Nat.pos_of_ne_zero hleft, ?_⟩
  rcases List.mem_cons.1 h with rfl | hb
  · exact .inl rfl
  · refine .inr ⟨Nat.lt_of_not_le fun hle => ?_, hb⟩
    rw [Nat.sub_eq_zero_of_le hle, eraseSteps_zero] at hb
    cases hb

theorem eraseSteps_lt (h : b ∈ eraseSteps addr size leftSize) : b.2 < addr + leftSize := by
  induction addr, size, leftSize using eraseSteps.induct with
  | case1 addr size => rw [eraseSteps_zero] at h; cases h
  | case2 addr size leftSize hleft mode len ih =>
    obtain ⟨hpos, rfl | ⟨hlen, hb⟩⟩ := mem_eraseSteps h
    · exact Nat.lt_add_of_pos_right hpos
    · have hlen : len < leftSize := hlen
      have := ih hb
      omega

theorem eraseSteps_covers (h₁ : addr ≤ x) (h₂ : x < addr + leftSize) :
    ∃ b ∈ eraseSteps addr size leftSize, InBlock b x := by
  induction addr, size, leftSize using eraseSteps.induct with
  | case1 addr size => omega
  | case2 addr size leftSize hleft mode len ih =>
    rw [eraseSteps, if_neg hleft]
    by_cases hx : x < addr + len
    · exact ⟨(mode, addr), List.mem_cons_self, inBlock_step h₁ hx⟩
    · obtain ⟨b, hb, hin⟩ := ih (by omega) (by omega)
      exact ⟨b, List.mem_cons_of_mem _ hb, hin⟩

/-! ## Blocks that stay in the sectors of the range -/

def InSectors (addr last x : Nat) : Prop := addr / 0x1000 ≤ x / 0x1000 ∧ x / 0x1000 ≤ (last - 1) / 0x1000

def blockSize (size : Nat) : Nat := if size ≤ 0x8000 then 0x8000 else 0x10000

/-- The range begins in the first sector of a block and ends in the first or the last one, where the blocks are those
the size of the range asks for; or no block is used. -/
def Snug (addr size : Nat) : Prop :=
  size ≤ 0x1000 ∨ addr % blockSize size < 0x1000 ∧
    ((addr + size) % blockSize size ≤ 0x1000 ∨ blockSize size - 0x1000 < (addr + size) % blockSize size)

instance (addr size : Nat) : Decidable (Snug addr size) := inferInstanceAs (Decidable (_ ∨ _))

theorem eraseSteps_sectors (hleft : leftSize ≤ 0x1000)
    (hb : b ∈ eraseSteps addr size leftSize) (hx : InBlock b x) : InSectors addr (addr + leftSize) x := by
  induction addr, size, leftSize using eraseSteps.induct with
  | case1 addr size => rw [eraseSteps_zero] at hb; cases hb
  | case2 addr size leftSize hne mode len ih =>
    have hmode : mode = .sector := if_pos hleft
    have hlen : len = 0x1000 - addr % 0x1000 := by
      show eraseLen mode addr = _
      rw [hmode, eraseLen_eq]
      rfl
    obtain ⟨hpos, rfl | ⟨hlt, hb⟩⟩ := mem_eraseSteps hb
    · have hx : x / mode.size = addr / mode.size := hx
      rw [hmode] at hx
      unfold InSectors
      simp only [EraseMode.size] at hx
      omega
    · have hlt : len < leftSize := hlt
      have hin := ih (by omega) hb
      unfold InSectors at hin ⊢
      omega

/-- A step has been longer than 32 KB if its block has 64 KB, so the next block is as large. -/
theorem next_mode (hmode : mode ≠ .sector) (haddr : addr % mode.size < 0x1000) :
    (if mode.size - addr % mode.size ≤ 0x8000 then EraseMode.block32k else .block64k) = mode := by
  cases mode with
  | sector => exact absurd rfl hmode
  | block32k => exact if_pos (Nat.sub_le _ _)
  | block64k => exact if_neg (by simp only [EraseMode.size] at *; omega)

theorem eraseSteps_blocks (hmode : mode ≠ .sector)
    (hsize : (if size ≤ 0x8000 then EraseMode.block32k else .block64k) = mode) (haddr : addr % mode.size < 0x1000)
    (hend : (addr + leftSize) % mode.size ≤ 0x1000 ∨ mode.size - 0x1000 < (addr + leftSize) % mode.size)
    (hb : b ∈ eraseSteps addr size leftSize) (hx : InBlock b x) : InSectors addr (addr + leftSize) x := by
  induction addr, size, leftSize using eraseSteps.induct with
  | case1 addr size => rw [eraseSteps_zero] at hb; cases hb
  | case2 addr size leftSize hne mode' len ih =>
    by_cases hleft : leftSize ≤ 0x1000
    · exact eraseSteps_sectors hleft hb hx
    have hmode' : mode' = mode := (if_neg hleft).trans hsize
    have hlen : len = mode.size - addr % mode.size := by
      show eraseLen mode' addr = _
      rw [hmode', eraseLen_eq]
    have hnext : (if len ≤ 0x8000 then EraseMode.block32k else .block64k) = mode := hlen ▸ next_mode hmode haddr
    obtain ⟨hpos, rfl | ⟨hlt, hb⟩⟩ := mem_eraseSteps hb
    · have hx : x / mode'.size = addr / mode'.size := hx
      rw [hmode'] at hx
      unfold InSectors
      cases mode <;> simp only [EraseMode.size] at * <;> omega
    · have hlt : len < leftSize := hlt
      have hsum : addr + len + (leftSize - len) = addr + leftSize := by omega
      have hstart : (addr + len) % mode.size < 0x1000 := by
        rw [hlen]
        cases mode <;> simp only [EraseMode.size] <;> omega
      have hin := ih hnext hstart (by rw [hsum]; exact hend) hb
      rw [hsum] at hin
      unfold InSectors at hin ⊢
      omega

theorem eraseSteps_snug (h : Snug addr size)
    (hb : b ∈ eraseSteps addr size size) (hx : InBlock b x) : InSectors addr (addr + size) x := by
  rcases h with hsmall | ⟨haddr, hend⟩
  · exact eraseSteps_sectors hsmall hb hx
  · by_cases hsize : size ≤ 0x8000
    · rw [blockSize, if_pos hsize] at haddr hend
      exact eraseSteps_blocks (show EraseMode.block32k ≠ .sector from EraseMode.noConfusion)
        (if_pos hsize) haddr hend hb hx
    · rw [blockSize, if_neg hsize] at haddr hend
      exact eraseSteps_blocks (show EraseMode.block64k ≠ .sector from EraseMode.noConfusion)
        (if_neg hsize) haddr hend hb hx

theorem eraseSteps_spill (hmode : mode ≠ .sector)
    (hsize : (if size ≤ 0x8000 then EraseMode.block32k else .block64k) = mode) (haddr : addr % mode.size < 0x1000)
    (hend : 0x1000 < (addr + leftSize) % mode.size) (hleft : 0x1000 < leftSize)
    (hx : x / mode.size = (addr + leftSize) / mode.size) : ∃ b ∈ eraseSteps addr size leftSize, InBlock b x := by
  induction addr, size, leftSize using eraseSteps.induct with
  | case1 addr size => omega
  | case2 addr size leftSize hne mode' len ih =>
    have hmode' : mode' = mode := (if_neg (Nat.not_le.2 hleft)).trans hsize
    have hlen : len = mode.size - addr % mode.size := by
      show eraseLen mode' addr = _
      rw [hmode', eraseLen_eq]
    have hnext : (if len ≤ 0x8000 then EraseMode.block32k else .block64k) = mode := hlen ▸ next_mode hmode haddr
    rw [eraseSteps, if_neg hne]
    by_cases hlast : leftSize ≤ len
    · refine ⟨(mode', addr), List.mem_cons_self, ?_⟩
      show x / mode'.size = addr / mode'.size
      rw [hmode', hx]
      cases mode <;> simp only [EraseMode.size] at * <;> omega
    · have hsum : addr + len + (leftSize - len) = addr + leftSize := by omega
      have hstart : (addr + len) % mode.size = 0 := by
        rw [hlen]
        cases mode <;> simp only [EraseMode.size] <;> omega
      obtain ⟨b, hb, hin⟩ := ih hnext (by rw [hstart]; decide) (by rw [hsum]; exact hend)
        (by cases mode <;> simp only [EraseMode.size] at * <;> omega) (by rw [hsum]; exact hx)
      exact ⟨b, List.mem_cons_of_mem _ hb, hin⟩

/-- The first byte of the first block, or the last one of the last block -/
theorem exists_spill (h : ¬Snug addr size) :
    ∃ x, ¬InSectors addr (addr + size) x ∧ ∃ b ∈ eraseSteps addr size size, InBlock b x := by
  obtain ⟨mode, hmode, hsize, hblock⟩ : ∃ mode : EraseMode, mode ≠ .sector ∧
      (if size ≤ 0x8000 then EraseMode.block32k else .block64k) = mode ∧ blockSize size = mode.size := by
    by_cases hs : size ≤ 0x8000
    · exact ⟨.block32k, EraseMode.noConfusion, if_pos hs, if_pos hs⟩
    · exact ⟨.block64k, EraseMode.noConfusion, if_neg hs, if_neg hs⟩
  unfold Snug at h
  rw [hblock] at h
  have hbig : 0x1000 < size := by omega
  by_cases haddr : addr % mode.size < 0x1000
  · refine ⟨(addr + size) / mode.size * mode.size + (mode.size - 1), ?_, ?_⟩
    · unfold InSectors
      cases mode <;> simp only [EraseMode.size] at * <;> omega
    · refine eraseSteps_spill hmode hsize haddr (by omega) hbig ?_
      cases mode <;> simp only [EraseMode.size] <;> omega
  · refine ⟨addr / mode.size * mode.size, ?_, (mode, addr), ?_, ?_⟩
    · unfold InSectors
      cases mode <;> simp only [EraseMode.size] at * <;> omega
    · have hfirst : eraseMode size size = mode := (if_neg (Nat.not_le.2 hbig)).trans hsize
      rw [eraseSteps, if_neg (by omega), hfirst]
      exact List.mem_cons_self
    · unfold InBlock
      cases mode <;> simp only [EraseMode.size] <;> omega

def eraseBlocks (addr size : Nat) : List (Nat × Nat) :=
  (eraseSteps addr size size).map fun b => (b.1.size, b.2 % 0x1000000)

theorem eraseAll_blocks (hend : addr + size ≤ 0x1000000) (m : Bytes.Mem) (x : Nat) :
    ((∃ b ∈ eraseSteps addr size size, InBlock b x) → Nor.eraseAll (eraseBlocks addr size) m x = 0xFF) ∧
      ((¬∃ b ∈ eraseSteps addr size size, InBlock b x) → Nor.eraseAll (eraseBlocks addr size) m x = m x) := by
  have hmem : (∃ b ∈ eraseBlocks addr size, x / b.1 = b.2 / b.1) ↔ ∃ b ∈ eraseSteps addr size size, InBlock b x := by
    have hmod {b : EraseMode × Nat} (hb : b ∈ eraseSteps addr size size) : b.2 % 0x1000000 = b.2 :=
      Nat.mod_eq_of_lt (Nat.lt_of_lt_of_le (eraseSteps_lt hb) hend)
    constructor
    · rintro ⟨_, hmap, hx⟩
      obtain ⟨b, hb, rfl⟩ := List.mem_map.1 hmap
      rw [hmod hb] at hx
      exact ⟨b, hb, hx⟩
    · rintro ⟨b, hb, hx⟩
      refine ⟨_, List.mem_map_of_mem hb, ?_⟩
      rw [hmod hb]
      exact hx
  rw [Nor.eraseAll_apply, ← hmem]
  exact ⟨fun h => if_pos h, fun h => if_neg h⟩

theorem foldl_eraseSteps {σ : Type} (mem : σ → Bytes.Mem) {f : σ → EraseMode × Nat → σ}
    (h : ∀ s b, mem (f s b) = Nor.erase b.1.size (b.2 % 0x1000000) (mem s)) (addr size : Nat) (s : σ) :
    mem ((eraseSteps addr size size).foldl f s) = Nor.eraseAll (eraseBlocks addr size) (mem s) := by
  unfold eraseBlocks
  generalize eraseSteps addr size size = l
  induction l generalizing s with
  | nil => rfl
  | cons b l ih =>
    rw [List.foldl_cons, ih, h]
    rfl

end Bk7258

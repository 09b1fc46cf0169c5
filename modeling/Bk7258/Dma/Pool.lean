import Bk7258.Lib.Lts
import Bk7258.Lib.Bits

/-!
# The channel pool of the general DMA driver

Each core owns a range of the 16 channels and keeps twice which of them are taken: as bits of `chnl_bitmap` and as user
ids in `chnl_user`, with -1 for a free one. `bk_dma_driver_init` writes -1 for the core's own channels only: the others
stay at 0, which is a user id.
-/

namespace Bk7258
open Function

open Lts

abbrev dmaIdMax : Nat := 16

structure DmaCfg where
  logicChanIdMin : Nat
  logicChanCnt : Nat
  fits : logicChanIdMin + logicChanCnt ≤ 16

def DmaCfg.InPool (cfg : DmaCfg) (chnl : Nat) : Prop :=
  cfg.logicChanIdMin ≤ chnl ∧ chnl < cfg.logicChanIdMin + cfg.logicChanCnt

instance (cfg : DmaCfg) (chnl : Nat) : Decidable (cfg.InPool chnl) := inferInstanceAs (Decidable (_ ∧ _))

def DmaCfg.ap : DmaCfg := ⟨0, 12, by decide⟩

inductive DmaErr
  | ok
  | dmaId
  | notInit
  | param
deriving DecidableEq

structure DmaChnlPool where
  chnlBitmap : BitVec 32
  chnlUser : Nat → BitVec 32

structure DmaDriver where
  isInit : Bool
  pool : DmaChnlPool

namespace DmaChnlPool

def take (p : DmaChnlPool) (user : BitVec 32) (chnl : Nat) : DmaChnlPool :=
  { chnlBitmap := p.chnlBitmap ||| 1#32 <<< chnl, chnlUser := update p.chnlUser chnl user }

def isFree (p : DmaChnlPool) (chnl : Nat) : Bool := p.chnlBitmap &&& 1#32 <<< chnl == 0

end DmaChnlPool

def dmaChnlAlloc (cfg : DmaCfg) (p : DmaChnlPool) (user : BitVec 32) : Nat × DmaChnlPool :=
  match (List.range' cfg.logicChanIdMin cfg.logicChanCnt).find? p.isFree with
  | some chnl => (chnl, p.take user chnl)
  | none => (dmaIdMax, p)

def dmaFixedChnlAlloc (cfg : DmaCfg) (p : DmaChnlPool) (user : BitVec 32) (chnl : Nat) : Nat × DmaChnlPool :=
  if cfg.InPool chnl ∧ p.isFree chnl = true then (chnl, p.take user chnl) else (dmaIdMax, p)

def dmaChnlFree (p : DmaChnlPool) (user : BitVec 32) (chnl : Nat) : DmaErr × DmaChnlPool :=
  if chnl ≥ dmaIdMax then (.dmaId, p)
  -- neither the bitmap nor the pool's bounds are asked
  else if p.chnlUser chnl ≠ user then (.param, p)
  else (.ok, { chnlBitmap := p.chnlBitmap &&& ~~~(1#32 <<< chnl), chnlUser := update p.chnlUser chnl (-1) })

def dmaChnlUser (p : DmaChnlPool) (chnl : Nat) : BitVec 32 := if chnl ≥ dmaIdMax then -1 else p.chnlUser chnl

def bkDmaDriverInit (cfg : DmaCfg) (d : DmaDriver) : DmaDriver :=
  if d.isInit then d
  else
    { isInit := true
      pool := { chnlBitmap := 0, chnlUser := fun i => if cfg.InPool i then -1 else d.pool.chnlUser i } }

def bkDmaDriverDeinit (d : DmaDriver) : DmaDriver := { d with isInit := false }

-- the user ids of the API are 16 bits wide, those of the pool 32
def bkDmaAlloc (cfg : DmaCfg) (d : DmaDriver) (user : BitVec 16) : Nat × DmaDriver :=
  if d.isInit then
    let ret := dmaChnlAlloc cfg d.pool (user.setWidth 32)
    (ret.1, { d with pool := ret.2 })
  else (dmaIdMax, d)

def bkFixedDmaAlloc (cfg : DmaCfg) (d : DmaDriver) (user : BitVec 16) (chnl : Nat) : Nat × DmaDriver :=
  if d.isInit then
    let ret := dmaFixedChnlAlloc cfg d.pool (user.setWidth 32) chnl
    (ret.1, { d with pool := ret.2 })
  else (dmaIdMax, d)

def bkDmaFree (d : DmaDriver) (user : BitVec 16) (chnl : Nat) : DmaErr × DmaDriver :=
  if d.isInit then
    let ret := dmaChnlFree d.pool (user.setWidth 32) chnl
    (ret.1, { d with pool := ret.2 })
  else (.notInit, d)

def bkDmaUser (d : DmaDriver) (chnl : Nat) : BitVec 32 := if d.isInit then dmaChnlUser d.pool chnl else -1

/-! ### Runs, with the owners that the results of the calls make -/

inductive DmaCall
  | init
  | deinit
  | alloc (user : BitVec 16)
  | fixedAlloc (user : BitVec 16) (chnl : Nat)
  | free (user : BitVec 16) (chnl : Nat)

structure DmaSys where
  drv : DmaDriver
  owner : Nat → Option (BitVec 16)

namespace DmaSys

def powerUp : DmaSys where
  drv := { isInit := false, pool := { chnlBitmap := 0, chnlUser := fun _ => 0 } }
  owner := fun _ => none

def given (owner : Nat → Option (BitVec 16)) (user : BitVec 16) (ret : Nat) : Nat → Option (BitVec 16) :=
  if ret = dmaIdMax then owner else update owner ret (some user)

def step (cfg : DmaCfg) (s : DmaSys) : DmaCall → Option DmaSys
  -- an initialisation starts the pool afresh, a second one does nothing
  | .init => some { drv := bkDmaDriverInit cfg s.drv, owner := if s.drv.isInit then s.owner else fun _ => none }
  | .deinit => some { s with drv := bkDmaDriverDeinit s.drv }
  | .alloc user =>
    some { drv := (bkDmaAlloc cfg s.drv user).2, owner := given s.owner user (bkDmaAlloc cfg s.drv user).1 }
  | .fixedAlloc user chnl =>
    some {
      drv := (bkFixedDmaAlloc cfg s.drv user chnl).2
      owner := given s.owner user (bkFixedDmaAlloc cfg s.drv user chnl).1 }
  | .free user chnl =>
    some { drv := (bkDmaFree s.drv user chnl).2
           owner := if (bkDmaFree s.drv user chnl).1 = .ok then update s.owner chnl none else s.owner }

end DmaSys

/-! ### The bitmap, the users and the owners agree -/

def ownerId : Option (BitVec 16) → BitVec 32
  | some user => user.setWidth 32
  | none => -1

structure PoolInv (cfg : DmaCfg) (p : DmaChnlPool) (owner : Nat → Option (BitVec 16)) : Prop where
  bit : ∀ chnl, cfg.InPool chnl → p.chnlBitmap.getLsbD chnl = (owner chnl).isSome
  user : ∀ chnl, cfg.InPool chnl → p.chnlUser chnl = ownerId (owner chnl)
  outside : ∀ chnl, ¬cfg.InPool chnl → owner chnl = none ∧ (p.chnlUser chnl = 0 ∨ p.chnlUser chnl = -1)

section
variable {cfg : DmaCfg} {p : DmaChnlPool} {owner : Nat → Option (BitVec 16)} {user : BitVec 16} {chnl : Nat}

theorem DmaCfg.InPool.lt (h : cfg.InPool chnl) : chnl < dmaIdMax := Nat.lt_of_lt_of_le h.2 cfg.fits

theorem setWidth_ne_neg_one (user : BitVec 16) : user.setWidth 32 ≠ (-1 : BitVec 32) := by
  intro h
  have htoNat := congrArg BitVec.toNat h
  have hlt := user.isLt
  rw [BitVec.toNat_setWidth, Nat.mod_eq_of_lt (by omega)] at htoNat
  have hneg : (-1 : BitVec 32).toNat = 4294967295 := by decide
  omega

theorem setWidth_inj {user user' : BitVec 16} : user.setWidth 32 = user'.setWidth 32 ↔ user = user' := by
  constructor
  · intro h
    have htoNat := congrArg BitVec.toNat h
    have hlt := user.isLt
    have hlt' := user'.isLt
    rw [BitVec.toNat_setWidth, BitVec.toNat_setWidth, Nat.mod_eq_of_lt (by omega),
      Nat.mod_eq_of_lt (by omega)] at htoNat
    exact BitVec.eq_of_toNat_eq htoNat
  · rintro rfl
    rfl

theorem ownerId_eq_setWidth {o : Option (BitVec 16)} : ownerId o = user.setWidth 32 ↔ o = some user := by
  rcases o with _ | user'
  · constructor
    · intro h
      exact absurd h.symm (setWidth_ne_neg_one user)
    · intro h
      cases h
  · rw [Option.some.injEq]
    exact setWidth_inj

theorem dmaChnlFree_cases (p : DmaChnlPool) (user : BitVec 32) (chnl : Nat) :
    ((dmaChnlFree p user chnl).2 = p ∧ (dmaChnlFree p user chnl).1 ≠ .ok) ∨
    (chnl < dmaIdMax ∧ p.chnlUser chnl = user) ∧ dmaChnlFree p user chnl = (.ok,
      { chnlBitmap := p.chnlBitmap &&& ~~~(1#32 <<< chnl), chnlUser := update p.chnlUser chnl (-1) }) := by
  unfold dmaChnlFree
  by_cases hmax : chnl ≥ dmaIdMax
  · rw [if_pos hmax]
    exact .inl ⟨rfl, by simp⟩
  · rw [if_neg hmax]
    by_cases hu : p.chnlUser chnl ≠ user
    · rw [if_pos hu]
      exact .inl ⟨rfl, by simp⟩
    · rw [if_neg hu]
      exact .inr ⟨⟨Nat.not_le.1 hmax, not_not.1 hu⟩, rfl⟩

theorem isFree_iff (hlt : chnl < dmaIdMax) : p.isFree chnl ↔ p.chnlBitmap.getLsbD chnl = false := by
  have hand := Bits.and_one_shiftLeft (x := p.chnlBitmap) (show chnl < 32 from Nat.lt_trans hlt (by decide))
  unfold DmaChnlPool.isFree
  rw [beq_iff_eq, ← Bool.not_eq_true, ← hand, ne_eq, not_not]

namespace PoolInv

variable (h : PoolInv cfg p owner)
include h

theorem free_iff (hin : cfg.InPool chnl) : p.isFree chnl ↔ owner chnl = none := by
  rw [isFree_iff hin.lt, h.bit chnl hin, Option.isSome_eq_false_iff, Option.isNone_iff_eq_none]

theorem take (hin : cfg.InPool chnl) : PoolInv cfg (p.take (user.setWidth 32) chnl)
    (update owner chnl (some user)) where
  bit c hc := by
    refine (Bits.getLsbD_set (Nat.lt_trans hc.lt (by decide))).trans ?_
    by_cases hcc : c = chnl
    · simp [hcc]
    · rw [update_of_ne hcc, h.bit c hc]
      simp [hcc]
  user c hc := by
    by_cases hcc : c = chnl
    · subst hcc
      simp [DmaChnlPool.take, ownerId]
    · simp [DmaChnlPool.take, hcc, h.user c hc]
  outside c hc := by
    have hcc : c ≠ chnl := fun he => hc (he ▸ hin)
    rw [update_of_ne hcc]
    simpa [DmaChnlPool.take, hcc] using h.outside c hc

theorem release : PoolInv cfg
    { chnlBitmap := p.chnlBitmap &&& ~~~(1#32 <<< chnl), chnlUser := update p.chnlUser chnl (-1) }
    (update owner chnl none) where
  bit c hc := by
    refine (Bits.getLsbD_clear (Nat.lt_trans hc.lt (by decide))).trans ?_
    by_cases hcc : c = chnl
    · simp [hcc]
    · rw [update_of_ne hcc, h.bit c hc]
      simp [hcc]
  user c hc := by
    by_cases hcc : c = chnl
    · simp [hcc, ownerId]
    · simp [hcc, h.user c hc]
  outside c hc := by
    obtain ⟨howner, huser⟩ := h.outside c hc
    by_cases hcc : c = chnl
    · simp [hcc]
    · simpa [hcc, howner] using huser

theorem alloc_cases (user : BitVec 16) : (∃ chnl, cfg.InPool chnl ∧ owner chnl = none ∧
      dmaChnlAlloc cfg p (user.setWidth 32) = (chnl, p.take (user.setWidth 32) chnl)) ∨
    dmaChnlAlloc cfg p (user.setWidth 32) = (dmaIdMax, p) := by
  unfold dmaChnlAlloc
  cases hf : (List.range' cfg.logicChanIdMin cfg.logicChanCnt).find? p.isFree with
  | none => exact .inr rfl
  | some chnl =>
    have hin : cfg.InPool chnl := List.mem_range'_1.1 (List.mem_of_find?_eq_some hf)
    have hfree : p.isFree chnl := List.find?_some hf
    exact .inl ⟨chnl, hin, (h.free_iff hin).1 hfree, rfl⟩

theorem fixedAlloc_cases (user : BitVec 16) (chnl : Nat) : (cfg.InPool chnl ∧ owner chnl = none ∧
      dmaFixedChnlAlloc cfg p (user.setWidth 32) chnl = (chnl, p.take (user.setWidth 32) chnl)) ∨
    dmaFixedChnlAlloc cfg p (user.setWidth 32) chnl = (dmaIdMax, p) := by
  unfold dmaFixedChnlAlloc
  by_cases hc : cfg.InPool chnl ∧ p.isFree chnl
  · rw [if_pos hc]
    exact .inl ⟨hc.1, (h.free_iff hc.1).1 hc.2, rfl⟩
  · rw [if_neg hc]
    exact .inr rfl

theorem user_eq_iff (hcond : cfg.InPool chnl ∨ user ≠ 0) :
    p.chnlUser chnl = user.setWidth 32 ↔ owner chnl = some user := by
  by_cases hin : cfg.InPool chnl
  · rw [h.user chnl hin, ownerId_eq_setWidth]
  · have hne : user ≠ 0 := hcond.resolve_left hin
    obtain ⟨howner, huser⟩ := h.outside chnl hin
    rw [howner]
    refine iff_of_false ?_ (by simp)
    rcases huser with huser | huser
    · rw [huser, ← show (0 : BitVec 16).setWidth 32 = 0 from rfl, setWidth_inj]
      exact fun he => hne he.symm
    · rw [huser]
      exact fun he => setWidth_ne_neg_one user he.symm

theorem free_ok_iff (hcond : cfg.InPool chnl ∨ dmaIdMax ≤ chnl ∨ user ≠ 0) :
    (dmaChnlFree p (user.setWidth 32) chnl).1 = .ok ↔ owner chnl = some user := by
  by_cases hmax : dmaIdMax ≤ chnl
  · have hout : ¬cfg.InPool chnl := fun hin => absurd hin.lt (Nat.not_lt.2 hmax)
    rw [(h.outside chnl hout).1, dmaChnlFree, if_pos hmax]
    simp
  · have hentry : p.chnlUser chnl = user.setWidth 32 ↔ owner chnl = some user :=
      h.user_eq_iff (hcond.imp_right fun hc => hc.resolve_left hmax)
    rw [← hentry, dmaChnlFree, if_neg hmax]
    by_cases he : p.chnlUser chnl = user.setWidth 32
    · rw [if_neg (not_not_intro he)]
      exact iff_of_true rfl he
    · rw [if_pos he]
      exact iff_of_false (by simp) he

end PoolInv
end

namespace DmaSys

variable {cfg : DmaCfg} {s t : DmaSys}

/-- The entries of the other cores' channels hold 0 or the sentinel also while the driver is not initialised. -/
structure Inv (cfg : DmaCfg) (s : DmaSys) : Prop where
  agree : s.drv.isInit = true → PoolInv cfg s.drv.pool s.owner
  outside : ∀ chnl, ¬cfg.InPool chnl → s.drv.pool.chnlUser chnl = 0 ∨ s.drv.pool.chnlUser chnl = -1

theorem inv_powerUp (cfg : DmaCfg) : Inv cfg powerUp := ⟨fun h => absurd h Bool.false_ne_true, fun _ _ => .inl rfl⟩

theorem Inv.of_agree (h : PoolInv cfg s.drv.pool s.owner) : Inv cfg s := ⟨fun _ => h, fun c hc => (h.outside c hc).2⟩

theorem inv_init (h : Inv cfg s) :
    Inv cfg { drv := bkDmaDriverInit cfg s.drv, owner := if s.drv.isInit then s.owner else fun _ => none } := by
  unfold bkDmaDriverInit
  by_cases hi : s.drv.isInit
  · simp only [if_pos hi]
    exact h
  · simp only [if_neg hi]
    -- only the entries of the pool are set to the sentinel
    refine .of_agree ⟨fun c _ => by simp, fun c hc => ?_, fun c hc => ⟨rfl, ?_⟩⟩
    · exact if_pos hc
    · simp only [if_neg hc]
      exact h.outside c hc

theorem inv_given {user : BitVec 16} {chnl : Nat} (h : Inv cfg s) (hi : s.drv.isInit) (hin : cfg.InPool chnl) :
    Inv cfg {
      drv := { s.drv with pool := s.drv.pool.take (user.setWidth 32) chnl }
      owner := given s.owner user chnl } := by
  refine .of_agree ?_
  unfold given
  rw [if_neg (Nat.ne_of_lt hin.lt)]
  exact (h.agree hi).take hin

theorem inv_step {c : DmaCall} (h : Inv cfg s) (hs : step cfg s c = some t) : Inv cfg t := by
  cases c with
  | init =>
    cases hs
    exact inv_init h
  | deinit =>
    cases hs
    exact ⟨fun hi => absurd hi Bool.false_ne_true, h.outside⟩
  | alloc user =>
    rw [step, Option.some.injEq] at hs
    subst hs
    unfold bkDmaAlloc
    by_cases hi : s.drv.isInit
    · simp only [if_pos hi]
      rcases (h.agree hi).alloc_cases user with ⟨chnl, hin, -, he⟩ | he <;> simp only [he]
      · exact inv_given h hi hin
      · exact h
    · simp only [if_neg hi]
      exact h
  | fixedAlloc user chnl =>
    rw [step, Option.some.injEq] at hs
    subst hs
    unfold bkFixedDmaAlloc
    by_cases hi : s.drv.isInit
    · simp only [if_pos hi]
      rcases (h.agree hi).fixedAlloc_cases user chnl with ⟨hin, -, he⟩ | he <;> simp only [he]
      · exact inv_given h hi hin
      · exact h
    · simp only [if_neg hi]
      exact h
  | free user chnl =>
    rw [step, Option.some.injEq] at hs
    subst hs
    unfold bkDmaFree
    by_cases hi : s.drv.isInit
    · simp only [if_pos hi]
      rcases dmaChnlFree_cases s.drv.pool (user.setWidth 32) chnl with ⟨he, hne⟩ | ⟨-, he⟩
      · simp only [he, if_neg hne]
        exact h
      · simp only [he, if_true]
        exact .of_agree (h.agree hi).release
    · simp only [if_neg hi]
      exact h

theorem run_inv (h : Run (step cfg) (fun _ _ => True) powerUp s) : Inv cfg s :=
  h.invariant (inv_powerUp cfg) fun _ _ _ _ hI _ hs => inv_step hI hs

end DmaSys

/-- In every run from power-up: a channel is handed out only while it has no owner, and a free succeeds exactly for its
owner. -/
theorem dma_pool_owners (cfg : DmaCfg) {s : DmaSys} (hrun : Run (DmaSys.step cfg) (fun _ _ => True) DmaSys.powerUp s)
    (hinit : s.drv.isInit = true) :
    (∀ user, (bkDmaAlloc cfg s.drv user).1 ≠ dmaIdMax → s.owner (bkDmaAlloc cfg s.drv user).1 = none) ∧
    (∀ user chnl, (bkFixedDmaAlloc cfg s.drv user chnl).1 ≠ dmaIdMax →
      (bkFixedDmaAlloc cfg s.drv user chnl).1 = chnl ∧ s.owner chnl = none) ∧
    (∀ user chnl, s.owner chnl = some user → bkDmaUser s.drv chnl = user.setWidth 32) ∧
    ∀ user chnl, cfg.InPool chnl ∨ dmaIdMax ≤ chnl ∨ user ≠ 0 →
      ((bkDmaFree s.drv user chnl).1 = .ok ↔ s.owner chnl = some user) := by
  have h := (DmaSys.run_inv hrun).agree hinit
  refine ⟨?_, ?_, ?_, ?_⟩
  · intro user hret
    simp only [bkDmaAlloc, if_pos hinit] at hret ⊢
    rcases h.alloc_cases user with ⟨chnl, -, hnone, he⟩ | he <;> rw [he] at hret ⊢
    · exact hnone
    · exact absurd rfl hret
  · intro user chnl hret
    simp only [bkFixedDmaAlloc, if_pos hinit] at hret ⊢
    rcases h.fixedAlloc_cases user chnl with ⟨-, hnone, he⟩ | he <;> rw [he] at hret ⊢
    · exact ⟨rfl, hnone⟩
    · exact absurd rfl hret
  · intro user chnl howner
    have hin : cfg.InPool chnl := by
      by_contra hout
      rw [(h.outside chnl hout).1] at howner
      cases howner
    unfold bkDmaUser dmaChnlUser
    rw [if_pos hinit, if_neg (Nat.not_le.2 hin.lt), h.user chnl hin, howner]
    rfl
  · intro user chnl hcond
    simp only [bkDmaFree, if_pos hinit]
    exact h.free_ok_iff hcond

-- the only channel of user 7 is channel 0, and user 8 may not free it
theorem dma_pool_owners_run : ∃ s, Run (DmaSys.step .ap) (fun _ _ => True) DmaSys.powerUp s ∧ s.drv.isInit = true ∧
    s.owner 0 = some 7 ∧ (bkDmaFree s.drv 8 0).1 ≠ .ok ∧ (bkDmaFree s.drv 7 0).1 = .ok := by
  refine Run.of_exec_imp (p := fun s => s.drv.isInit ∧ s.owner 0 = some 7) [.init, .alloc 7] (by decide) ?_
  rintro s hrun ⟨hinit, howner⟩
  have hfree := (dma_pool_owners .ap hrun hinit).2.2.2
  refine ⟨hinit, howner, ?_, ?_⟩
  · rw [Ne, hfree 8 0 (.inl (by decide)), howner]
    decide
  · exact (hfree 7 0 (.inl (by decide))).2 howner

/-- Nobody has allocated channel 12 of the other core; user 0 (`DMA_DEV_DTCM`) frees it all the same. -/
theorem dma_free_unallocated : ∃ s, Run (DmaSys.step .ap) (fun _ _ => True) DmaSys.powerUp s ∧ s.drv.isInit = true ∧
    s.owner 12 = none ∧ (bkDmaFree s.drv 0 12).1 = .ok :=
  Run.of_exec [.init] (by decide)

end Bk7258

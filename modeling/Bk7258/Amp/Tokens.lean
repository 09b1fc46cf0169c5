import Bk7258.Amp.ResLock
import Mathlib.Algebra.Order.Ring.Nat

/-!
# The token of the AMP lock

The right to the resource is one token: made by the first request, it is in a semaphore, in an indication, on its way to
one of them, or with the task that holds the resource, and is gone when the last request is.
-/

namespace Bk7258
open Lts Tally Function

/-! ### The counts an answer carries -/

def AmpResReqCnt.Free (cnt : AmpResReqCnt) : Prop := cnt.selfReqCnt = 0 ∧ cnt.othersReqCnt = 0

instance (cnt : AmpResReqCnt) : Decidable cnt.Free := inferInstanceAs (Decidable (_ ∧ _))

variable {f : Nat → BitVec 16}

theorem allCnt_eq {n : Nat} (hn : 2 ≤ n) (hf : ∀ i, 2 ≤ i → f i = 0) : allCnt n f = f 0 + f 1 := by
  induction n, hn using Nat.le_induction with
  | base => simp [allCnt, List.range_succ]
  | succ n hn ih =>
    rw [allCnt, List.range_succ, List.foldl_append]
    show allCnt n f + f n = _
    rw [ih, hf n hn]
    exact BitVec.add_zero _

theorem cntList_eq {n : Nat} (hn : 2 ≤ n) (hf : ∀ i, 2 ≤ i → f i = 0) (c : Bool) :
    cntList n f c.toNat = ⟨f c.toNat, f (!c).toNat⟩ := by
  rw [cntList, allCnt_eq hn hf]
  cases c
  · show AmpResReqCnt.mk (f 0) (f 0 + f 1 - f 0) = ⟨f 0, f 1⟩
    rw [BitVec.add_comm, BitVec.add_sub_cancel]
  · show AmpResReqCnt.mk (f 1) (f 0 + f 1 - f 1) = ⟨f 1, f 0⟩
    rw [BitVec.add_sub_cancel]

variable {x : BitVec 16}

theorem toNat_eq_zero_iff : x.toNat = 0 ↔ x = 0 := by
  constructor
  · intro h
    exact BitVec.eq_of_toNat_eq h
  · rintro rfl
    rfl

theorem eq_zero_of_not_pos (h : ¬ 0 < x) : x = 0 := by
  rw [BitVec.lt_def] at h
  exact toNat_eq_zero_iff.1 (Nat.eq_zero_of_not_pos h)

theorem free_cntList {n : Nat} (hn : 2 ≤ n) (hf : ∀ i, 2 ≤ i → f i = 0) (c : Bool) :
    (cntList n f c.toNat).Free ↔ (f 0).toNat + (f 1).toNat = 0 := by
  rw [cntList_eq hn hf, AmpResReqCnt.Free, ← toNat_eq_zero_iff, ← toNat_eq_zero_iff]
  cases c
  · show (f 0).toNat = 0 ∧ (f 1).toNat = 0 ↔ _
    omega
  · show (f 1).toNat = 0 ∧ (f 0).toNat = 0 ↔ _
    omega

/-! ### Counted tasks and tokens -/

def Pc.counted : Pc → Nat
  | .acqCnt _ | .wait | .expired | .backReq | .hold | .relReq => 1
  | .idle | .acqReq | .backCnt _ | .relCnt _ => 0

def Pc.holds : Pc → Nat
  | .hold | .relReq => 1
  | _ => 0

def Pc.posting : Pc → Nat
  | .acqCnt cnt => if cnt.Free then 1 else 0
  | .relCnt cnt => if cnt.Free then 0 else 1
  | _ => 0

namespace AmpLock

section
variable {τ : Type} [Fintype τ] (cfg : AmpCfg τ) (s : AmpLock τ)

def counted (c : Bool) : Nat := tally (fun t p => if cfg.cpu t = c then p.counted else 0) s.pc

def holders : Nat := tally (fun _ p => p.holds) s.pc

def posting : Nat := tally (fun _ p => p.posting) s.pc

def tokens : Nat := s.holders + s.posting + s.avail

def reqs : Nat := s.counted cfg false + s.counted cfg true

def reqTotal : Nat := ((List.range cfg.ampCpuCnt).map fun i => ((s.sync false).reqCnt i).toNat).sum

variable {cfg s} {c : Bool} {r : AmpResSync} {n : Nat}

@[simp] theorem counted_setSync (d : Bool) : counted cfg (s.setSync c r) d = counted cfg s d := rfl
@[simp] theorem reqs_setSync : reqs cfg (s.setSync c r) = reqs cfg s := rfl

variable (s c r) in
theorem tokens_setSync : (s.setSync c r).tokens + (s.sync c).resSema = s.tokens + r.resSema := by
  have h := avail_setSync s c r
  show s.holders + s.posting + (s.setSync c r).avail + _ = s.holders + s.posting + s.avail + _
  omega

@[simp] theorem tokens_setReqCnt (f : Nat → BitVec 16) : (s.setSync c ((s.sync c).setReqCnt f)).tokens = s.tokens :=
  Nat.add_right_cancel (tokens_setSync s c ((s.sync c).setReqCnt f))

variable (s c n) in
theorem tokens_setInd : (s.setInd c n).tokens + s.ind c = s.tokens + n := by
  have h := avail_setInd s c n
  show s.holders + s.posting + (s.setInd c n).avail + _ = s.holders + s.posting + s.avail + _
  omega

end

section
variable {τ : Type} [Fintype τ] [DecidableEq τ] (cfg : AmpCfg τ) (s : AmpLock τ) (t : τ) (p : Pc)

theorem counted_setPc (c : Bool) : counted cfg (s.setPc t p) c + (if cfg.cpu t = c then (s.pc t).counted else 0) =
    counted cfg s c + (if cfg.cpu t = c then p.counted else 0) :=
  tally_update _ _ _ _

theorem reqs_setPc : reqs cfg (s.setPc t p) + (s.pc t).counted = reqs cfg s + p.counted := by
  have h0 := counted_setPc cfg s t p false
  have h1 := counted_setPc cfg s t p true
  unfold reqs
  cases hc : cfg.cpu t <;> simp only [hc, ↓reduceIte, Bool.false_eq_true, Bool.true_eq_false] at h0 h1 <;> omega

theorem tokens_setPc : (s.setPc t p).tokens + ((s.pc t).holds + (s.pc t).posting) =
    s.tokens + (p.holds + p.posting) := by
  have h1 : (s.setPc t p).holders + (s.pc t).holds = s.holders + p.holds := tally_update _ _ _ _
  have h2 : (s.setPc t p).posting + (s.pc t).posting = s.posting + p.posting := tally_update _ _ _ _
  have h3 : (s.setPc t p).avail = s.avail := rfl
  unfold tokens
  omega

end
end AmpLock

/-! ### The counts are the counted tasks -/

section
variable {τ : Type} [Fintype τ] [DecidableEq τ] (cfg : AmpCfg τ) (s : AmpLock τ)

structure CntInv : Prop where
  inited : ∀ c, (s.sync c).inited = true
  rest : ∀ i, 2 ≤ i → (s.sync false).reqCnt i = 0
  cnt : ∀ c : Bool, ((s.sync false).reqCnt c.toNat).toNat = s.counted cfg c

def AmpLock.countUp (t : τ) : AmpLock τ :=
  let cpuId := (cfg.cpu t).toNat
  let r := s.sync false
  (s.setSync false (r.setReqCnt (update r.reqCnt cpuId (r.reqCnt cpuId + 1)))).setPc t
    (.acqCnt (cntList cfg.ampCpuCnt r.reqCnt cpuId))

def AmpLock.countDown (t : τ) (k : AmpResReqCnt → Pc) : AmpLock τ :=
  let cpuId := (cfg.cpu t).toNat
  let r := s.sync false
  let reqCnt := update r.reqCnt cpuId (r.reqCnt cpuId - 1)
  (s.setSync false (r.setReqCnt reqCnt)).setPc t (k (cntList cfg.ampCpuCnt reqCnt cpuId))

/-- What a step can do while the counts are right. -/
inductive AmpStep : AmpAct τ → AmpLock τ → Prop
  | request {t : τ} (hp : s.pc t = .idle) : AmpStep (.acquire t) (s.setPc t .acqReq)
  | countUp {t : τ} {a : AmpAct τ} (ha : a = .acquire t ∧ s.pc t = .idle ∧ cfg.cpu t = false ∨ a = .serve t ∧
    s.pc t = .acqReq) :
      AmpStep a (s.countUp cfg t)
  | post {t : τ} {cnt : AmpResReqCnt} (hp : s.pc t = .acqCnt cnt) :
      AmpStep (.post t) ((s.setSync (cfg.cpu t) (if cnt.Free then (s.sync (cfg.cpu t)).post else
        s.sync (cfg.cpu t))).setPc t .wait)
  | get {t : τ} (hp : s.pc t = .wait) (hs : 0 < (s.sync (cfg.cpu t)).resSema) :
      AmpStep (.get t) ((s.setSync (cfg.cpu t) (s.sync (cfg.cpu t)).take).setPc t .hold)
  | timeout {t : τ} (hp : s.pc t = .wait) : AmpStep (.timeout t) (s.setPc t .expired)
  | backReq {t : τ} (hp : s.pc t = .expired) (hc : cfg.cpu t = true) : AmpStep (.back t) (s.setPc t .backReq)
  | back {t : τ} {a : AmpAct τ} (ha : a = .back t ∧ s.pc t = .expired ∧ cfg.cpu t = false ∨ a = .serve t ∧
    s.pc t = .backReq) :
      AmpStep a (s.countDown cfg t .backCnt)
  | clear {t : τ} {cnt : AmpResReqCnt} (hp : s.pc t = .backCnt cnt) (r : AmpResSync)
      (hr : r = s.sync (cfg.cpu t) ∨ r = (s.sync (cfg.cpu t)).take) :
      AmpStep (.clear t) ((s.setSync (cfg.cpu t) r).setPc t .idle)
  | relReq {t : τ} (hp : s.pc t = .hold) : AmpStep (.release t) (s.setPc t .relReq)
  | release {t : τ} {a : AmpAct τ} (ha : a = .release t ∧ s.pc t = .hold ∨ a = .serve t ∧ s.pc t = .relReq) :
      AmpStep a (s.countDown cfg t .relCnt)
  | passSelf {t : τ} {cnt : AmpResReqCnt} (hp : s.pc t = .relCnt cnt) (hf : ¬ cnt.Free) :
      AmpStep (.pass t) ((s.setSync (cfg.cpu t) (s.sync (cfg.cpu t)).post).setPc t .idle)
  | passOther {t : τ} {cnt : AmpResReqCnt} (hp : s.pc t = .relCnt cnt) (hf : ¬ cnt.Free) :
      AmpStep (.pass t) ((s.setInd (!cfg.cpu t) (s.ind (!cfg.cpu t) + 1)).setPc t .idle)
  | done {t : τ} {cnt : AmpResReqCnt} (hp : s.pc t = .relCnt cnt) (hf : cnt.Free) :
      AmpStep (.pass t) (s.setPc t .idle)
  | available {c : Bool} (hi : 0 < s.ind c) :
      AmpStep (.available c) ((s.setInd c (s.ind c - 1)).setSync c (s.sync c).post)

variable {cfg s}

theorem CntInv.acquireCnt (h : CntInv cfg s) (t : τ) : s.acquireCnt cfg t = s.countUp cfg t := by
  rw [AmpLock.acquireCnt, ampResAcquireCnt_ok (h.inited false) (cfg.cpuId_lt t)]
  rfl

theorem CntInv.releaseCnt (h : CntInv cfg s) {t : τ} (hc : (s.pc t).counted = 1) (k : AmpResReqCnt → Pc) :
    s.releaseCnt cfg t k = s.countDown cfg t k := by
  have hle := le_tally (fun u p => if cfg.cpu u = cfg.cpu t then p.counted else 0) s.pc t
  rw [if_pos rfl, hc] at hle
  have hpos : 0 < (s.sync false).reqCnt (cfg.cpu t).toNat := by
    rw [BitVec.lt_def, h.cnt (cfg.cpu t)]
    exact hle
  rw [AmpLock.releaseCnt, ampResReleaseCnt_ok (h.inited false) (cfg.cpuId_lt t) hpos]
  rfl

variable {a : AmpAct τ} {s' : AmpLock τ}

theorem CntInv.ampStep (h : CntInv cfg s) (hs : s.step cfg a = some s') : AmpStep cfg s a s' := by
  cases a with
  | acquire t =>
    simp only [AmpLock.step, h.inited, Bool.not_true, Bool.false_eq_true, ↓reduceIte, h.acquireCnt] at hs
    split at hs
    · rename_i hp
      split at hs
      · cases hs; exact .request hp
      · rename_i hc
        cases hs; exact .countUp (.inl ⟨rfl, hp, by simpa using hc⟩)
    · cases hs
  | serve t =>
    simp only [AmpLock.step, h.acquireCnt] at hs
    split at hs
    · rename_i hp; cases hs; exact .countUp (.inr ⟨rfl, hp⟩)
    · rename_i hp
      rw [h.releaseCnt (by rw [hp]; rfl)] at hs
      cases hs; exact .back (.inr ⟨rfl, hp⟩)
    · rename_i hp
      rw [h.releaseCnt (by rw [hp]; rfl)] at hs
      cases hs; exact .release (.inr ⟨rfl, hp⟩)
    · cases hs
  | post t =>
    simp only [AmpLock.step] at hs
    split at hs
    · rename_i cnt hp; cases hs; exact .post hp
    · cases hs
  | get t =>
    simp only [AmpLock.step] at hs
    split at hs
    · rename_i hp; cases hs; exact .get hp.1 hp.2
    · cases hs
  | timeout t =>
    simp only [AmpLock.step] at hs
    split at hs
    · rename_i hp; cases hs; exact .timeout hp.1
    · cases hs
  | back t =>
    simp only [AmpLock.step] at hs
    split at hs
    · rename_i hp
      split at hs
      · rename_i hc; cases hs; exact .backReq hp hc
      · rename_i hc
        rw [h.releaseCnt (by rw [hp]; rfl)] at hs
        cases hs; exact .back (.inl ⟨rfl, hp, by simpa using hc⟩)
    · cases hs
  | clear t =>
    simp only [AmpLock.step] at hs
    split at hs
    · rename_i cnt hp
      cases hs
      refine .clear hp _ ?_
      split
      · exact .inr rfl
      · exact .inl rfl
    · cases hs
  | release t =>
    simp only [AmpLock.step, h.inited, Bool.not_true, Bool.false_eq_true, ↓reduceIte] at hs
    split at hs
    · rename_i hp
      split at hs
      · cases hs; exact .relReq hp
      · rw [h.releaseCnt (by rw [hp]; rfl)] at hs
        cases hs; exact .release (.inl ⟨rfl, hp⟩)
    · cases hs
  | pass t =>
    simp only [AmpLock.step] at hs
    split at hs
    · rename_i cnt hp
      split at hs
      · rename_i h1
        cases hs; exact .passSelf hp fun hf => by rw [hf.1] at h1; cases h1
      · rename_i h1
        split at hs
        · rename_i h2
          cases hs; exact .passOther hp fun hf => by rw [hf.2] at h2; cases h2
        · rename_i h2
          cases hs; exact .done hp ⟨eq_zero_of_not_pos h1, eq_zero_of_not_pos h2⟩
    · cases hs
  | available c =>
    simp only [AmpLock.step, ampResAvailable, h.inited, Bool.not_true, Bool.false_eq_true, ↓reduceIte] at hs
    split at hs
    · rename_i hi; cases hs; exact .available hi
    · cases hs

/-! ### Keeping the counts -/

theorem CntInv.setPc (h : CntInv cfg s) {t : τ} {p : Pc} (hp : p.counted = (s.pc t).counted) :
    CntInv cfg (s.setPc t p) where
  inited := h.inited
  rest := h.rest
  cnt c := by
    have hc := AmpLock.counted_setPc cfg s t p c
    rw [hp] at hc
    rw [AmpLock.setPc_sync, h.cnt]
    omega

omit [DecidableEq τ] in
theorem CntInv.setSync (h : CntInv cfg s) {c : Bool} {r : AmpResSync} (hi : r.inited = (s.sync c).inited)
    (hr : r.reqCnt = (s.sync c).reqCnt) : CntInv cfg (s.setSync c r) := by
  have hcnt : ((s.setSync c r).sync false).reqCnt = (s.sync false).reqCnt := by
    rw [AmpLock.setSync_sync]
    split
    · rename_i hc; rw [hr, hc]
    · rfl
  refine ⟨fun d => ?_, fun i => ?_, fun d => ?_⟩
  · rw [AmpLock.setSync_sync]
    split
    · rw [hi]; exact h.inited c
    · exact h.inited d
  · rw [hcnt]; exact h.rest i
  · rw [hcnt]; exact h.cnt d

omit [DecidableEq τ] in
theorem CntInv.post (h : CntInv cfg s) (c : Bool) : CntInv cfg (s.setSync c (s.sync c).post) := h.setSync rfl rfl

omit [DecidableEq τ] in
theorem CntInv.take (h : CntInv cfg s) (c : Bool) : CntInv cfg (s.setSync c (s.sync c).take) := h.setSync rfl rfl

omit [DecidableEq τ] in
theorem CntInv.setInd (h : CntInv cfg s) (c : Bool) (n : Nat) : CntInv cfg (s.setInd c n) :=
  ⟨h.inited, h.rest, h.cnt⟩

theorem CntInv.count (h : CntInv cfg s) {t : τ} {p : Pc} {x : BitVec 16}
    (hx : x.toNat + (s.pc t).counted = ((s.sync false).reqCnt (cfg.cpu t).toNat).toNat + p.counted) :
    CntInv cfg ((s.setSync false ((s.sync false).setReqCnt
      (update (s.sync false).reqCnt (cfg.cpu t).toNat x))).setPc t p) := by
  refine ⟨fun d => ?_, fun i hi => ?_, fun d => ?_⟩
  · rw [AmpLock.setPc_sync, AmpLock.setSync_sync]
    split
    · exact h.inited false
    · exact h.inited d
  · have hne : i ≠ (cfg.cpu t).toNat := by
      have := Bool.toNat_le (cfg.cpu t)
      omega
    simpa [hne] using h.rest i hi
  · have hd := AmpLock.counted_setPc cfg (s.setSync false ((s.sync false).setReqCnt
      (update (s.sync false).reqCnt (cfg.cpu t).toNat x))) t p d
    rw [AmpLock.counted_setSync, AmpLock.setSync_pc, ← h.cnt d] at hd
    simp only [AmpLock.setPc_sync, AmpLock.setSync_sync, ↓reduceIte, AmpResSync.setReqCnt_reqCnt]
    by_cases hc : cfg.cpu t = d
    · subst hc
      rw [update_self]
      simp only [↓reduceIte] at hd
      omega
    · have hne : d.toNat ≠ (cfg.cpu t).toNat := by
        revert hc
        cases cfg.cpu t <;> cases d <;> decide
      rw [update_of_ne hne]
      simp only [hc, ↓reduceIte] at hd
      omega

variable (cfg) in
/-- An acquire that is counted in this step does not bring the `u16` count of its CPU back to 0. -/
def NoWrap (s : AmpLock τ) : AmpAct τ → Prop
  | .acquire t => s.pc t = .idle → cfg.cpu t = false → ((s.sync false).reqCnt (cfg.cpu t).toNat).toNat + 1 < 2 ^ 16
  | .serve t => s.pc t = .acqReq → ((s.sync false).reqCnt (cfg.cpu t).toNat).toNat + 1 < 2 ^ 16
  | _ => True

theorem CntInv.countUp (h : CntInv cfg s) {t : τ} (hp : (s.pc t).counted = 0)
    (hw : ((s.sync false).reqCnt (cfg.cpu t).toNat).toNat + 1 < 2 ^ 16) : CntInv cfg (s.countUp cfg t) := by
  refine h.count ?_
  rw [toNat_add_one hw, hp]
  rfl

variable {k : AmpResReqCnt → Pc}

theorem CntInv.countDown (h : CntInv cfg s) {t : τ} (hp : (s.pc t).counted = 1)
    (hk : ∀ cnt, (k cnt).counted = 0) : CntInv cfg (s.countDown cfg t k) := by
  refine h.count ?_
  have hle := le_tally (fun u p => if cfg.cpu u = cfg.cpu t then p.counted else 0) s.pc t
  rw [if_pos rfl, hp] at hle
  have hpos : 0 < ((s.sync false).reqCnt (cfg.cpu t).toNat).toNat := by
    rw [h.cnt (cfg.cpu t)]
    exact hle
  rw [hp, hk, toNat_sub_one hpos]
  rfl

theorem CntInv.step (h : CntInv cfg s) (hw : NoWrap cfg s a) (hs : AmpStep cfg s a s') : CntInv cfg s' := by
  cases hs with
  | request hp => exact h.setPc (by rw [hp]; rfl)
  | countUp ha =>
    rcases ha with ⟨rfl, hp, hc⟩ | ⟨rfl, hp⟩
    · exact h.countUp (by rw [hp]; rfl) (hw hp hc)
    · exact h.countUp (by rw [hp]; rfl) (hw hp)
  | @post t cnt hp =>
    refine CntInv.setPc ?_ (by rw [AmpLock.setSync_pc, hp]; rfl)
    split
    · exact h.post _
    · exact h.setSync rfl rfl
  | get hp => exact (h.take _).setPc (by rw [AmpLock.setSync_pc, hp]; rfl)
  | timeout hp | backReq hp => exact h.setPc (by rw [hp]; rfl)
  | back ha =>
    rcases ha with ⟨-, hp, -⟩ | ⟨-, hp⟩ <;> exact h.countDown (by rw [hp]; rfl) fun _ => rfl
  | clear hp r hr =>
    refine CntInv.setPc ?_ (by rw [AmpLock.setSync_pc, hp]; rfl)
    rcases hr with rfl | rfl
    · exact h.setSync rfl rfl
    · exact h.take _
  | relReq hp => exact h.setPc (by rw [hp]; rfl)
  | release ha =>
    rcases ha with ⟨-, hp⟩ | ⟨-, hp⟩ <;> exact h.countDown (by rw [hp]; rfl) fun _ => rfl
  | passSelf hp => exact (h.post _).setPc (by rw [AmpLock.setSync_pc, hp]; rfl)
  | passOther hp => exact (h.setInd _ _).setPc (by rw [AmpLock.setInd_pc, hp]; rfl)
  | done hp => exact h.setPc (by rw [hp]; rfl)
  | available => exact (h.setInd _ _).post _

/-! ### The token machine

What a step does to the number `n` of requests and the number `k` of tokens. -/

variable (cfg s) in
def GivesBack (a : AmpAct τ) : Prop :=
  ∃ t, a = .back t ∧ s.pc t = .expired ∧ cfg.cpu t = false ∨ a = .serve t ∧ s.pc t = .backReq

inductive TokenStep (gives clears : Prop) (n k n' k' : Nat) : Prop
  | stay (hn : n' = n) (hk : k' = k)
  | request (hn : n' = n + 1) (hk : k' = k + if n = 0 then 1 else 0)
  | release (hn : n' + 1 = n) (hk : k' + 1 = k + if n' = 0 then 0 else 1)
  | giveBack (hb : gives) (hn : n' + 1 = n) (hk : k' = k)
  | clear (hc : clears) (hn : n' = n) (hk : k' ≤ k)

omit [DecidableEq τ] in
theorem CntInv.free (h : CntInv cfg s) (c : Bool) :
    (cntList cfg.ampCpuCnt (s.sync false).reqCnt c.toNat).Free ↔ s.reqs cfg = 0 := by
  rw [free_cntList cfg.two_le h.rest]
  have h0 := h.cnt false
  have h1 := h.cnt true
  simp only [Bool.toNat_false, Bool.toNat_true] at h0 h1
  rw [h0, h1]
  rfl

theorem countUp_token (h : CntInv cfg s) {t : τ} (hp : s.pc t = .idle ∨ s.pc t = .acqReq) :
    (s.countUp cfg t).reqs cfg = s.reqs cfg + 1 ∧
      (s.countUp cfg t).tokens = s.tokens + if s.reqs cfg = 0 then 1 else 0 := by
  have hpc : (s.pc t).counted = 0 ∧ (s.pc t).holds + (s.pc t).posting = 0 := by
    rcases hp with hp | hp <;> rw [hp] <;> exact ⟨rfl, rfl⟩
  have hq : (s.countUp cfg t).reqs cfg + (s.pc t).counted = s.reqs cfg + 1 := AmpLock.reqs_setPc _ _ _ _
  have hk : (s.countUp cfg t).tokens + ((s.pc t).holds + (s.pc t).posting) =
      _ + (0 + Pc.posting (.acqCnt (cntList cfg.ampCpuCnt (s.sync false).reqCnt (cfg.cpu t).toNat))) :=
    AmpLock.tokens_setPc _ _ _
  rw [AmpLock.tokens_setReqCnt, hpc.2] at hk
  rw [hpc.1] at hq
  have hpost : Pc.posting (.acqCnt (cntList cfg.ampCpuCnt (s.sync false).reqCnt (cfg.cpu t).toNat)) =
      if s.reqs cfg = 0 then 1 else 0 := by
    simp only [Pc.posting, h.free]
  omega

theorem countDown_token (h : CntInv cfg s) {t : τ} (hp : (s.pc t).counted = 1) (hk : ∀ cnt, (k cnt).counted = 0) :
    (s.countDown cfg t k).reqs cfg + 1 = s.reqs cfg ∧ ∃ cnt, (cnt.Free ↔ (s.countDown cfg t k).reqs cfg = 0) ∧
      (s.countDown cfg t k).tokens + ((s.pc t).holds + (s.pc t).posting) =
        s.tokens + ((k cnt).holds + (k cnt).posting) := by
  have hq : (s.countDown cfg t k).reqs cfg + (s.pc t).counted = s.reqs cfg + _ := AmpLock.reqs_setPc _ _ _ _
  rw [hk, hp] at hq
  have ht : (s.countDown cfg t k).tokens + ((s.pc t).holds + (s.pc t).posting) = _ + _ := AmpLock.tokens_setPc _ _ _
  rw [AmpLock.tokens_setReqCnt] at ht
  refine ⟨hq, _, ?_, ht⟩
  have hf := (h.countDown hp hk).free (cfg.cpu t)
  simpa [AmpLock.countDown] using hf

theorem TokenStep.setPc {gives clears : Prop} {n k : Nat} {s₁ : AmpLock τ} {t : τ} {p q : Pc} (hp : s₁.pc t = p)
    (hn : s₁.reqs cfg = n) (hc : p.counted = q.counted)
    (hk : s₁.tokens + (q.holds + q.posting) = k + (p.holds + p.posting)) :
    TokenStep gives clears n k ((s₁.setPc t q).reqs cfg) (s₁.setPc t q).tokens := by
  have hn' := AmpLock.reqs_setPc cfg s₁ t q
  have hk' := AmpLock.tokens_setPc s₁ t q
  rw [hp] at hn' hk'
  exact .stay (by omega) (by omega)

theorem AmpStep.tokenStep (h : CntInv cfg s) (hs : AmpStep cfg s a s') :
    TokenStep (GivesBack cfg s a) (∃ t cnt, s.pc t = .backCnt cnt) (s.reqs cfg) s.tokens (s'.reqs cfg) s'.tokens := by
  cases hs with
  | request hp => exact .setPc hp rfl rfl rfl
  | countUp ha =>
    have hc := countUp_token h (ha.imp (·.2.1) (·.2))
    exact .request hc.1 hc.2
  | @post t cnt hp =>
    refine .setPc hp rfl rfl ?_
    by_cases hf : cnt.Free
    · have hk := AmpLock.tokens_setSync s (cfg.cpu t) (s.sync (cfg.cpu t)).post
      simp only [AmpResSync.post, Pc.holds, Pc.posting, hf, ↓reduceIte] at hk ⊢
      omega
    · have hk := AmpLock.tokens_setSync s (cfg.cpu t) (s.sync (cfg.cpu t))
      simp only [Pc.holds, Pc.posting, hf, ↓reduceIte] at hk ⊢
      omega
  | @get t hp hpos =>
    refine .setPc hp rfl rfl ?_
    have hk := AmpLock.tokens_setSync s (cfg.cpu t) (s.sync (cfg.cpu t)).take
    simp only [AmpResSync.take, Pc.holds, Pc.posting] at hk ⊢
    omega
  | timeout hp | backReq hp => exact .setPc hp rfl rfl rfl
  | @back t a ha =>
    have hp : s.pc t = .expired ∨ s.pc t = .backReq := ha.imp (·.2.1) (·.2)
    have hone : (s.pc t).counted = 1 := by rcases hp with hp | hp <;> rw [hp] <;> rfl
    have hnone : (s.pc t).holds + (s.pc t).posting = 0 := by rcases hp with hp | hp <;> rw [hp] <;> rfl
    obtain ⟨hn, cnt, -, hk⟩ := countDown_token h hone (k := .backCnt) fun _ => rfl
    rw [hnone] at hk
    exact .giveBack ⟨t, ha⟩ hn hk
  | @clear t cnt hp r hr =>
    have hn' := AmpLock.reqs_setPc cfg (s.setSync (cfg.cpu t) r) t .idle
    have hk' := AmpLock.tokens_setPc (s.setSync (cfg.cpu t) r) t .idle
    have hk := AmpLock.tokens_setSync s (cfg.cpu t) r
    have hle : r.resSema ≤ (s.sync (cfg.cpu t)).resSema := by
      rcases hr with rfl | rfl
      · exact le_rfl
      · exact Nat.sub_le _ _
    rw [AmpLock.setSync_pc, hp] at hn' hk'
    simp only [Pc.counted, Pc.holds, Pc.posting, AmpLock.reqs_setSync] at hn' hk'
    exact .clear ⟨t, cnt, hp⟩ hn' (by omega)
  | relReq hp => exact .setPc hp rfl rfl rfl
  | @release t a ha =>
    have hp : s.pc t = .hold ∨ s.pc t = .relReq := ha.imp (·.2) (·.2)
    have hone : (s.pc t).counted = 1 := by rcases hp with hp | hp <;> rw [hp] <;> rfl
    have hholds : (s.pc t).holds + (s.pc t).posting = 1 := by rcases hp with hp | hp <;> rw [hp] <;> rfl
    obtain ⟨hn, cnt, hf, hk⟩ := countDown_token h hone (k := .relCnt) fun _ => rfl
    rw [hholds] at hk
    simp only [Pc.holds, Pc.posting, hf, Nat.zero_add] at hk
    exact .release hn hk
  | @passSelf t cnt hp hf =>
    refine .setPc hp rfl rfl ?_
    have hk := AmpLock.tokens_setSync s (cfg.cpu t) (s.sync (cfg.cpu t)).post
    simp only [AmpResSync.post, Pc.holds, Pc.posting, hf, ↓reduceIte] at hk ⊢
    omega
  | @passOther t cnt hp hf =>
    refine .setPc hp rfl rfl ?_
    have hk := AmpLock.tokens_setInd s (!cfg.cpu t) (s.ind (!cfg.cpu t) + 1)
    simp only [Pc.holds, Pc.posting, hf, ↓reduceIte] at hk ⊢
    omega
  | done hp hf => exact .setPc hp rfl rfl (by simp [Pc.holds, Pc.posting, hf])
  | @available c hi =>
    have hk := AmpLock.tokens_setInd s c (s.ind c - 1)
    have hk' := AmpLock.tokens_setSync (s.setInd c (s.ind c - 1)) c (s.sync c).post
    simp only [AmpLock.setInd_sync, AmpResSync.post] at hk'
    exact .stay rfl (by simp only [AmpResSync.post]; omega)

/-! ### Mutual exclusion -/

omit [DecidableEq τ] in
theorem CntInv.reqTotal_eq (h : CntInv cfg s) : s.reqTotal cfg = s.reqs cfg := by
  have hsum : ∀ n, 2 ≤ n → ((List.range n).map fun i => ((s.sync false).reqCnt i).toNat).sum = s.reqs cfg := by
    intro n hn
    induction n, hn using Nat.le_induction with
    | base =>
      have h0 := h.cnt false
      have h1 := h.cnt true
      simp only [Bool.toNat_false, Bool.toNat_true] at h0 h1
      simp [List.range_succ, h0, h1, AmpLock.reqs]
    | succ n hn ih =>
      rw [List.range_succ, List.map_append, List.sum_append, ih, List.map_singleton, h.rest n hn]
      rfl
  exact hsum _ cfg.two_le

omit [DecidableEq τ] in
theorem CntInv.init : CntInv cfg (AmpLock.init τ) where
  inited _ := rfl
  rest _ _ := rfl
  cnt c := by
    show 0 = tally _ _
    refine (tally_eq_zero fun t => ?_).symm
    split <;> rfl

omit [DecidableEq τ] in
theorem tokens_init : (AmpLock.init τ).tokens = 0 := by
  have h1 : (AmpLock.init τ).holders = 0 := tally_eq_zero fun _ => rfl
  have h2 : (AmpLock.init τ).posting = 0 := tally_eq_zero fun _ => rfl
  rw [AmpLock.tokens, h1, h2]
  rfl

variable (cfg s) in
structure TokenInv : Prop where
  cnt : CntInv cfg s
  one : s.tokens ≤ 1
  none : s.reqs cfg = 0 → s.tokens = 0

variable (cfg) in
/-- No count wraps, and an acquire that timed out does not take back the last request while a token is
still around. -/
def Careful (s : AmpLock τ) (a : AmpAct τ) : Prop :=
  NoWrap cfg s a ∧ (GivesBack cfg s a → 2 ≤ s.reqTotal cfg ∨ s.tokens = 0)

theorem TokenInv.step (h : TokenInv cfg s) (hc : Careful cfg s a) (hs : s.step cfg a = some s') : TokenInv cfg s' := by
  have hstep := h.cnt.ampStep hs
  have hone := h.one
  have hnone := h.none
  refine ⟨h.cnt.step hc.1 hstep, ?_, ?_⟩
  · rcases hstep.tokenStep h.cnt with ⟨hn, hk⟩ | ⟨hn, hk⟩ | ⟨hn, hk⟩ | ⟨hb, hn, hk⟩ | ⟨hb, hn, hk⟩
    · omega
    · split at hk <;> omega
    · split at hk <;> omega
    · omega
    · omega
  · intro h0
    rcases hstep.tokenStep h.cnt with ⟨hn, hk⟩ | ⟨hn, hk⟩ | ⟨hn, hk⟩ | ⟨hb, hn, hk⟩ | ⟨hb, hn, hk⟩
    · omega
    · omega
    · rw [if_pos h0] at hk; omega
    · have hlast := hc.2 hb
      rw [h.cnt.reqTotal_eq] at hlast
      omega
    · omega

theorem TokenInv.run (hr : Run (AmpLock.step cfg) (Careful cfg) (AmpLock.init τ) s) : TokenInv cfg s := by
  refine hr.invariant ⟨.init, ?_, fun _ => tokens_init⟩ fun _ _ _ _ h hc hs => h.step hc hs
  rw [tokens_init]
  exact Nat.zero_le 1

end

section
variable {τ : Type} [Fintype τ] [DecidableEq τ] (cfg : AmpCfg τ) {s : AmpLock τ}

theorem holder_unique (hr : Run (AmpLock.step cfg) (Careful cfg) (AmpLock.init τ) s) {t u : τ}
    (ht : (s.pc t).holds = 1) (hu : (s.pc u).holds = 1) : t = u := by
  by_contra hne
  have hone := (TokenInv.run hr).one
  have hle : (s.pc t).holds + (s.pc u).holds ≤ s.holders := add_le_tally (f := fun _ p => Pc.holds p) hne
  unfold AmpLock.tokens at hone
  omega

end
section
variable {τ : Type} [Fintype τ] [DecidableEq τ] (cfg : AmpCfg τ)

instance (s : AmpLock τ) (a : AmpAct τ) : Decidable (NoWrap cfg s a) :=
  match a with
  | .acquire _ => inferInstanceAs (Decidable (_ → _ → _))
  | .serve _ => inferInstanceAs (Decidable (_ → _))
  | .post _ | .get _ | .timeout _ | .back _ | .clear _ | .release _ | .pass _ | .available _ => .isTrue trivial

instance (s : AmpLock τ) (a : AmpAct τ) : Decidable (GivesBack cfg s a) := inferInstanceAs (Decidable (∃ _, _))

instance (s : AmpLock τ) (a : AmpAct τ) : Decidable (Careful cfg s a) := inferInstanceAs (Decidable (_ ∧ _))

end

def serverTasks (n : Nat) : AmpCfg (Fin n) := ⟨fun _ => false, 2, le_rfl⟩

theorem holder_unique_giveUp : ∃ s : AmpLock (Fin 3),
    Run (AmpLock.step (serverTasks 3)) (Careful (serverTasks 3)) (AmpLock.init (Fin 3)) s ∧
      s.pc 2 = .hold ∧ ∀ t, (s.pc t).holds = 1 → t = 2 := by
  refine Run.of_exec_and [.acquire 0, .post 0, .get 0, .acquire 1, .post 1, .acquire 2, .post 2, .timeout 1, .back 1,
    .clear 1, .release 0, .pass 0, .get 2] (by decide) fun s hr h2 t ht => ?_
  exact holder_unique (serverTasks 3) hr ht (by rw [h2]; rfl)

/-- Task 1 gives up: task 0 has passed the resource on to it, and task 2 finds it free and posts once more. Tasks 2 and
3 both get it. -/
theorem two_holders : ∃ s : AmpLock (Fin 4),
    Run (AmpLock.step (serverTasks 4)) (fun _ _ => True) (AmpLock.init (Fin 4)) s ∧ s.pc 2 = .hold ∧ s.pc 3 = .hold :=
  Run.of_exec [.acquire 0, .post 0, .get 0, .acquire 1, .post 1, .timeout 1, .release 0, .pass 0, .back 1,
    .acquire 2, .post 2, .get 2, .acquire 3, .post 3, .get 3] (by decide)

end Bk7258

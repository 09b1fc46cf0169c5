import Bk7258.Amp.Tokens

/-!
# Conservation of the token

When every acquire waits for ever, the machine of `TokenStep` has exactly one token while there is a request. The counts
are `u16`, so this needs fewer than 65536 requests of one CPU at a time.
-/

namespace Bk7258
open Lts Tally

def Pc.timedOut : Pc → Bool
  | .expired | .backReq | .backCnt _ => true
  | _ => false

def AmpAct.isTimeout {τ : Type} : AmpAct τ → Bool
  | .timeout _ => true
  | _ => false

section
variable {τ : Type} [Fintype τ] [DecidableEq τ] {cfg : AmpCfg τ} {s : AmpLock τ}

def NoneTimedOut (s : AmpLock τ) : Prop := ∀ t, (s.pc t).timedOut = false

omit [Fintype τ] in
theorem NoneTimedOut.setPc (h : NoneTimedOut s) {s₁ : AmpLock τ} (hpc : s₁.pc = s.pc) (t : τ) {p : Pc}
    (hp : p.timedOut = false) : NoneTimedOut (s₁.setPc t p) := by
  intro u
  by_cases hu : u = t
  · subst hu
    simpa [AmpLock.setPc] using hp
  · simpa [AmpLock.setPc, hu, hpc] using h u

omit [Fintype τ] in
theorem NoneTimedOut.step (h : NoneTimedOut s) {a : AmpAct τ} {s' : AmpLock τ} (ha : a.isTimeout = false)
    (hs : AmpStep cfg s a s') : NoneTimedOut s' := by
  -- a task that is past a timeout would have to be there already
  have hnot : ∀ {t p}, s.pc t = p → p.timedOut = true → NoneTimedOut s' := by
    intro t p hp hto
    have ht := h t
    rw [hp, hto] at ht
    cases ht
  cases hs with
  | request | countUp | post | get => exact h.setPc rfl _ rfl
  | timeout => cases ha
  | backReq hp => exact hnot hp rfl
  | back hb => rcases hb with ⟨-, hp, -⟩ | ⟨-, hp⟩ <;> exact hnot hp rfl
  | clear hp => exact hnot hp rfl
  | relReq | release | passSelf | passOther | done => exact h.setPc rfl _ rfl
  | available => exact h

variable (cfg s) in
structure ConserveInv : Prop where
  cnt : CntInv cfg s
  forever : NoneTimedOut s
  tokens : s.tokens = if s.reqs cfg = 0 then 0 else 1

theorem ConserveInv.step (h : ConserveInv cfg s) {a : AmpAct τ} {s' : AmpLock τ} (hw : NoWrap cfg s a)
    (ha : a.isTimeout = false) (hs : s.step cfg a = some s') : ConserveInv cfg s' := by
  have hstep := h.cnt.ampStep hs
  refine ⟨h.cnt.step hw hstep, h.forever.step ha hstep, ?_⟩
  have htok := h.tokens
  rcases hstep.tokenStep h.cnt with ⟨hn, hk⟩ | ⟨hn, hk⟩ | ⟨hn, hk⟩ | ⟨⟨t, hb⟩, -, -⟩ | ⟨⟨t, cnt, hp⟩, -, -⟩
  · rw [hn, hk, htok]
  · rw [hk, htok, hn]
    by_cases h0 : s.reqs cfg = 0 <;> simp [h0]
  · rw [if_neg (by omega)] at htok
    omega
  · have ht := h.forever t
    rcases hb with ⟨-, hp, -⟩ | ⟨-, hp⟩ <;> rw [hp] at ht <;> cases ht
  · have ht := h.forever t
    rw [hp] at ht
    cases ht

end

section
variable {τ : Type} [Fintype τ] [DecidableEq τ] (cfg : AmpCfg τ) {s : AmpLock τ}

/-- Without timeouts and wraps, while nobody is about to post or to indicate: holders, semaphore counts and indications
are one together if there is a request, and none otherwise. -/
theorem holders_add_avail (hr : Run (AmpLock.step cfg) (fun s a => NoWrap cfg s a ∧ a.isTimeout = false)
      (AmpLock.init τ) s) (hp : ∀ t, (s.pc t).posting = 0) :
    s.holders + ((s.sync false).resSema + (s.sync true).resSema) + (s.ind false + s.ind true) =
      if s.reqTotal cfg = 0 then 0 else 1 := by
  have hinv : ConserveInv cfg s := by
    refine hr.invariant ⟨.init, fun _ => rfl, ?_⟩ fun _ _ _ _ h hok hs => h.step hok.1 hok.2 hs
    have h0 : (AmpLock.init τ).reqs cfg = 0 := by
      rw [← CntInv.init.reqTotal_eq]
      simp [AmpLock.reqTotal, AmpLock.init]
    rw [tokens_init, if_pos h0]
  have hpost : s.posting = 0 := tally_eq_zero fun t => hp t
  have htok := hinv.tokens
  rw [hinv.cnt.reqTotal_eq, ← htok, AmpLock.tokens, AmpLock.avail, hpost]
  omega

end

def serverAndClient : AmpCfg (Fin 2) := ⟨fun t => t = 1, 3, by omega⟩

theorem holders_add_avail_handOver : ∃ s : AmpLock (Fin 2),
    Run (AmpLock.step serverAndClient) (fun s a => NoWrap serverAndClient s a ∧ a.isTimeout = false)
      (AmpLock.init (Fin 2)) s ∧ s.pc 1 = .wait ∧ s.ind true = 1 ∧
      s.holders + ((s.sync false).resSema + (s.sync true).resSema) + (s.ind false + s.ind true) = 1 := by
  refine Run.of_exec_imp (p := fun s => s.pc 1 = .wait ∧ s.ind true = 1 ∧ (∀ t, (s.pc t).posting = 0) ∧
      s.reqTotal serverAndClient = 1)
    [.acquire 0, .post 0, .get 0, .acquire 1, .serve 1, .post 1, .release 0, .pass 0] (by decide) ?_
  rintro s hr ⟨h1, hi, hp, hn⟩
  have h := holders_add_avail serverAndClient hr hp
  rw [hn] at h
  exact ⟨h1, hi, h⟩

/-! ### A count that wraps -/

structure Queued {n : Nat} (k : Nat) (s : AmpLock (Fin n)) : Prop where
  inited : (s.sync false).inited = true
  sema : (s.sync false).resSema = if k = 0 then 0 else 1
  cnt : (s.sync false).reqCnt 0 = BitVec.ofNat 16 k
  rest : ∀ i, 1 ≤ i → (s.sync false).reqCnt i = 0
  pc : ∀ t, s.pc t = if t.1 < k then .wait else .idle

theorem Queued.next {n k : Nat} {s : AmpLock (Fin n)} (h : Queued k s) (hk : k < n) (hw : k < 2 ^ 16) :
    ∃ s', Run (AmpLock.step (serverTasks n)) (fun _ a => a.isTimeout = false) s s' ∧ Queued (k + 1) s' := by
  let t : Fin n := ⟨k, hk⟩
  have hidle : s.pc t = .idle := by simp [h.pc, t]
  let cnt := cntList 2 (s.sync false).reqCnt 0
  let r := (s.sync false).setReqCnt (Function.update (s.sync false).reqCnt 0 ((s.sync false).reqCnt 0 + 1))
  have hacq : s.step (serverTasks n) (.acquire t) = some ((s.setSync false r).setPc t (.acqCnt cnt)) := by
    simp only [AmpLock.step, hidle, ↓reduceIte]
    show (if !(s.sync false).inited then some s else some (s.acquireCnt (serverTasks n) t)) = _
    rw [h.inited, AmpLock.acquireCnt, ampResAcquireCnt_ok h.inited ((serverTasks n).cpuId_lt t)]
    rfl
  -- only the first task finds the resource free
  have hfree : (cnt.selfReqCnt = 0 ∧ cnt.othersReqCnt = 0) ↔ k = 0 := by
    have hf := free_cntList le_rfl (fun i hi => h.rest i (by omega)) false
    rw [h.cnt, h.rest 1 le_rfl, BitVec.toNat_ofNat, Nat.mod_eq_of_lt hw] at hf
    exact hf
  let r' := if cnt.selfReqCnt = 0 ∧ cnt.othersReqCnt = 0 then r.post else r
  have hpost : ((s.setSync false r).setPc t (.acqCnt cnt)).step (serverTasks n) (.post t) =
      some ((((s.setSync false r).setPc t (.acqCnt cnt)).setSync false r').setPc t .wait) := by
    simp only [AmpLock.step, AmpLock.setPc, Function.update_self]
    rfl
  refine ⟨_, .tail (.tail .refl rfl hacq) rfl hpost, ?_⟩
  have hsema := h.sema
  have hr' : r'.inited = true ∧ r'.reqCnt = r.reqCnt ∧ r'.resSema = 1 := by
    by_cases hk0 : k = 0
    · rw [if_pos hk0] at hsema
      rw [show r' = r.post from if_pos (hfree.2 hk0)]
      exact ⟨h.inited, rfl, congrArg (· + 1) hsema⟩
    · rw [if_neg hk0] at hsema
      rw [show r' = r from if_neg fun hf => hk0 (hfree.1 hf)]
      exact ⟨h.inited, rfl, hsema⟩
  obtain ⟨hi, hc, hs⟩ := hr'
  refine ⟨?_, ?_, ?_, fun i hi => ?_, fun u => ?_⟩
  · simpa using hi
  · simpa using hs
  · simp [hc, r, h.cnt, BitVec.ofNat_add]
  · have hne : i ≠ 0 := by omega
    simp [hc, r, hne, h.rest i hi]
  · by_cases hu : u = t
    · subst hu
      simp [AmpLock.setPc, t]
    · have hne : u.1 ≠ k := fun he => hu (Fin.ext he)
      have hlt : u.1 < k + 1 ↔ u.1 < k := by omega
      simp [AmpLock.setPc, hu, h.pc, hlt]

theorem exists_queued (n k : Nat) (hk : k ≤ n) (hw : k ≤ 2 ^ 16) :
    ∃ s, Run (AmpLock.step (serverTasks n)) (fun _ a => a.isTimeout = false) (AmpLock.init (Fin n)) s ∧ Queued k s := by
  induction k with
  | zero => exact ⟨_, .refl, rfl, rfl, rfl, fun _ _ => rfl, fun _ => rfl⟩
  | succ k ih =>
    obtain ⟨s, hr, hq⟩ := ih (by omega) (by omega)
    obtain ⟨s', hr', hq'⟩ := hq.next hk hw
    exact ⟨s', hr.trans hr', hq'⟩

/-- 65536 tasks wait, the counts are all 0 again, and the semaphore is posted: one request more and it is posted twice.
-/
theorem avail_of_wrapped_count : ∃ s : AmpLock (Fin 65536),
    Run (AmpLock.step (serverTasks 65536)) (fun _ a => a.isTimeout = false) (AmpLock.init (Fin 65536)) s ∧
      (∀ t, (s.pc t).posting = 0) ∧ s.reqTotal (serverTasks 65536) = 0 ∧
      s.holders + ((s.sync false).resSema + (s.sync true).resSema) + (s.ind false + s.ind true) ≠ 0 := by
  obtain ⟨s, hr, hq⟩ := exists_queued 65536 65536 le_rfl le_rfl
  have hsema := hq.sema
  refine ⟨s, hr, fun t => ?_, ?_, ?_⟩
  · rw [hq.pc, if_pos t.2]
    rfl
  · show ((List.range 2).map fun i => ((s.sync false).reqCnt i).toNat).sum = 0
    simp [List.range_succ, hq.cnt, hq.rest 1 le_rfl]
  · rw [if_neg (by omega)] at hsema
    omega

end Bk7258

import Bk7258.Pm.PwrClk

/-!
# `BK_OK` and the reply of the CP

The votes return `BK_OK` whenever the command could be sent. Besides that, the interrupt sets the flag for PSRAM and for
deep sleep whatever the reply says, a late reply to an earlier request may set the flag between its reset and the
command, and the sleep vote for `PM_SLEEP_MODULE_NAME_LOG` sends nothing.
-/

namespace Bk7258
open Lts Function

def PmFlag.isVote : PmFlag → Bool
  | .cp1Pwr | .cp1Sleep | .psramPower | .externalLdo | .deepsleep => true
  | _ => false

def PmReq.isVote : PmReq → Bool
  | .votePowerCtrl .. | .voteSleepCtrl .. | .votePsramCtrl .. | .voteCtrlExternalLdo .. | .sleepModeSet .. => true
  | _ => false

theorem PmReq.isVote_flag {req : PmReq} {x : PmExchange} (hb : req.body = .exchange x) (hv : req.isVote) :
    x.flag.isVote := by
  rw [PmReq.flag_eq hb]
  cases req with
  | votePowerCtrl | voteSleepCtrl | votePsramCtrl | voteCtrlExternalLdo | sleepModeSet => rfl
  | _ => cases hv

def PmRet.Replied (r : PmRet) : Prop :=
  ∃ n, r.sentAt = some n ∧ n < r.gotAt

def PmTask.sending (f : PmFlag) : PmTask → Bool
  | .run c (.send _) => c.x.flag = f
  | _ => false

namespace PmSys

variable {T : Type} {s s' : PmSys T} {t : T} {c : PmCall}

/-- A reply that sets the flag of a vote is positive and not early; a wait for a vote does not end with the flag unset;
no sleep vote is for `PM_SLEEP_MODULE_NAME_LOG`. -/
def VoteOk (s : PmSys T) : PmAct T → Prop
  | .call _ req => req.isVote → req.body ≠ .ret .ok
  | .run t _ => ∀ f ∈ (s.task t).late, f.isVote → s.ap.finish f = true
  | .rx c => ∀ f ∈ c.finishes, f.isVote → c.positive ∧ ∀ t, (s.task t).sending f = false
  | .tick _ => True

instance [Fintype T] (s : PmSys T) : (a : PmAct T) → Decidable (s.VoteOk a)
  | .call _ req => inferInstanceAs (Decidable (req.isVote → req.body ≠ .ret .ok))
  | .run t _ => inferInstanceAs (Decidable (∀ f ∈ (s.task t).late, f.isVote → s.ap.finish f = true))
  | .rx c => inferInstanceAs (Decidable (∀ f ∈ c.finishes, f.isVote → c.positive ∧ ∀ t, (s.task t).sending f = false))
  | .tick _ => inferInstanceAs (Decidable True)

def VoteCall (s : PmSys T) (c : PmCall) : PmPc → Prop
  | .reset => True
  | .send _ => s.ap.finish c.x.flag = false
  | .start sentAt | .poll sentAt _ _ | .count sentAt _ =>
    sentAt ≤ s.recv c.x.msg.cmd ∧ (s.ap.finish c.x.flag = true → sentAt < s.recv c.x.msg.cmd)
  | .after sentAt => sentAt < s.recv c.x.msg.cmd

structure VoteInv (s : PmSys T) : Prop where
  run : ∀ t c pc, s.task t = .run c pc → c.x.flag.isVote → s.VoteCall c pc
  ret : ∀ t r, s.task t = .ret r → r.req.isVote → r.result = .ok → r.Replied

theorem VoteCall.frame {pc : PmPc} (h : s.VoteCall c pc) (hr : s'.recv = s.recv)
    (hf : s'.ap.finish c.x.flag → s.ap.finish c.x.flag) : s'.VoteCall c pc := by
  have hc : s'.recv c.x.msg.cmd = s.recv c.x.msg.cmd := congrFun hr _
  cases pc with
  | reset => trivial
  | send k => exact Bool.eq_false_iff.2 fun h' => Bool.eq_false_iff.1 h (hf h')
  | start n | poll n _ _ | count n _ => exact ⟨h.1.trans_eq hc.symm, fun h' => (h.2 (hf h')).trans_eq hc.symm⟩
  | after n => exact Nat.lt_of_lt_of_eq h hc.symm

theorem recv_le_rx (s : PmSys T) (m : PmMbCmd) (k : PmCmd) : s.recv k ≤ (s.rx m).recv k := by
  rw [rx_recv]
  split
  · by_cases hk : k = m.cmd
    · subst hk
      simp
    · simp [hk]
  · exact le_rfl

theorem VoteCall.rx {m : PmMbCmd} {pc : PmPc} (h : s.VoteCall c pc) (hv : c.x.flag.isVote)
    (hok : m.finishes = some c.x.flag → m.positive ∧ (PmTask.run c pc).sending c.x.flag = false) :
    (s.rx m).VoteCall c pc := by
  have hinit : c.x.flag ≠ .cp1Init := fun he => by rw [he] at hv; cases hv
  have hfin := PmAp.rxIsr_finish (s := s.ap) (c := m) hinit
  by_cases hset : m.finishes = some c.x.flag
  · -- the flag gets set, by a positive reply to this command
    obtain ⟨hpos, hsend⟩ := hok hset
    have hcmd : m.cmd = c.x.msg.cmd := (PmMbCmd.finishes_cmd hset).trans c.x.cmd_eq.symm
    have hrecv : (s.rx m).recv c.x.msg.cmd = s.recv c.x.msg.cmd + 1 := by
      rw [rx_recv, if_pos hpos, hcmd, update_self]
    have hlt : ∀ n, n ≤ s.recv c.x.msg.cmd → n < (s.rx m).recv c.x.msg.cmd := by
      intro n hn
      omega
    cases pc with
    | reset => trivial
    | send k => simp [PmTask.sending] at hsend
    | start n | poll n _ _ | count n _ => exact ⟨(hlt n h.1).le, fun _ => hlt n h.1⟩
    | after n => exact hlt n (Nat.le_of_lt h)
  · have hsame : (s.rx m).ap.finish c.x.flag = s.ap.finish c.x.flag := by
      rw [rx_ap, hfin]
      cases hm : m.finishes with
      | none => rfl
      | some g => exact update_of_ne (fun he => hset (hm.trans (congrArg some he.symm))) ..
    have hle := s.recv_le_rx m c.x.msg.cmd
    cases pc with
    | reset => trivial
    | send k => exact hsame.trans h
    | start n | poll n _ _ | count n _ => exact ⟨h.1.trans hle, fun h' => (h.2 (hsame ▸ h')).trans_le hle⟩
    | after n => exact Nat.lt_of_lt_of_le h hle

variable [DecidableEq T]

theorem VoteInv.move {x : PmTask} (h : s.VoteInv) (ht : s'.task = update s.task t x) (hr : s'.recv = s.recv)
    (hf : ∀ f, s'.ap.finish f → s.ap.finish f) (hrun : ∀ c pc, x = .run c pc → c.x.flag.isVote → s'.VoteCall c pc)
    (hret : ∀ r, x = .ret r → r.req.isVote → r.result = .ok → r.Replied) : s'.VoteInv := by
  constructor
  · intro u c pc hu hv
    rw [ht] at hu
    rcases update_cases hu with ⟨-, hx⟩ | ⟨-, hu⟩
    · exact hrun c pc hx hv
    · exact (h.run u c pc hu hv).frame hr (hf _)
  · intro u r hu
    rw [ht] at hu
    rcases update_cases hu with ⟨-, hx⟩ | ⟨-, hu⟩
    · exact hret r hx
    · exact h.ret u r hu

theorem VoteInv.moveRun {pc : PmPc} (h : s.VoteInv) (ht : s'.task = update s.task t (.run c pc))
    (hr : s'.recv = s.recv) (hf : ∀ f, s'.ap.finish f → s.ap.finish f)
    (hc : c.x.flag.isVote → s'.VoteCall c pc) : s'.VoteInv := by
  refine h.move ht hr hf ?_ ?_
  · intro c' pc' hx hv
    cases hx
    exact hc hv
  · intro r hx
    cases hx

theorem VoteInv.moveRet {r : PmRet} (h : s.VoteInv) (ht : s'.task = update s.task t (.ret r))
    (hr : s'.recv = s.recv) (hf : ∀ f, s'.ap.finish f → s.ap.finish f)
    (hret : r.req.isVote → r.result = .ok → r.Replied) : s'.VoteInv := by
  refine h.move ht hr hf ?_ ?_
  · intro c' pc' hx
    cases hx
  · intro r' hx
    cases hx
    exact hret

theorem VoteInv.goto {pc : PmPc} (h : s.VoteInv) (hc : c.x.flag.isVote → s.VoteCall c pc) :
    (s.setTask t (.run c pc)).VoteInv :=
  h.moveRun rfl rfl (fun _ hf => hf) fun hv => (hc hv).frame rfl id

theorem VoteInv.runStep {pc : PmPc} {ok : Bool} (h : s.VoteInv) (ht : s.task t = .run c pc)
    (hok : s.VoteOk (.run t ok)) : (s.run t c ok pc).VoteInv := by
  have hc := h.run t c pc ht
  cases pc with
  | reset =>
    have hmono : ∀ f, (s.ap.stateSet c.x.flag false).finish f → s.ap.finish f := by
      intro f hf
      by_cases hfc : f = c.x.flag
      · subst hfc
        simp at hf
      · simpa [hfc] using hf
    exact h.moveRun rfl rfl hmono fun _ => update_self ..
  | send k =>
    unfold PmSys.run
    dsimp only
    split
    · refine h.moveRun rfl rfl (fun _ hf => hf) fun hv => ⟨le_rfl, ?_⟩
      intro hf
      exact absurd hf (Bool.eq_false_iff.1 (hc hv))
    · split
      · exact h.moveRet rfl rfl (fun _ hf => hf) nofun
      · exact h.goto hc
  | start n | count n p => exact h.goto hc
  | poll n p k =>
    unfold PmSys.run
    dsimp only
    split
    · split
      · exact h.goto fun hv => (hc hv).2 ‹_›
      · exact h.goto hc
    · rename_i hlate
      have hl : (s.task t).late = some c.x.flag := by
        rw [ht]
        exact if_neg hlate
      exact h.goto fun hv => (hc hv).2 (hok _ hl hv)
  | after n =>
    refine h.moveRet rfl rfl ?_ fun hv _ => ⟨n, rfl, hc (PmReq.isVote_flag c.body_eq hv)⟩
    intro f hf
    change (c.req.after s.ap).1.finish f = true at hf
    rwa [PmReq.after_finish] at hf

theorem VoteInv.call {req : PmReq} (h : s.VoteInv) (hok : s.VoteOk (.call t req)) :
    ({ s with next := s.next + 1 }.setTask t (req.start s.next)).VoteInv := by
  refine h.move rfl rfl (fun _ hf => hf) ?_ ?_
  · intro c pc hx _
    unfold PmReq.start at hx
    split at hx
    · cases hx
    · cases hx
      trivial
  · intro r hx hv hres
    unfold PmReq.start at hx
    split at hx
    · rename_i e he
      cases hx
      change e = .ok at hres
      subst hres
      exact absurd he (hok hv)
    · cases hx

theorem VoteInv.step {a : PmAct T} (h : s.VoteInv) (hok : s.VoteOk a) (hs : s.step a = some s') : s'.VoteInv := by
  cases a with
  | call t req =>
    obtain ⟨-, rfl⟩ := step_call hs
    exact h.call hok
  | run t ok =>
    obtain ⟨c, pc, ht, rfl⟩ := step_run hs
    exact h.runStep ht hok
  | rx m =>
    cases hs
    constructor
    · intro t c pc ht hv
      rw [rx_task] at ht
      refine (h.run t c pc ht hv).rx hv fun hset => ?_
      obtain ⟨hpos, hsend⟩ := hok _ hset hv
      exact ⟨hpos, ht ▸ hsend t⟩
    · intro t r ht
      rw [rx_task] at ht
      exact h.ret t r ht
  | tick n =>
    cases hs
    exact ⟨fun t c pc ht hv => (h.run t c pc ht hv).frame rfl id, h.ret⟩

omit [DecidableEq T] in
theorem voteInv_init : ({} : PmSys T).VoteInv := by
  constructor
  · intro t c pc ht
    cases ht
  · intro t r ht
    cases ht

theorem voteInv_of_run (h : Run PmSys.step VoteOk ({} : PmSys T) s) : s.VoteInv :=
  h.invariant voteInv_init fun _ _ _ _ hi hok hs => hi.step hok hs

end PmSys

/-- Without timeout, early or negative replies and sleep votes for `PM_SLEEP_MODULE_NAME_LOG`, a vote that returns
`BK_OK` has got a positive reply. -/
theorem vote_replied {T : Type} [DecidableEq T] {s : PmSys T} (h : Run PmSys.step PmSys.VoteOk {} s) {t : T} {r : PmRet}
    (hr : s.task t = .ret r) (hv : r.req.isVote) (hok : r.result = .ok) : r.Replied :=
  (PmSys.voteInv_of_run h).ret t r hr hv hok

theorem vote_replied_psram :
    ∃ (s : PmSys Unit) (r : PmRet), Run PmSys.step PmSys.VoteOk {} s ∧ s.task () = .ret r ∧
      r.req = .votePsramCtrl 3 0 ∧ r.result = .ok ∧ r.Replied := by
  have hrun : ∃ s : PmSys Unit, Run PmSys.step PmSys.VoteOk {} s ∧
      s.task () = .ret ⟨0, .votePsramCtrl 3 0, .ok, some 0, 1, none⟩ :=
    Run.of_exec [.call () (.votePsramCtrl 3 0), .run () true, .run () false, .run () true, .run () true, .run () true,
      .tick 64, .run () true, .rx ⟨.ctrlPsramPower, 0, 3, 0⟩, .run () true, .run () true] (by decide +kernel)
  obtain ⟨s, hr, ht⟩ := hrun
  exact ⟨s, _, hr, ht, rfl, rfl, vote_replied hr ht rfl rfl⟩

theorem vote_power_ok_without_reply :
    ∃ (s : PmSys Unit) (r : PmRet), Run PmSys.step (fun _ a => ∀ c, a ≠ .rx c) {} s ∧ s.task () = .ret r ∧
      r.req = .votePowerCtrl 1 0 ∧ r.result = .ok ∧ ¬ r.Replied := by
  have hrun : ∃ s : PmSys Unit, Run PmSys.step (fun _ a => (match a with | .rx _ => false | _ => true) = true) {} s ∧
      s.task () = .ret ⟨0, .votePowerCtrl 1 0, .ok, some 0, 0, none⟩ :=
    Run.of_exec [.call () (.votePowerCtrl 1 0), .run () true, .run () true, .run () true, .run () true, .tick 3200,
      .run () true, .run () true, .run () true] (by decide +kernel)
  obtain ⟨s, hr, ht⟩ := hrun
  refine ⟨s, _, hr.mono ?_, ht, rfl, rfl, ?_⟩
  · rintro _ _ h c rfl
    cases h
  · rintro ⟨_, ⟨⟩, hlt⟩
    exact absurd hlt (Nat.lt_irrefl 0)

end Bk7258

import Bk7258.Pm.PwrClk

/-!
# The value a query stores

`bk_pm_ap_misc_get_time_interval_from_startup`, `bk_pm_deep_sleep_wakeup_source_get` and
`bk_pm_exit_low_vol_wakeup_source_get` ask the CP through `pm_ap_get_cp_data`. The reply names the type it answers, but
nobody looks at it. The queries come one after the other here, and the CP answers each of them once and in order
(`CpOk`).
-/

namespace Bk7258
open Lts Function

def PmTask.querying : PmTask → Bool
  | .run c _ => c.x.flag = .getCpData
  | _ => false

def PmReq.isQuery : PmReq → Bool
  | .getCpData .. => true
  | _ => false

theorem PmReq.flag_iff_isQuery {req : PmReq} {x : PmExchange} (hb : req.body = .exchange x) :
    x.flag = .getCpData ↔ req.isQuery := by
  rw [PmReq.flag_eq hb]
  cases req with
  | getCpData => exact ⟨fun _ => rfl, fun _ => rfl⟩
  | _ => exact ⟨nofun, nofun⟩

theorem PmTask.querying_of_ne_run {k : PmTask} (h : ∀ c pc, k ≠ .run c pc) : k.querying = false := by
  cases k with
  | run c pc => exact absurd rfl (h c pc)
  | idle | ret r => rfl

namespace PmSys

variable {T : Type} {s s' : PmSys T} {t : T} {c : PmCall}

/-- One query after the other; the CP replies to the first query it has not answered and names its type. -/
def CpOk (s : PmSys T) : PmAct T → Prop
  | .call _ req => req.isQuery → ∀ t, (s.task t).querying = false
  | .rx c => c.cmd = .getPmData → s.asked.head?.map Prod.snd = some c.param1
  | _ => True

instance [Fintype T] (s : PmSys T) : (a : PmAct T) → Decidable (s.CpOk a)
  | .call _ req => inferInstanceAs (Decidable (req.isQuery → ∀ t, (s.task t).querying = false))
  | .rx c => inferInstanceAs (Decidable (c.cmd = .getPmData → s.asked.head?.map Prod.snd = some c.param1))
  | .run _ _ => inferInstanceAs (Decidable True)
  | .tick _ => inferInstanceAs (Decidable True)

/-- And no query leaves its wait with the flag unset. -/
def QueryOk (s : PmSys T) (a : PmAct T) : Prop :=
  s.CpOk a ∧ match a with
    | .run t _ => (s.task t).late = some .getCpData → s.ap.finish .getCpData = true
    | _ => True

instance [Fintype T] (s : PmSys T) : (a : PmAct T) → Decidable (s.QueryOk a)
  | .call t req => inferInstanceAs (Decidable (s.CpOk (.call t req) ∧ True))
  | .rx c => inferInstanceAs (Decidable (s.CpOk (.rx c) ∧ True))
  | .run t ok => inferInstanceAs (Decidable (s.CpOk (.run t ok) ∧
      ((s.task t).late = some .getCpData → s.ap.finish .getCpData = true)))
  | .tick n => inferInstanceAs (Decidable (s.CpOk (.tick n) ∧ True))

def Answered (s : PmSys T) (c : PmCall) : Prop :=
  s.asked = [] ∧ (c.num, s.ap.pmMbData.param2) ∈ s.answers

def QueryCall (s : PmSys T) (c : PmCall) : PmPc → Prop
  | .reset => s.asked = []
  | .send _ => s.asked = [] ∧ s.ap.finish .getCpData = false
  | .start _ | .poll _ _ _ | .count _ _ =>
    s.ap.finish .getCpData = false ∧ s.asked = [(c.num, c.x.msg.param1)] ∨ s.Answered c
  | .after _ => s.Answered c

structure QueryInv (s : PmSys T) : Prop where
  one : ∀ t u, (s.task t).querying = true → (s.task u).querying = true → t = u
  none : (∀ t, (s.task t).querying = false) → s.asked = []
  run : ∀ t c pc, s.task t = .run c pc → c.x.flag = .getCpData → s.QueryCall c pc
  ret : ∀ t r, s.task t = .ret r → r.req.isQuery → r.result = .ok → ∃ v, r.data = some v ∧ (r.num, v) ∈ s.answers

theorem QueryCall.frame {pc : PmPc} (h : s.QueryCall c pc) (hf : s'.ap.finish .getCpData = s.ap.finish .getCpData)
    (hd : s'.ap.pmMbData = s.ap.pmMbData) (ha : s'.asked = s.asked) (hn : s'.answers = s.answers) :
    s'.QueryCall c pc := by
  have hans : s.Answered c → s'.Answered c := fun h => ⟨ha.trans h.1, by rw [hd, hn]; exact h.2⟩
  have hwait : (s.ap.finish .getCpData = false ∧ s.asked = [(c.num, c.x.msg.param1)] ∨ s.Answered c) →
      s'.ap.finish .getCpData = false ∧ s'.asked = [(c.num, c.x.msg.param1)] ∨ s'.Answered c :=
    Or.imp (fun h => ⟨hf.trans h.1, ha.trans h.2⟩) hans
  cases pc with
  | reset => exact ha.trans h
  | send k => exact ⟨ha.trans h.1, hf.trans h.2⟩
  | start _ | poll _ _ _ | count _ _ => exact hwait h
  | after n => exact hans h

theorem cmd_eq_getPmData {f : PmFlag} : f.cmd = .getPmData ↔ f = .getCpData := by
  cases f <;> decide

theorem QueryInv.rx_other {m : PmMbCmd} (h : s.QueryInv) (hm : m.cmd ≠ .getPmData) : (s.rx m).QueryInv := by
  obtain ⟨hask, hans⟩ := rx_asked_of_ne (s := s) hm
  have hfin : (s.rx m).ap.finish .getCpData = s.ap.finish .getCpData := by
    rw [rx_ap, PmAp.rxIsr_finish (f := .getCpData) (by decide)]
    cases hg : m.finishes with
    | none => rfl
    | some g =>
      refine update_of_ne (fun he => hm ?_) ..
      exact (PmMbCmd.finishes_cmd hg).trans (cmd_eq_getPmData.2 he.symm)
  have hdata : (s.rx m).ap.pmMbData = s.ap.pmMbData := by
    rw [rx_ap]
    exact PmAp.rxIsr_pmMbData hm
  constructor
  · rw [rx_task]
    exact h.one
  · rw [rx_task, hask]
    exact h.none
  · rw [rx_task]
    exact fun t c pc ht hf => (h.run t c pc ht hf).frame hfin hdata hask hans
  · rw [rx_task, hans]
    exact h.ret

theorem QueryInv.exists_wait {q : Nat × UInt32} {qs : List (Nat × UInt32)} (h : s.QueryInv) (hq : s.asked = q :: qs) :
    ∃ t c pc, s.task t = .run c pc ∧ c.x.flag = .getCpData ∧ q = (c.num, c.x.msg.param1) ∧ qs = [] ∧
      ∀ s' : PmSys T, s'.Answered c → s'.QueryCall c pc := by
  by_cases hall : ∀ t, (s.task t).querying = false
  · rw [h.none hall] at hq
    cases hq
  · push Not at hall
    obtain ⟨t, ht⟩ := hall
    cases htask : s.task t with
    | idle | ret r => rw [htask] at ht; cases ht rfl
    | run c pc =>
      have hf : c.x.flag = .getCpData := by
        rw [htask] at ht
        simpa [PmTask.querying] using ht
      have hc := h.run t c pc htask hf
      have hnil : s.asked ≠ [] := by
        rw [hq]
        exact List.cons_ne_nil q qs
      have hwait : (s.ap.finish .getCpData = false ∧ s.asked = [(c.num, c.x.msg.param1)] ∨ s.Answered c) →
          q = (c.num, c.x.msg.param1) ∧ qs = [] := by
        rintro (⟨-, ha⟩ | ⟨ha, -⟩)
        · rw [hq] at ha
          exact List.cons.inj ha
        · exact absurd ha hnil
      cases pc with
      | reset => exact absurd hc hnil
      | send k | after n => exact absurd hc.1 hnil
      | start _ | poll _ _ _ | count _ _ =>
        exact ⟨t, c, _, htask, hf, (hwait hc).1, (hwait hc).2, fun _ ha => Or.inr ha⟩

theorem QueryInv.rx_query {m : PmMbCmd} (h : s.QueryInv) (hm : m.cmd = .getPmData)
    (hok : s.asked.head?.map Prod.snd = some m.param1) : (s.rx m).QueryInv := by
  cases hq : s.asked with
  | nil => simp [hq] at hok
  | cons q qs =>
    obtain ⟨hask, hans⟩ := rx_answer hm hq
    obtain ⟨t, c, pc, ht, hf, rfl, rfl, hpc⟩ := h.exists_wait hq
    have hself : (s.task t).querying := by
      rw [ht]
      exact decide_eq_true hf
    constructor
    · rw [rx_task]
      exact h.one
    · exact fun _ => hask
    · intro u c' pc' hu hf'
      rw [rx_task] at hu
      have hut : u = t := h.one u t (by rw [hu]; exact decide_eq_true hf') hself
      subst hut
      obtain ⟨rfl, rfl⟩ := PmTask.run.inj (hu.symm.trans ht)
      refine hpc _ ⟨hask, ?_⟩
      have hdata : (s.rx m).ap.pmMbData = m := by
        rw [rx_ap]
        unfold PmAp.rxIsr
        rw [hm]
        rfl
      rw [hdata, hans]
      exact List.mem_cons_self ..
    · intro u r hu hr hres
      rw [rx_task] at hu
      obtain ⟨v, hv, hmem⟩ := h.ret u r hu hr hres
      refine ⟨v, hv, ?_⟩
      rw [hans]
      exact List.mem_cons_of_mem _ hmem

variable [DecidableEq T]

theorem QueryInv.move_other {x : PmTask} (h : s.QueryInv) (hold : (s.task t).querying = false)
    (ht : s'.task = update s.task t x) (hx : x.querying = false)
    (hf : s'.ap.finish .getCpData = s.ap.finish .getCpData) (hd : s'.ap.pmMbData = s.ap.pmMbData)
    (ha : s'.asked = s.asked) (hn : s'.answers = s.answers)
    (hret : ∀ r, x = .ret r → r.req.isQuery → r.result = .ok → False) : s'.QueryInv := by
  have hq : ∀ u, (s'.task u).querying = (s.task u).querying := by
    intro u
    rw [ht]
    by_cases hut : u = t
    · subst hut
      rw [update_self, hx, hold]
    · rw [update_of_ne hut]
  constructor
  · intro u v hu hv
    rw [hq] at hu hv
    exact h.one u v hu hv
  · intro hall
    rw [ha]
    exact h.none fun u => hq u ▸ hall u
  · intro u c pc hu hc
    rw [ht] at hu
    rcases update_cases hu with ⟨-, hu⟩ | ⟨-, hu⟩
    · rw [hu] at hx
      exact absurd hc (of_decide_eq_false hx)
    · exact (h.run u c pc hu hc).frame hf hd ha hn
  · intro u r hu hr hres
    rw [ht] at hu
    rcases update_cases hu with ⟨-, hu⟩ | ⟨-, hu⟩
    · exact (hret r hu hr hres).elim
    · rw [hn]
      exact h.ret u r hu hr hres

theorem QueryInv.move_own {x : PmTask} (h : s.QueryInv) (hall : ∀ u, u ≠ t → (s.task u).querying = false)
    (ht : s'.task = update s.task t x) (hn : s'.answers = s.answers) (hnone : x.querying = false → s'.asked = [])
    (hrun : ∀ c pc, x = .run c pc → c.x.flag = .getCpData → s'.QueryCall c pc)
    (hret : ∀ r, x = .ret r → r.req.isQuery → r.result = .ok → ∃ v, r.data = some v ∧ (r.num, v) ∈ s.answers) :
    s'.QueryInv := by
  have hother : ∀ u, u ≠ t → s'.task u = s.task u := fun u hut => by rw [ht, update_of_ne hut]
  have hself : s'.task t = x := by rw [ht, update_self]
  have hq : ∀ u, (s'.task u).querying → u = t := by
    intro u hu
    by_contra hut
    rw [hother u hut, hall u hut] at hu
    cases hu
  constructor
  · exact fun u v hu hv => (hq u hu).trans (hq v hv).symm
  · exact fun h' => hnone (hself ▸ h' t)
  · intro u c pc hu hc
    have hut : u = t := hq u (by rw [hu]; exact decide_eq_true hc)
    subst hut
    exact hrun c pc (hself.symm.trans hu) hc
  · intro u r hu hr hres
    rw [hn]
    by_cases hut : u = t
    · subst hut
      exact hret r (hself.symm.trans hu) hr hres
    · exact h.ret u r (hother u hut ▸ hu) hr hres

theorem QueryInv.goto {pc : PmPc} (h : s.QueryInv) (hall : ∀ u, u ≠ t → (s.task u).querying = false)
    (hf : c.x.flag = .getCpData) (ht : s'.task = update s.task t (.run c pc)) (hn : s'.answers = s.answers)
    (hc : s'.QueryCall c pc) : s'.QueryInv := by
  refine h.move_own hall ht hn ?_ ?_ ?_
  · intro hx
    exact absurd hf (of_decide_eq_false hx)
  · intro c' pc' hx _
    cases hx
    exact hc
  · intro r hx
    cases hx

theorem QueryInv.run_query {pc : PmPc} {ok : Bool} (h : s.QueryInv) (ht : s.task t = .run c pc)
    (hf : c.x.flag = .getCpData) (hok : s.QueryOk (.run t ok)) : (s.run t c ok pc).QueryInv := by
  have hself : (s.task t).querying := by
    rw [ht]
    exact decide_eq_true hf
  have hall : ∀ u, u ≠ t → (s.task u).querying = false := by
    intro u hut
    exact Bool.eq_false_iff.2 fun hu => hut (h.one u t hu hself)
  have hcmd : c.x.msg.cmd = .getPmData := c.x.cmd_eq.trans (cmd_eq_getPmData.2 hf)
  have hc := h.run t c pc ht hf
  cases pc with
  | reset =>
    refine h.goto hall hf rfl rfl ⟨hc, ?_⟩
    change update s.ap.finish c.x.flag false .getCpData = false
    rw [hf, update_self]
  | send k =>
    unfold PmSys.run
    dsimp only
    split
    · refine h.goto hall hf rfl rfl (.inl ⟨hc.2, ?_⟩)
      change s.asked ++ c.question = _
      rw [hc.1, PmCall.question, if_pos hcmd]
      rfl
    · split
      · refine h.move_own hall rfl rfl (fun _ => hc.1) ?_ ?_
        · intro c' pc' hx
          cases hx
        · intro r hx _ hres
          cases hx
          cases hres
      · exact h.goto hall hf rfl rfl hc
  | start _ | count _ _ => exact h.goto hall hf rfl rfl hc
  | poll n p k =>
    -- with the flag set only the second case of `QueryCall` is left
    have hset : s.ap.finish .getCpData → s.Answered c := by
      intro hfin
      rcases hc with ⟨hfalse, -⟩ | hans
      · rw [hfin] at hfalse
        cases hfalse
      · exact hans
    unfold PmSys.run
    dsimp only
    split
    · split
      · rename_i hfin
        exact h.goto hall hf rfl rfl (hset (hf ▸ hfin))
      · exact h.goto hall hf rfl rfl hc
    · rename_i hlate
      have hl : (s.task t).late = some .getCpData := by
        rw [ht, ← hf]
        exact if_neg hlate
      exact h.goto hall hf rfl rfl (hset (hok.2 hl))
  | after n =>
    refine h.move_own hall rfl rfl (fun _ => hc.1) ?_ ?_
    · intro c' pc' hx
      cases hx
    · intro r hx hr _
      cases hx
      obtain ⟨num, req, x, hb⟩ := c
      cases req with
      | getCpData type null => exact ⟨_, rfl, hc.2⟩
      | _ => cases hr

theorem QueryInv.run_other {pc : PmPc} {ok : Bool} (h : s.QueryInv) (ht : s.task t = .run c pc)
    (hf : c.x.flag ≠ .getCpData) : (s.run t c ok pc).QueryInv := by
  have hold : (s.task t).querying = false := by
    rw [ht]
    exact decide_eq_false hf
  have hrun : ∀ pc, (PmTask.run c pc).querying = false := fun _ => decide_eq_false hf
  have hreq : c.req.isQuery = false := Bool.eq_false_iff.2 fun hq => hf ((PmReq.flag_iff_isQuery c.body_eq).2 hq)
  have hcmd : c.x.msg.cmd ≠ .getPmData := fun hcmd => hf (cmd_eq_getPmData.1 (c.x.cmd_eq.symm.trans hcmd))
  have hgoto : ∀ pc', (s.setTask t (.run c pc')).QueryInv := fun pc' =>
    h.move_other hold rfl (hrun pc') rfl rfl rfl rfl fun r hx => by cases hx
  have hret : ∀ x : PmRet, x.req = c.req → ∀ r, PmTask.ret x = .ret r → r.req.isQuery → r.result = .ok → False := by
    intro x hx r hr hq _
    cases hr
    rw [hx, hreq] at hq
    cases hq
  cases pc with
  | reset =>
    refine h.move_other hold rfl (hrun _) ?_ rfl rfl rfl fun r hx => by cases hx
    exact update_of_ne (Ne.symm hf) ..
  | send k =>
    unfold PmSys.run
    dsimp only
    split
    · refine h.move_other hold rfl (hrun _) rfl rfl ?_ rfl fun r hx => by cases hx
      change s.asked ++ c.question = s.asked
      rw [PmCall.question, if_neg hcmd, List.append_nil]
    · split
      · exact h.move_other hold rfl rfl rfl rfl rfl rfl (hret _ rfl)
      · exact hgoto _
  | start _ | count _ _ => exact hgoto _
  | poll n p k =>
    unfold PmSys.run
    dsimp only
    split
    · split
      · exact hgoto _
      · exact hgoto _
    · exact hgoto _
  | after n =>
    refine h.move_other hold rfl rfl ?_ ?_ rfl rfl (hret _ rfl)
    · exact congrFun (PmReq.after_finish ..) _
    · exact PmReq.after_pmMbData ..

theorem QueryInv.call {req : PmReq} (h : s.QueryInv) (ht : (s.task t).querying = false) (hok : s.CpOk (.call t req)) :
    ({ s with next := s.next + 1 }.setTask t (req.start s.next)).QueryInv := by
  unfold PmReq.start
  split
  · rename_i e he
    refine h.move_other ht rfl rfl rfl rfl rfl rfl ?_
    -- a query that returns at once fails
    intro r hx hr hres
    cases hx
    cases req with
    | getCpData type null =>
      change pmApGetCpData type null = _ at he
      unfold pmApGetCpData at he
      split at he
      · cases he
        cases hres
      · cases he
    | _ => cases hr
  · rename_i x hx
    by_cases hf : x.flag = .getCpData
    · have hall := hok ((PmReq.flag_iff_isQuery hx).1 hf)
      exact h.goto (fun u _ => hall u) hf rfl rfl (h.none hall)
    · exact h.move_other ht rfl (decide_eq_false hf) rfl rfl rfl rfl fun r hx => by cases hx

theorem QueryInv.step {a : PmAct T} (h : s.QueryInv) (hok : s.QueryOk a) (hs : s.step a = some s') : s'.QueryInv := by
  cases a with
  | call t req =>
    obtain ⟨hidle, rfl⟩ := step_call hs
    exact h.call (PmTask.querying_of_ne_run hidle) hok.1
  | run t ok =>
    obtain ⟨c, pc, ht, rfl⟩ := step_run hs
    by_cases hf : c.x.flag = .getCpData
    · exact h.run_query ht hf hok
    · exact h.run_other ht hf
  | rx m =>
    cases hs
    by_cases hm : m.cmd = .getPmData
    · exact h.rx_query hm (hok.1 hm)
    · exact h.rx_other hm
  | tick n =>
    cases hs
    exact ⟨h.one, h.none, fun t c pc ht hf => (h.run t c pc ht hf).frame rfl rfl rfl rfl, h.ret⟩

omit [DecidableEq T] in
theorem queryInv_init : ({} : PmSys T).QueryInv := by
  constructor
  · intro t u ht
    cases ht
  · intro _
    rfl
  · intro t c pc ht
    cases ht
  · intro t r ht
    cases ht

theorem queryInv_of_run (h : Run PmSys.step QueryOk ({} : PmSys T) s) : s.QueryInv :=
  h.invariant queryInv_init fun _ _ _ _ hi hok hs => hi.step hok hs

end PmSys

/-- If no query's wait ends with the flag unset, what a query stores when it returns `BK_OK` is the answer to it. -/
theorem query_stores_answer {T : Type} [DecidableEq T] {s : PmSys T} (h : Run PmSys.step PmSys.QueryOk {} s) {t : T}
    {r : PmRet} (hr : s.task t = .ret r) (hq : r.req.isQuery) (hok : r.result = .ok) :
    ∃ v, r.data = some v ∧ (r.num, v) ∈ s.answers :=
  (PmSys.queryInv_of_run h).ret t r hr hq hok

theorem query_stores_answer_wakeup :
    ∃ (s : PmSys Unit) (r : PmRet), Run PmSys.step PmSys.QueryOk {} s ∧ s.task () = .ret r ∧
      r.req = bkPmDeepSleepWakeupSourceGet ∧ r.wakeupSource = 1 ∧ ∃ v, r.data = some v ∧ (r.num, v) ∈ s.answers := by
  have hrun : ∃ s : PmSys Unit, Run PmSys.step PmSys.QueryOk {} s ∧
      s.task () = .ret ⟨1, bkPmDeepSleepWakeupSourceGet, .ok, some 1, 1, some 1⟩ :=
    Run.of_exec [.call () (bkPmApMiscGetTimeIntervalFromStartup false), .run () true, .run () true, .run () true,
      .rx ⟨.getPmData, 0, 1234, 0⟩, .run () true, .run () true,
      .call () bkPmDeepSleepWakeupSourceGet, .run () true, .run () true, .run () true,
      .rx ⟨.getPmData, 1, 1, 0⟩, .run () true, .run () true] (by decide +kernel)
  obtain ⟨s, hr, ht⟩ := hrun
  exact ⟨s, _, hr, ht, rfl, rfl, query_stores_answer hr ht rfl rfl⟩

/-- The query for the time interval times out, and the query for the wakeup source returns `BK_OK` with its answer. -/
theorem query_stores_late_reply :
    ∃ (s : PmSys Unit) (r : PmRet), Run PmSys.step PmSys.CpOk {} s ∧ s.task () = .ret r ∧
      r.req = bkPmDeepSleepWakeupSourceGet ∧ r.result = .ok ∧ r.data = some 1234 ∧ s.answers = [(0, 1234)] ∧
        r.num = 1 := by
  have hrun : ∃ s : PmSys Unit, Run PmSys.step PmSys.CpOk {} s ∧
      s.task () = .ret ⟨1, bkPmDeepSleepWakeupSourceGet, .ok, some 0, 1, some 1234⟩ ∧ s.answers = [(0, 1234)] :=
    Run.of_exec [.call () (bkPmApMiscGetTimeIntervalFromStartup false), .run () true, .run () true, .run () true,
      .run () true, .tick 3200, .run () true, .run () true, .run () true,
      .call () bkPmDeepSleepWakeupSourceGet, .run () true, .run () true, .run () true,
      .rx ⟨.getPmData, 0, 1234, 0⟩, .run () true, .run () true] (by decide +kernel)
  obtain ⟨s, hr, ht, ha⟩ := hrun
  exact ⟨s, _, hr, ht, rfl, rfl, rfl, ha, rfl⟩

end Bk7258

import Bk7258.Amp.ResLock
import Bk7258.Lib.Sessions

/-!
# Failing acquires of the client CPU

On the client CPU `amp_res_lock_acquire` counts its request by a message to the server, and takes it back by another one
when the wait for the lock times out. A message that times out at the client may still be processed later.
-/

namespace Bk7258
open Lts Sessions Function

/-- Where an acquire, and the release that ends it, has come to -/
inductive CallPc
  | none
  | acqReq
  | wait
  | expired
  | backReq
  | failed
  | hold
  | relReq
  | done
deriving DecidableEq, Repr

/-- `queue` are the requests not processed yet, `log` those the server has processed; `enter` is `IPC_RES_ACQUIRE_CNT`,
`leave` is `IPC_RES_RELEASE_CNT`. -/
structure AmpClient where
  pc : Nat → CallPc
  queue : List (Nat × Mark)
  log : List (Nat × Mark)
  sync : AmpResSync

/-- `written` is whether `mb_chnl_write` takes the request, `ipcExpired` the timeout of `ipc_send_cmd`, and
`serverTasks` a change of the server's own count. -/
inductive ClientAct
  | acquire (c : Nat) (written : Bool)
  | answer (c : Nat)
  | ipcExpired (c : Nat)
  | get (c : Nat)
  | timeout (c : Nat)
  | back (c : Nat) (written : Bool)
  | release (c : Nat) (written : Bool)
  | serve
  | serverTasks (cnt : BitVec 16)
deriving DecidableEq, Repr

section
variable (ampCpuCnt : Nat)

def serveReq (r : AmpResSync) (e : Nat × Mark) : AmpResSync :=
  let res := match e.2 with
    | .enter => ampResAcquireCnt ampCpuCnt r 1
    | .leave => ampResReleaseCnt ampCpuCnt r 1
  match res with
  | .ok x => x.2
  | .error _ => r

def replay (r : AmpResSync) (l : List (Nat × Mark)) : AmpResSync := l.foldl (serveReq ampCpuCnt) r

namespace AmpClient
variable (s : AmpClient)

def setPc (c : Nat) (p : CallPc) : AmpClient := { s with pc := update s.pc c p }

def write (c : Nat) (m : Mark) : AmpClient := { s with queue := s.queue ++ [(c, m)] }

def step : ClientAct → Option AmpClient
  | .acquire c written =>
    if s.pc c = .none then
      if written then some ((s.write c .enter).setPc c .acqReq) else some (s.setPc c .failed)
    else none
  | .answer c =>
    match s.pc c with
    | .acqReq => if (c, .enter) ∈ s.log then some (s.setPc c .wait) else none
    | .backReq => if (c, .leave) ∈ s.log then some (s.setPc c .failed) else none
    | .relReq => if (c, .leave) ∈ s.log then some (s.setPc c .done) else none
    | _ => none
  | .ipcExpired c =>
    match s.pc c with
    | .acqReq => some (s.setPc c .failed)
    | .backReq => some (s.setPc c .failed)
    | .relReq => some (s.setPc c .done)
    | _ => none
  | .get c => if s.pc c = .wait then some (s.setPc c .hold) else none
  | .timeout c => if s.pc c = .wait then some (s.setPc c .expired) else none
  | .back c written =>
    if s.pc c = .expired then
      if written then some ((s.write c .leave).setPc c .backReq) else some (s.setPc c .failed)
    else none
  | .release c written =>
    if s.pc c = .hold then
      if written then some ((s.write c .leave).setPc c .relReq) else some s
    else none
  | .serve =>
    match s.queue with
    | [] => none
    | e :: rest => some { s with queue := rest, log := s.log ++ [e], sync := serveReq ampCpuCnt s.sync e }
  | .serverTasks cnt =>
    some { s with sync := s.sync.setReqCnt (update s.sync.reqCnt 0 cnt) }

end AmpClient

def AmpClient.init (r : AmpResSync) : AmpClient := ⟨fun _ => .none, [], [], r⟩

end

/-! ### The requests a call has sent -/

namespace AmpClient
variable {s : AmpClient} {c d : Nat}

def reqs (s : AmpClient) (c : Nat) : List (Nat × Mark) := of (s.log ++ s.queue) c

theorem reqs_write (c : Nat) (m : Mark) : (s.write c m).reqs = update s.reqs c (s.reqs c ++ [(c, m)]) := by
  funext d
  by_cases hd : d = c
  · subst hd
    simp [reqs, write, of, List.filter_append]
  · simp [reqs, write, of, List.filter_append, hd, Ne.symm hd]

end AmpClient

def CallPc.Sent (F : List (Nat × Mark) → Prop) (c : Nat) (l : List (Nat × Mark)) : CallPc → Prop
  | .none => l = []
  | .acqReq | .wait | .expired | .hold => l = [(c, .enter)]
  | .backReq | .relReq | .done => l = [(c, .enter), (c, .leave)]
  | .failed => F l

/-- Call `c` fails with its acquire request sent and its release request not. -/
def GivesUp (c : Nat) (s : AmpClient) (a : ClientAct) : Prop :=
  a = .ipcExpired c ∧ s.pc c = .acqReq ∨ a = .back c false

/-- What a step may do to a call: it goes on and sends some requests. `giveUp` is needed where it fails with its acquire
request sent and not taken back. -/
inductive CallPc.Move (giveUp : Prop) : CallPc → List Mark → CallPc → Prop
  | acquire : Move giveUp .none [.enter] .acqReq
  | notWritten : Move giveUp .none [] .failed
  | counted : Move giveUp .acqReq [] .wait
  | ipcExpired (h : giveUp) : Move giveUp .acqReq [] .failed
  | get : Move giveUp .wait [] .hold
  | timeout : Move giveUp .wait [] .expired
  | back : Move giveUp .expired [.leave] .backReq
  | notBack (h : giveUp) : Move giveUp .expired [] .failed
  | takenBack : Move giveUp .backReq [] .failed
  | release : Move giveUp .hold [.leave] .relReq
  | released : Move giveUp .relReq [] .done

section
variable {n : Nat} {s s' : AmpClient} {F : List (Nat × Mark) → Prop} {c d : Nat} {a : ClientAct}

theorem CallPc.Sent.move {giveUp : Prop} {p q : CallPc} {ms : List Mark} {l : List (Nat × Mark)} (h : p.Sent F d l)
    (hm : p.Move giveUp ms q) (h0 : F []) (h2 : F [(d, .enter), (d, .leave)]) (h1 : giveUp → F [(d, .enter)]) :
    q.Sent F d (l ++ ms.map (d, ·)) := by
  cases hm with
  | ipcExpired hg | notBack hg =>
    cases h
    exact h1 hg
  | notWritten =>
    cases h
    exact h0
  | takenBack =>
    cases h
    exact h2
  | _ =>
    cases h
    rfl

/-- One call moves, or none. -/
def AmpClient.Moves (s : AmpClient) (a : ClientAct) (s' : AmpClient) : Prop :=
  (s'.pc = s.pc ∧ s'.reqs = s.reqs) ∨ ∃ c ms q, (s.pc c).Move (GivesUp c s a) ms q ∧
    s'.pc = update s.pc c q ∧ s'.reqs = update s.reqs c (s.reqs c ++ ms.map (c, ·))

variable {p q : CallPc}

theorem moves_setPc (hs : some (s.setPc c q) = some s') (hp : s.pc c = p) (hm : p.Move (GivesUp c s a) [] q) :
    s.Moves a s' := by
  cases hs
  refine .inr ⟨c, [], q, hp ▸ hm, rfl, ?_⟩
  rw [List.map_nil, List.append_nil, update_eq_self]
  rfl

theorem moves_write {m : Mark} (hs : some ((s.write c m).setPc c q) = some s') (hp : s.pc c = p)
    (hm : p.Move (GivesUp c s a) [m] q) : s.Moves a s' := by
  cases hs
  exact .inr ⟨c, [m], q, hp ▸ hm, rfl, s.reqs_write c m⟩

theorem AmpClient.step_moves (hs : s.step n a = some s') : s.Moves a s' := by
  cases a with
  | acquire c written =>
    obtain ⟨hp, hs⟩ := Option.ite_none_right_eq_some.1 hs
    cases written with
    | true => exact moves_write hs hp .acquire
    | false => exact moves_setPc hs hp .notWritten
  | answer c =>
    simp only [step] at hs
    split at hs <;> rename_i hp
    · exact moves_setPc (Option.ite_none_right_eq_some.1 hs).2 hp .counted
    · exact moves_setPc (Option.ite_none_right_eq_some.1 hs).2 hp .takenBack
    · exact moves_setPc (Option.ite_none_right_eq_some.1 hs).2 hp .released
    · cases hs
  | ipcExpired c =>
    simp only [step] at hs
    split at hs <;> rename_i hp
    · exact moves_setPc hs hp (.ipcExpired (.inl ⟨rfl, hp⟩))
    · exact moves_setPc hs hp .takenBack
    · exact moves_setPc hs hp .released
    · cases hs
  | get c =>
    obtain ⟨hp, hs⟩ := Option.ite_none_right_eq_some.1 hs
    exact moves_setPc hs hp .get
  | timeout c =>
    obtain ⟨hp, hs⟩ := Option.ite_none_right_eq_some.1 hs
    exact moves_setPc hs hp .timeout
  | back c written =>
    obtain ⟨hp, hs⟩ := Option.ite_none_right_eq_some.1 hs
    cases written with
    | true => exact moves_write hs hp .back
    | false => exact moves_setPc hs hp (.notBack (.inr rfl))
  | release c written =>
    obtain ⟨hp, hs⟩ := Option.ite_none_right_eq_some.1 hs
    cases written with
    | true => exact moves_write hs hp .release
    | false => exact Option.some.inj hs ▸ .inl ⟨rfl, rfl⟩
  | serve =>
    simp only [step] at hs
    split at hs
    · cases hs
    · rename_i e rest hq
      cases hs
      refine .inl ⟨rfl, funext fun d => ?_⟩
      simp only [reqs, hq, List.append_assoc, List.singleton_append]
  | serverTasks cnt => exact Option.some.inj hs ▸ .inl ⟨rfl, rfl⟩

theorem CallPc.Sent.step (h : (s.pc d).Sent F d (s.reqs d)) (hs : s.step n a = some s')
    (h0 : F []) (h2 : F [(d, .enter), (d, .leave)]) (h1 : GivesUp d s a → F [(d, .enter)]) :
    (s'.pc d).Sent F d (s'.reqs d) := by
  rcases AmpClient.step_moves hs with ⟨hp, hr⟩ | ⟨c, ms, q, hm, hp, hr⟩
  · rw [hp, hr]
    exact h
  · rw [hp, hr]
    by_cases hd : d = c
    · subst hd
      rw [update_self, update_self]
      exact h.move hm h0 h2 h1
    · rw [update_of_ne hd, update_of_ne hd]
      exact h

/-! ### The server's count -/

theorem serveReq_reqCnt {r : AmpResSync} (hi : r.inited = true) (hn : 1 < n) (e : Nat × Mark) :
    (serveReq n r e).inited = true ∧ ((serveReq n r e).reqCnt 1).toNat = count (2 ^ 16) (r.reqCnt 1).toNat e := by
  obtain ⟨c, m⟩ := e
  cases m with
  | enter =>
    simp only [serveReq, ampResAcquireCnt_ok hi hn, count]
    refine ⟨hi, ?_⟩
    rw [AmpResSync.setReqCnt_reqCnt, update_self, BitVec.toNat_add]
    rfl
  | leave =>
    simp only [serveReq, count]
    by_cases hpos : 0 < r.reqCnt 1
    · rw [ampResReleaseCnt_ok hi hn hpos]
      refine ⟨hi, ?_⟩
      have hpos' : 0 < (r.reqCnt 1).toNat := BitVec.lt_def.1 hpos
      have hsub := toNat_sub_one hpos'
      rw [if_pos hpos']
      simp only [AmpResSync.setReqCnt_reqCnt, update_self]
      omega
    · rw [ampResReleaseCnt_fail hi hn hpos]
      have hpos' : ¬ 0 < (r.reqCnt 1).toNat := fun h => hpos (BitVec.lt_def.2 h)
      rw [if_neg hpos']
      exact ⟨hi, rfl⟩

theorem replay_reqCnt {r : AmpResSync} (hi : r.inited = true) (h0 : r.reqCnt 1 = 0) (hn : 1 < n)
    (l : List (Nat × Mark)) :
    (replay n r l).inited = true ∧ ((replay n r l).reqCnt 1).toNat = value (2 ^ 16) l := by
  induction l using List.reverseRecOn with
  | nil => exact ⟨hi, by rw [replay, List.foldl_nil, h0]; rfl⟩
  | append_singleton l e ih =>
    have hs := serveReq_reqCnt ih.1 hn e
    rw [value_snoc, ← ih.2, replay, List.foldl_append]
    exact hs

/-- An acquire request that is processed in this step does not bring the `u16` count back to 0. -/
def CountFits (s : AmpClient) (a : ClientAct) : Prop :=
  a = .serve → s.queue.head?.map (·.2) = some .enter → (s.sync.reqCnt 1).toNat + 1 < 2 ^ 16

instance (s : AmpClient) (a : ClientAct) : Decidable (CountFits s a) := inferInstanceAs (Decidable (_ → _ → _))

instance (c : Nat) (s : AmpClient) (a : ClientAct) : Decidable (GivesUp c s a) := inferInstanceAs (Decidable (_ ∨ _))

structure ClientInv (s : AmpClient) : Prop where
  sent : ∀ d, (s.pc d).Sent (· <+: [(d, .enter), (d, .leave)]) d (s.reqs d)
  inited : s.sync.inited = true
  cnt : (s.sync.reqCnt 1).toNat = value (2 ^ 16) s.log
  fits : Bounded (2 ^ 16) s.log

theorem ClientInv.paired (h : ClientInv s) : Paired (s.log ++ s.queue) := by
  intro d
  have hs := h.sent d
  show s.reqs d <+: _
  cases hp : s.pc d <;> rw [hp] at hs
  case failed => exact hs
  all_goals rw [show s.reqs d = _ from hs]
  case none => exact List.nil_prefix
  case acqReq | wait | expired | hold => exact ⟨[(d, .leave)], rfl⟩

theorem ClientInv.paired_log (h : ClientInv s) : Paired s.log := h.paired.before (List.prefix_append _ _)

theorem step_server (hs : s.step n a = some s') :
    (∃ e rest, a = .serve ∧ s.queue = e :: rest ∧ s'.log = s.log ++ [e] ∧ s'.sync = serveReq n s.sync e) ∨
      s'.log = s.log ∧ s'.sync.inited = s.sync.inited ∧ s'.sync.reqCnt 1 = s.sync.reqCnt 1 := by
  cases a with
  | serve =>
    simp only [AmpClient.step] at hs
    split at hs
    · cases hs
    · rename_i e rest hq
      cases hs
      exact .inl ⟨e, rest, rfl, hq, rfl, rfl⟩
  | serverTasks cnt =>
    cases hs
    exact .inr ⟨rfl, rfl, by simp⟩
  | _ =>
    right
    simp only [AmpClient.step] at hs
    repeat' split at hs
    all_goals cases hs
    all_goals exact ⟨rfl, rfl, rfl⟩

theorem ClientInv.fits_serve (h : ClientInv s) {e : Nat × Mark}
    (hw : e.2 = .enter → (s.sync.reqCnt 1).toNat + 1 < 2 ^ 16) :
    Bounded (2 ^ 16) (s.log ++ [e]) := by
  intro p hp
  have hlt := h.fits _ (List.prefix_refl _)
  have hval := h.paired_log.value_add_leaves h.fits
  rw [← h.cnt] at hval
  rcases List.prefix_concat_iff.1 hp with rfl | hp
  · obtain ⟨c, m⟩ := e
    cases m with
    | enter =>
      have hw := hw rfl
      simp only [enters, leaves, List.countP_append, List.countP_cons, List.countP_nil] at hlt hval ⊢
      simp only [decide_true, reduceCtorEq, decide_false, Bool.false_eq_true, ↓reduceIte]
      omega
    | leave =>
      simp only [enters, leaves, List.countP_append, List.countP_cons, List.countP_nil] at hlt ⊢
      simp only [decide_true, reduceCtorEq, decide_false, Bool.false_eq_true, ↓reduceIte]
      omega
  · exact h.fits p hp

theorem ClientInv.step (hn : 1 < n) (h : ClientInv s) (hw : CountFits s a)
    (hs : s.step n a = some s') : ClientInv s' := by
  have hsent : ∀ d, (s'.pc d).Sent (· <+: [(d, .enter), (d, .leave)]) d (s'.reqs d) := fun d =>
    (h.sent d).step hs List.nil_prefix (List.prefix_refl _) fun _ => ⟨[(d, .leave)], rfl⟩
  rcases step_server hs with ⟨e, rest, rfl, hq, hl, hr⟩ | ⟨hl, hi, hr⟩
  · have hcnt := serveReq_reqCnt h.inited hn e
    refine ⟨hsent, by rw [hr]; exact hcnt.1, ?_, ?_⟩
    · rw [hr, hl, value_snoc, ← h.cnt]
      exact hcnt.2
    · rw [hl]
      refine h.fits_serve fun he => hw rfl ?_
      rw [hq, List.head?_cons, Option.map_some, he]
  · exact ⟨hsent, by rw [hi]; exact h.inited, by rw [hr, hl]; exact h.cnt, by rw [hl]; exact h.fits⟩

theorem ClientInv.init {r : AmpResSync} (hi : r.inited = true) (h0 : r.reqCnt 1 = 0) : ClientInv (.init r) where
  sent _ := rfl
  inited := hi
  cnt := by
    show (r.reqCnt 1).toNat = 0
    rw [h0]
    rfl
  fits p hp := by
    rw [List.prefix_nil.1 hp]
    exact Nat.two_pow_pos 16

end

section
variable {n : Nat} {r : AmpResSync} {s : AmpClient}

/-- If call `c` does not give up between its two requests, fails, and its requests are processed, the server's count is
as without it. -/
theorem reqCnt_without_call (hn : 1 < n) (hi : r.inited = true) (h0 : r.reqCnt 1 = 0) (c : Nat)
    (hr : Run (AmpClient.step n) (fun s a => CountFits s a ∧ ¬ GivesUp c s a) (.init r) s)
    (hf : s.pc c = .failed) (hq : ∀ e ∈ s.queue, e.1 ≠ c) :
    s.sync.reqCnt 1 = (replay n r (without s.log c)).reqCnt 1 := by
  have hinv : ClientInv s :=
    hr.invariant (.init hi h0) fun _ _ _ _ h hok hs => h.step hn hok.1 hs
  -- a call that failed has sent both requests or none
  have hboth : (s.pc c).Sent (fun l => l = [] ∨ l = [(c, .enter), (c, .leave)]) c (s.reqs c) := by
    refine hr.invariant (I := fun s => (s.pc c).Sent (fun l => l = [] ∨ l = [(c, .enter), (c, .leave)]) c (s.reqs c))
      rfl fun t u a _ h hok hs => ?_
    exact h.step hs (.inl rfl) (.inr rfl) fun hg => absurd hg hok.2
  rw [hf] at hboth
  have hlog : of s.log c = s.reqs c := by
    have hnil : s.queue.filter (·.1 = c) = [] := List.filter_eq_nil_iff.2 fun e he => by simpa using hq e he
    rw [AmpClient.reqs, of, of, List.filter_append, hnil, List.append_nil]
  have hval := hinv.paired_log.value_without hinv.fits c
  rw [hlog, if_neg (by rcases hboth with h | h <;> rw [h] <;> simp)] at hval
  refine BitVec.eq_of_toNat_eq ?_
  rw [hinv.cnt, (replay_reqCnt hi h0 hn _).2, hval, Nat.add_zero]

end

def freshSync : AmpResSync := ⟨true, 0, fun _ => 0⟩

theorem reqCnt_without_call_timeout : ∃ s : AmpClient,
    Run (AmpClient.step 3) (fun s a => CountFits s a ∧ ¬ GivesUp 0 s a) (.init freshSync) s ∧ s.pc 0 = .failed ∧
      s.sync.reqCnt 1 = 1 ∧ s.sync.reqCnt 1 = (replay 3 freshSync (without s.log 0)).reqCnt 1 := by
  refine Run.of_exec_imp (p := fun s => s.pc 0 = .failed ∧ (∀ e ∈ s.queue, e.1 ≠ 0) ∧ s.sync.reqCnt 1 = 1)
    [.acquire 0 true, .serve, .acquire 1 true, .answer 0, .serve, .timeout 0, .back 0 true, .serve,
      .answer 0, .answer 1]
    (by decide) ?_
  rintro s hr ⟨hf, hq, h1⟩
  exact ⟨hf, h1, reqCnt_without_call (by decide) rfl rfl 0 hr hf hq⟩

/-- The answer to the acquire request comes after the timeout of `ipc_send_cmd`: its request stays counted for ever. -/
theorem reqCnt_of_acquire_unanswered : ∃ s : AmpClient,
    Run (AmpClient.step 3) (fun _ _ => True) (.init freshSync) s ∧ s.pc 0 = .failed ∧ s.queue = [] ∧
      s.sync.reqCnt 1 = 1 ∧ (replay 3 freshSync (without s.log 0)).reqCnt 1 = 0 :=
  Run.of_exec [.acquire 0 true, .ipcExpired 0, .serve] (by decide)

end Bk7258

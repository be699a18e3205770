import AssetLoading.Proofs.Tasks.Easing
import AssetLoading.Proofs.Unwinding.Claims

/-! # Waiting for tasks of a priority

  Whoever waits until every task at or below a priority is done looks at the most urgent
  priority of all tasks, which is the largest number when there are none. So the wait is
  for the tasks that wait or are claimed, but a wait for the largest number is never over,
  not even on an idle scheduler.

  Without workers the main thread advances one task in each update. As long as its
  updates return and no task joins the queue, every wait is over after no more updates
  than the waiting tasks have turns left, unless it is for the largest number or for a
  task that was left claimed when its callback was cut short.
-/

namespace AssetLoading

/-! ### What is waited for -/

theorem foldl_min_le_iff (least p : Int32) (ps : List Int32) :
    ps.foldl (fun least p => if p < least then p else least) least ≤ p ↔
      least ≤ p ∨ ∃ q ∈ ps, q ≤ p := by
  induction ps generalizing least with
  | nil => simp
  | cons q ps ih =>
    have hmin : (if q < least then q else least) ≤ p ↔ least ≤ p ∨ q ≤ p := by
      split
      next hlt =>
        refine ⟨.inr, fun h => h.elim (fun hle => ?_) id⟩
        exact Int32.le_trans (Int32.le_of_lt hlt) hle
      next hge =>
        refine ⟨.inl, fun h => h.elim id fun hle => ?_⟩
        exact Int32.le_trans (Int32.not_lt.1 hge) hle
    rw [List.foldl_cons, ih, hmin, List.exists_mem_cons_iff, or_assoc]

theorem largest_le_iff (p : Int32) : 2147483647 ≤ p ↔ p = 2147483647 := by
  have hlargest : (2147483647 : Int32).toInt = 2147483647 := rfl
  have hlt := p.toInt_lt
  rw [Int32.le_iff_toInt_le, ← Int32.toInt_inj, hlargest]
  omega

/-- A wait for the tasks at or below a priority is open as long as one of them waits or
is claimed, and for the largest number always. -/
theorem Goal.isOpen_doneTo_iff (s : State) (priority : Int32) :
    (Goal.doneTo priority).isOpen s = true ↔ priority = 2147483647 ∨
      (∃ e ∈ s.queue.pending, e.priority ≤ priority) ∨ ∃ c ∈ s.queue.active, c.priority ≤ priority := by
  have hopen : (Goal.doneTo priority).isOpen s = true ↔ s.queue.currentPriority ≤ priority :=
    decide_eq_true_iff
  rw [hopen, TaskQueue.currentPriority, foldl_min_le_iff, largest_le_iff]
  simp only [List.mem_append, List.mem_map, or_and_right, exists_or]
  simp only [exists_exists_and_eq_and]

/-! ### Waits that are over at once -/

section Waiting

variable {fuel : Nat} {s t : State} {thread : Thread} {priority : Int32}

/-- A wait whose goal is met returns at once and changes nothing. -/
theorem performOn_blockForPriority_of_met (hthread : ∀ number, thread ≠ .worker number)
    (hmet : (Goal.doneTo priority).isOpen s = false) :
    performOn (fuel + 1) s thread (.blockForPriority priority) = (.answered .nothing, s) := by
  have hwait (w : Thread) : waitFor (run (fuel + 1)) w (.doneTo priority) (fuel + 1) s = .ok () s := by
    unfold waitFor
    split
    · show (if (Goal.doneTo priority).isOpen s then _ else pure () : Exec Unit) s = _
      rw [hmet]
      rfl
    · show (if (Goal.doneTo priority).isOpen s then _ else pure () : Exec Unit) s = _
      rw [hmet]
      rfl
  have hblock : blockForPriority (run (fuel + 1)) thread priority (fuel + 1) s = .ok () s := by
    cases thread with
    | worker number => exact absurd rfl (hthread number)
    | main => exact hwait .main
    | other => exact hwait .other
  have hrun : (Op.blockForPriority priority).perform (fuel + 1) { thread } s = .ok .nothing s :=
    Exec.bind_of_ok hblock
  unfold performOn EStateM.run
  rw [hrun]

/-- A wait for the largest number never returns. -/
theorem never_answered_largest {reply : Reply} :
    performOn fuel s thread (.blockForPriority 2147483647) ≠ (.answered reply, t) := by
  intro h
  have hmet := isOpen_of_blockForPriority h
  rw [(Goal.isOpen_doneTo_iff t 2147483647).2 (.inl rfl)] at hmet
  cases hmet

end Waiting

/-! ### Sessions without help -/

/-- So far nobody has helped the main thread with tasks. -/
def State.IsSolo (s : State) : Prop :=
  s.history.countP Event.aids = 0

theorem State.IsSolo.without {s t : State} (ht : t.IsSolo) (hst : s.history <:+ t.history) :
    s.IsSolo ∧ s.Without Event.aids t := by
  have hle : s.history.countP Event.aids ≤ t.history.countP Event.aids := hst.sublist.countP_le
  unfold IsSolo at ht
  unfold IsSolo Without
  omega

theorem Session.plain_start (p : Session) : p.start.IsPlain := by
  unfold Session.start
  dsimp only
  split <;> exact ⟨rfl, fun _ he => absurd he List.not_mem_nil⟩

theorem Session.workers_start (p : Session) (hsingle : p.start.settings.isSingleThreaded = true) :
    p.start.workers = 0 := by
  unfold Session.start at hsingle ⊢
  dsimp only at hsingle ⊢
  have hnone : p.settings.isSingleThreaded = true → (if p.mode = .pool then p.workers else 0) = 0 := by
    intro hnone
    split
    next hpool =>
      have hworkers : (if p.mode = .single then 0 else p.workers) = 0 :=
        Option.some.inj (eq_of_beq hnone)
      rwa [hpool] at hworkers
    next => rfl
  split at hsingle
  next hmode =>
    rw [if_pos hmode]
    exact hnone hsingle
  next hmode =>
    rw [if_neg hmode]
    exact hnone hsingle

section Calling

variable {s t : State} {fuel : Nat} {thread : Thread}

/-- Between calls, as long as nobody has helped, no waiting task is in anybody's hand. -/
theorem Called.plain (h : Called s) (hs : s.IsSolo) : s.IsPlain ∧
    (s.settings.isSingleThreaded = true → s.workers = 0) := by
  induction h with
  | start p => exact ⟨p.plain_start, p.workers_start⟩
  | @call s t fuel thread op outcome _ hop hrun hout ih =>
    have hstays : StaysFrom (State.Eases True 0 []) True s (op.perform fuel { thread }) :=
      stays_perform (drives_eases True) fuel { thread } hop s
    have heases : s.Eases True 0 [] t := hstays.performed hrun
    obtain ⟨hsolo, hnone⟩ := hs.without heases.lasts.history
    obtain ⟨hplain, hworkers⟩ := ih hsolo
    refine ⟨heases.plain hnone hplain, fun hsingle => heases.lasts.workers (hworkers ?_)⟩
    rw [← heases.lasts.settings]
    exact hsingle

/-- Updates that return ease things. -/
theorem eases_of_updates {n : Nat} (h : updates (run fuel) thread n s = .ok () t) :
    s.Eases False 0 [] t :=
  ((Stays.drivingParts (drives_eases False) (run_stays (drives_eases False).steers fuel)).updates
    thread n s).returned h

end Calling

/-! ### Updates take turns -/

section Updating

variable {s t : State} {fuel : Nat}

/-- Where no waiting task carries a job, a task can be taken up as long as one waits. -/
theorem State.IsPlain.pending_eq_nil (hs : s.IsPlain) (hq : s.queue.acquire s.runnable = none) :
    s.queue.pending = [] := by
  refine List.eq_nil_iff_forall_not_mem.2 fun e he => ?_
  have hrunnable : s.runnable e = true := by
    unfold State.runnable Entry.isRunnable
    rw [hs.jobs e he]
    split
    next hjob => cases hjob
    next => rfl
  unfold TaskQueue.acquire at hq
  split at hq
  next hfind => exact absurd hrunnable (by simpa using List.find?_eq_none.1 hfind e he)
  next => cases hq

/-- An update on a scheduler without workers gives a task a turn, if one can be taken up.
What comes before the turn and after it has nothing to do with tasks. -/
theorem turn_of_update {R : State → State → Prop} (hsteers : Steers R False)
    (hsingle : s.settings.isSingleThreaded = true) (hrun : update (run fuel) .main s = .ok () t) :
    ∃ r, R s r ∧ r.Lasts t ∧ (r.queue.acquire r.runnable = none ∧ R r t ∨
      ∃ e queue v, r.queue.acquire r.runnable = some (e, queue) ∧
        stepTask (run fuel) .main e (r.withQueue queue) = .ok () v ∧ R v t) := by
  unfold update at hrun
  rw [if_neg (not_not_intro rfl)] at hrun
  obtain ⟨_, q, hflush, hrun⟩ := Exec.bind_eq_ok hrun
  obtain ⟨_, r, hdrain, hrun⟩ := Exec.bind_eq_ok hrun
  obtain ⟨_, _, hlook, hrun⟩ := Exec.bind_eq_ok hrun
  cases hlook
  -- what comes before a task is taken up, and what comes after
  have hbefore {P : State → State → Prop} (h : Steers P False) : P s r :=
    h.trans (((Stays.registryParts h.toPermits (run_stays h fuel)).flush _ s).returned hflush)
      ((stays_drainJobs h.toRunsJobs (run_stays h fuel) _ q).returned hdrain)
  have hafter {P : State → State → Prop} (h : Steers P False) {v : State}
      (hv : (do let _ ← deliver (run fuel) .main : Exec Unit) v = .ok () t) : P v t :=
    (Stays.bind h.toPermits ((Stays.noticeParts h.toPermits (run_stays h fuel)).deliver .main)
      (fun _ => .pure h.toPermits _) v).returned hv
  have hlasts : Steers State.Lasts False := permitsTasks_lasts.drives.steers
  rw [(hbefore hlasts).settings, if_pos hsingle] at hrun
  cases hq : r.queue.acquire r.runnable with
  | none =>
    have hend := (Exec.bind_of_ok (acquireTask_of_eq_none hq)).symm.trans hrun
    exact ⟨r, hbefore hsteers, hafter hlasts hend, .inl ⟨hq, hafter hsteers hend⟩⟩
  | some claimed =>
    obtain ⟨e, queue⟩ := claimed
    obtain ⟨_, v, hstep, hend⟩ :=
      Exec.bind_eq_ok ((Exec.bind_of_ok (acquireTask_of_eq_some hq)).symm.trans hrun)
    have hstepped : (r.withQueue queue).Lasts v :=
      (permitsTasks_lasts.stays_stepTask (run_stays hlasts fuel) .main e _).returned hstep
    refine ⟨r, hbefore hsteers, ?_, .inr ⟨e, queue, v, hq, hstep, hafter hsteers hend⟩⟩
    exact ((permitsTasks_lasts.queue r queue).trans hstepped).trans (hafter hlasts hend)

/-- An update on a scheduler without workers takes a turn of a waiting task, if there is
one. -/
theorem turnsLeft_of_update (hsingle : s.settings.isSingleThreaded = true) (hs : s.IsPlain)
    (hrun : update (run fuel) .main s = .ok () t) (hnone : s.Without Event.aids t)
    (hnew : s.Without Event.isAcceptance t) : t.queue.turnsLeft ≤ s.queue.turnsLeft - 1 := by
  have hsteers := (drives_eases False).steers
  obtain ⟨r, hbefore, hlasts, hturn⟩ := turn_of_update hsteers hsingle hrun
  obtain ⟨hfirst, hthen⟩ := hnone.split hbefore.lasts.history hlasts.history
  obtain ⟨hnewFirst, hnewThen⟩ := hnew.split hbefore.lasts.history hlasts.history
  have hplain := hbefore.plain hfirst hs
  rcases hturn with ⟨hq, hafter⟩ | ⟨e, queue, v, hq, hstep, hafter⟩
  · have hempty : r.queue.turnsLeft = 0 := by
      unfold TaskQueue.turnsLeft
      rw [hplain.pending_eq_nil hq]
      rfl
    have hle := hafter.turns hthen hplain hnewThen
    omega
  · have hstays := stays_stepping (run_stays hsteers fuel) (hplain.acquired hq).1
    have heases := ((hstays _).returned hstep).before hafter
    have hlt := turnsLeft_of_acquired hq hplain heases hthen hnewThen
    have hle := hbefore.turns hfirst hs hnewFirst
    omega

/-- As many updates take as many turns. -/
theorem turnsLeft_of_updates (hsingle : s.settings.isSingleThreaded = true) (hs : s.IsPlain) {n : Nat}
    (hrun : updates (run fuel) .main n s = .ok () t) (hnone : s.Without Event.aids t)
    (hnew : s.Without Event.isAcceptance t) : t.queue.turnsLeft ≤ s.queue.turnsLeft - n := by
  induction n generalizing s with
  | zero =>
    cases hrun
    exact Nat.le_refl _
  | succ n ih =>
    obtain ⟨_, r, hfirst, hrest⟩ := Exec.bind_eq_ok hrun
    have hone : updates (run fuel) .main 1 s = .ok () r := Exec.bind_of_ok hfirst
    have hbefore := eases_of_updates hone
    have hafter := eases_of_updates hrest
    obtain ⟨hnoneFirst, hnoneThen⟩ := hnone.split hbefore.lasts.history hafter.lasts.history
    obtain ⟨hnewFirst, hnewThen⟩ := hnew.split hbefore.lasts.history hafter.lasts.history
    have hsingle' : r.settings.isSingleThreaded = true := by
      rw [hbefore.lasts.settings]
      exact hsingle
    have hturn := turnsLeft_of_update hsingle hs hfirst hnoneFirst hnewFirst
    have hrest' := ih hsingle' (hbefore.plain hnoneFirst hs) hrest hnoneThen hnewThen
    omega

/-- Updates that return leave the same tasks claimed. -/
theorem mem_active_of_updates (hs : Called s) (hplain : s.IsPlain) {n : Nat}
    (hrun : updates (run fuel) .main n s = .ok () t) (hnone : s.Without Event.aids t) {c : Claimed} :
    c ∈ t.queue.active ↔ c ∈ s.queue.active := by
  have hgoesOn : s.GoesOn t := by
    refine ⟨fuel, .main, .step n, .answered .nothing, ?_, rfl⟩
    have hstep : (Op.step n).perform fuel { thread := .main } s = .ok .nothing t := Exec.bind_of_ok hrun
    unfold performOn EStateM.run
    rw [hstep]
  have hkept (d : Claimed) (hd : d ∈ s.queue.active) : d ∈ t.queue.active := by
    have hhands : (⟨[], s⟩ : Moment).hands = [] := by
      unfold Moment.hands Client.inHand
      rw [hplain.claims]
      rfl
    refine (hgoesOn.strands (c := d) ⟨hs.custody, ?_⟩).mem
    rw [hhands]
    exact List.count_pos_iff.2 hd
  -- the other way round, the claims are as many, and no number is claimed twice
  refine ⟨fun hc => ?_, hkept c⟩
  have hids := (eases_of_updates hrun).claimed hnone hplain not_false (List.nil_subset _)
  obtain ⟨d, hd, hid⟩ := List.mem_map.1 (hids.subset (List.mem_map_of_mem hc))
  obtain rfl : d = c :=
    List.inj_on_of_nodup_map (hgoesOn.custody hs.custody).active_nodup (hkept d hd) hc hid
  exact hd

/-- One round of a wait without workers is an update. -/
theorem updateUntil_of_update {call : Runner} {goal : Goal} (hopen : goal.isOpen s = true)
    (hrun : update call .main s = .ok () t) (hworkers : t.workers = 0) :
    updateUntil call goal (fuel + 1) s = updateUntil call goal fuel t := by
  have hidle : workerTurn call t = .ok false t := by
    show (if t.workers = 0 then pure false else _ : Exec Bool) t = _
    rw [if_pos hworkers]
    rfl
  show (if goal.isOpen s then _ else pure () : Exec Unit) s = _
  rw [hopen, if_pos rfl]
  refine (Exec.bind_of_ok hrun).trans ?_
  show (if goal.isOpen t then _ else updateUntil call goal fuel : Exec Unit) t = _
  split
  · exact Exec.bind_of_ok hidle
  · rfl

/-- Without workers a wait is over after some update, if it is after a number of them. -/
theorem updateUntil_of_updates {call : Runner} {goal : Goal} {k fuel : Nat} (hfuel : k < fuel)
    (hreturns : ∀ n ≤ k, ∃ t, updates call .main n s = .ok () t ∧ t.workers = 0)
    (hmet : ∀ t, updates call .main k s = .ok () t → goal.isOpen t = false) :
    ∃ n ≤ k, ∃ t, updates call .main n s = .ok () t ∧ updateUntil call goal fuel s = .ok () t := by
  obtain ⟨fuel, rfl⟩ := Nat.exists_eq_succ_of_ne_zero (Nat.ne_of_gt (Nat.zero_lt_of_lt hfuel))
  have hnow (hclosed : goal.isOpen s = false) : updateUntil call goal (fuel + 1) s = .ok () s := by
    show (if goal.isOpen s then _ else pure () : Exec Unit) s = _
    rw [hclosed]
    rfl
  induction k generalizing s fuel with
  | zero => exact ⟨0, Nat.le_refl 0, s, rfl, hnow (hmet s rfl)⟩
  | succ k ih =>
    cases hopen : goal.isOpen s with
    | false => exact ⟨0, Nat.zero_le _, s, rfl, hnow hopen⟩
    | true =>
      -- the first update is a round of the wait, and the rest follows from there
      obtain ⟨r, hr, hworkers⟩ := hreturns 1 (Nat.succ_le_succ (Nat.zero_le k))
      obtain ⟨_, r, hupdate, hend⟩ := Exec.bind_eq_ok hr
      cases hend
      have hrest (n : Nat) : updates call .main (n + 1) s = updates call .main n r :=
        Exec.bind_of_ok hupdate
      obtain ⟨fuel, rfl⟩ := Nat.exists_eq_succ_of_ne_zero (Nat.ne_of_gt
        (Nat.zero_lt_of_lt (Nat.lt_of_succ_lt_succ hfuel)))
      have hnext (hclosed : goal.isOpen r = false) :
          updateUntil call goal (fuel + 1) r = .ok () r := by
        show (if goal.isOpen r then _ else pure () : Exec Unit) r = _
        rw [hclosed]
        rfl
      obtain ⟨n, hn, t, ht, hwait⟩ := ih
        (fun n hn => hrest n ▸ hreturns (n + 1) (Nat.succ_le_succ hn))
        (fun t ht => hmet t ((hrest k).trans ht)) fuel (Nat.lt_of_succ_lt_succ hfuel) hnext
      exact ⟨n + 1, Nat.succ_le_succ hn, t, (hrest n).trans ht,
        (updateUntil_of_update hopen hupdate hworkers).trans hwait⟩

end Updating

/-- The wait for the tasks at or below a priority is open exactly if one of them waits or
is claimed, or the priority is the largest number. A wait that is over returns at once
and changes nothing, and one for the largest number never returns. Without workers, let
the updates return, as many as the waiting tasks have turns left, and let nobody help the
main thread and no task join the queue meanwhile. Then a wait returns exactly if it is
not for the largest number and no task at or below the priority was left claimed, and it
returns after no more updates than there are turns left. -/
theorem waits_for_priority (s : State) (fuel : Nat) (priority : Int32) :
    ((Goal.doneTo priority).isOpen s = true ↔ priority = 2147483647 ∨
      (∃ e ∈ s.queue.pending, e.priority ≤ priority) ∨ ∃ c ∈ s.queue.active, c.priority ≤ priority) ∧
    (∀ thread, (∀ number, thread ≠ .worker number) → (Goal.doneTo priority).isOpen s = false →
      performOn (fuel + 1) s thread (.blockForPriority priority) = (.answered .nothing, s)) ∧
    (∀ thread reply t,
      performOn fuel s thread (.blockForPriority 2147483647) ≠ (.answered reply, t)) ∧
    (Called s → s.IsSolo → s.settings.isSingleThreaded = true → s.queue.turnsLeft < fuel →
      (∀ n ≤ s.queue.turnsLeft, ∃ t, updates (run fuel) .main n s = .ok () t ∧ t.IsSolo ∧
        s.Without Event.isAcceptance t) →
      ((∃ reply t, performOn fuel s .main (.blockForPriority priority) = (.answered reply, t)) ↔
        priority ≠ 2147483647 ∧ ∀ c ∈ s.queue.active, ¬ c.priority ≤ priority) ∧
      ∀ reply t, performOn fuel s .main (.blockForPriority priority) = (.answered reply, t) →
        ∃ n ≤ s.queue.turnsLeft, updates (run fuel) .main n s = .ok () t) := by
  refine ⟨Goal.isOpen_doneTo_iff s priority, fun thread => performOn_blockForPriority_of_met,
    fun thread reply t => never_answered_largest, ?_⟩
  intro hs hsolo hsingle hfuel hreturns
  obtain ⟨hplain, hworkers⟩ := hs.plain hsolo
  have hidle {n : Nat} {t : State} (ht : updates (run fuel) .main n s = .ok () t) : t.workers = 0 :=
    (eases_of_updates ht).lasts.workers (hworkers hsingle)
  have hanswers (hpriority : priority ≠ 2147483647)
      (hclaimed : ∀ c ∈ s.queue.active, ¬ c.priority ≤ priority) :
      ∃ n ≤ s.queue.turnsLeft, ∃ t, updates (run fuel) .main n s = .ok () t ∧
        performOn fuel s .main (.blockForPriority priority) = (.answered .nothing, t) := by
    -- all turns are taken in the end, so no task waits any more
    have hmet (t : State) (ht : updates (run fuel) .main s.queue.turnsLeft s = .ok () t) :
        (Goal.doneTo priority).isOpen t = false := by
      obtain ⟨r, hr, hsolo', hnew⟩ := hreturns _ (Nat.le_refl _)
      obtain rfl : r = t := (EStateM.Result.ok.inj (hr.symm.trans ht)).2
      have hnone := (hsolo'.without (eases_of_updates hr).lasts.history).2
      have hturns := turnsLeft_of_updates hsingle hplain hr hnone hnew
      rw [Nat.sub_self] at hturns
      have hpending := TaskQueue.pending_eq_nil (Nat.le_zero.1 hturns)
      rw [Bool.eq_false_iff, Ne, Goal.isOpen_doneTo_iff]
      rintro (hlargest | ⟨e, he, -⟩ | ⟨c, hc, hle⟩)
      · exact hpriority hlargest
      · rw [hpending] at he
        cases he
      · exact hclaimed c ((mem_active_of_updates hs hplain hr hnone).1 hc) hle
    obtain ⟨n, hn, t, ht, hwait⟩ := updateUntil_of_updates hfuel
      (fun n hn => (hreturns n hn).imp fun t ht => ⟨ht.1, hidle ht.1⟩) hmet
    refine ⟨n, hn, t, ht, ?_⟩
    have hrun : (Op.blockForPriority priority).perform fuel { thread := .main } s = .ok .nothing t :=
      Exec.bind_of_ok (x := blockForPriority (run fuel) .main priority fuel) hwait
    unfold performOn EStateM.run
    rw [hrun]
  have hneeds {reply : Reply} {t : State}
      (h : performOn fuel s .main (.blockForPriority priority) = (.answered reply, t)) :
      priority ≠ 2147483647 ∧ ∀ c ∈ s.queue.active, ¬ c.priority ≤ priority := by
    refine ⟨?_, fun c hc hle => ?_⟩
    · rintro rfl
      exact never_answered_largest h
    · -- a claim between calls is nobody's any more, so it is never given back
      have hhands : (⟨[], s⟩ : Moment).hands = [] := by
        unfold Moment.hands Client.inHand
        rw [hplain.claims]
        rfl
      have hstrands : (⟨[], s⟩ : Moment).Strands c :=
        ⟨hs.custody, hhands ▸ List.count_pos_iff.2 hc⟩
      exact hstrands.never_answered hle h
  refine ⟨⟨fun ⟨_, _, h⟩ => hneeds h, fun ⟨hpriority, hclaimed⟩ => ?_⟩, fun reply t h => ?_⟩
  · obtain ⟨-, -, t, -, h⟩ := hanswers hpriority hclaimed
    exact ⟨_, t, h⟩
  · obtain ⟨hpriority, hclaimed⟩ := hneeds h
    obtain ⟨n, hn, r, hr, hanswer⟩ := hanswers hpriority hclaimed
    obtain rfl : r = t := congrArg Prod.snd (hanswer.symm.trans h)
    exact ⟨n, hn, hr⟩

/-- A task with two actions that do nothing. -/
def quietPlan : TaskPlan Script where
  name := "quiet"
  asset := .labelled "mesh"
  priority := 5
  complexity := 0
  data := []
  actions := [⟨.worker, [], true⟩, ⟨.worker, [], true⟩]
  onFailure := none
  onFree := none

/-- The task waits on a scheduler without workers. -/
@[irreducible]
def quietQueued : State :=
  (Session.bare .single).start.after 8
    [(.main, .findOrCreate "mesh" (.standard .mesh) (.ofId ⟨1⟩)), (.main, .enqueue quietPlan)]

theorem called_quietQueued : Called quietQueued := by
  unfold quietQueued
  refine (Called.start _).after 8 fun op hop label wait => ?_
  simp only [List.mem_cons, List.not_mem_nil, or_false] at hop
  rcases hop with rfl | rfl
  · exact nofun
  · exact nofun

/-- A wait for the priority of the only task returns after at most two updates. -/
theorem quietQueued_waited : quietQueued.queue.turnsLeft = 2 ∧
    ∃ reply t, performOn 8 quietQueued .main (.blockForPriority 5) = (.answered reply, t) ∧
      ∃ n ≤ quietQueued.queue.turnsLeft, updates (run 8) .main n quietQueued = .ok () t := by
  have hturns : quietQueued.queue.turnsLeft = 2 := by decide +kernel
  have hnone : quietQueued.queue.active = [] := by decide +kernel
  have hreturns (n : Nat) (hn : n ≤ quietQueued.queue.turnsLeft) :
      ∃ t, updates (run 8) .main n quietQueued = .ok () t ∧ t.IsSolo ∧
        quietQueued.Without Event.isAcceptance t := by
    rw [hturns] at hn
    have hevents : (quietQueued.afterRun (updates (run 8) .main n)).history.countP Event.aids = 0 ∧
        (quietQueued.afterRun (updates (run 8) .main n)).history.countP Event.isAcceptance =
          quietQueued.history.countP Event.isAcceptance := by
      revert n
      decide +kernel
    obtain ⟨_, ht⟩ : ∃ a, updates (run 8) .main n quietQueued =
        .ok a (quietQueued.afterRun (updates (run 8) .main n)) :=
      State.run_of_isOk (by revert n; decide +kernel)
    exact ⟨_, ht, hevents⟩
  obtain ⟨-, -, -, hwaits⟩ := waits_for_priority quietQueued 8 5
  obtain ⟨hreturns, htakes⟩ := hwaits called_quietQueued (by unfold State.IsSolo; decide +kernel)
    (by decide +kernel) (hturns ▸ by decide) hreturns
  obtain ⟨reply, t, ht⟩ := hreturns.2 ⟨by decide, fun c hc => absurd hc (hnone ▸ List.not_mem_nil)⟩
  exact ⟨hturns, reply, t, ht, htakes reply t ht⟩

/-- On an idle scheduler, where no task waits or is claimed, a wait for the largest number
goes on for ever. -/
theorem wait_can_outlast_all_tasks :
    Called (Session.bare .single).start ∧ (Session.bare .single).start.queue.pending = [] ∧
      (Session.bare .single).start.queue.active = [] ∧
      (Session.bare .single).start.settings.isSingleThreaded = true ∧
      (Goal.doneTo 2147483647).isOpen (Session.bare .single).start = true ∧
      ∀ fuel thread reply t,
        performOn fuel (Session.bare .single).start thread (.blockForPriority 2147483647) ≠
          (.answered reply, t) :=
  ⟨.start _, by decide +kernel, by decide +kernel, by decide +kernel,
    (Goal.isOpen_doneTo_iff _ _).2 (.inl rfl), fun _ _ _ _ => never_answered_largest⟩

end AssetLoading

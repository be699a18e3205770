import AssetLoading.Proofs.Relations.Tasks
import AssetLoading.Proofs.Threads.Scripts
import AssetLoading.Proofs.Unwinding.Claims
import Mathlib.Algebra.Ring.Nat

/-! # What is left to do

  A task is advanced once for each action that is left, and once in the end if none is.
  As long as the main thread does the work on tasks alone, a waiting task is in nobody's
  hand and carries no job. Whatever code runs then, the turns that the waiting tasks have
  left only become more where a task is accepted, and each turn of a task takes one of
  them away. Code that returns leaves the same tasks claimed.
-/

namespace AssetLoading

/-! ### Turns that are left -/

/-- Number of times that a task has still to be advanced. -/
def Entry.turnsLeft (e : Entry) : Nat :=
  max 1 (e.actionCount - e.cursor)

/-- Number of times that the waiting tasks have still to be advanced. -/
def TaskQueue.turnsLeft (q : TaskQueue) : Nat :=
  (q.pending.map Entry.turnsLeft).sum

theorem Entry.turnsLeft_pos (e : Entry) : 0 < e.turnsLeft :=
  Nat.lt_of_lt_of_le Nat.one_pos (Nat.le_max_left _ _)

/-- A task that is not complete after its action has one turn less. -/
theorem Entry.turnsLeft_advanced {e : Entry} (he : e.advanced.isComplete = false) :
    e.advanced.turnsLeft + 1 = e.turnsLeft := by
  have hcount : e.advanced.actionCount = e.actionCount := rfl
  have hcursor : e.advanced.cursor = e.cursor + 1 := rfl
  unfold isComplete at he
  rw [decide_eq_false_iff_not, hcount, hcursor] at he
  unfold turnsLeft
  rw [hcount, hcursor]
  omega

theorem TaskQueue.pending_eq_nil {q : TaskQueue} (h : q.turnsLeft = 0) : q.pending = [] := by
  rcases List.eq_nil_or_concat q.pending with hnone | ⟨front, e, hsplit⟩
  · exact hnone
  · unfold turnsLeft at h
    rw [hsplit, List.concat_eq_append, List.map_append, List.sum_append] at h
    have hpos := e.turnsLeft_pos
    simp only [List.map_cons, List.map_nil, List.sum_cons, List.sum_nil] at h
    omega

/-! ### Between two states -/

/-- `true` for an event that tells that a task joined the queue. -/
def Event.isAcceptance : Event → Bool
  | .accepted .. => true
  | _ => false

/-- Between two states no event of a kind was recorded. -/
def State.Without (kind : Event → Bool) (s t : State) : Prop :=
  t.history.countP kind = s.history.countP kind

/-- No waiting task is with the client, and none carries a job. -/
structure State.IsPlain (s : State) : Prop where
  claims : s.client.claims = []
  jobs : ∀ e ∈ s.queue.pending, e.job = none

/-- The numbers of the claimed tasks. -/
def TaskQueue.claimedIds (q : TaskQueue) : List Nat :=
  q.active.map (·.id)

theorem State.Without.split {kind : Event → Bool} {r s t : State} (h : State.Without kind r t)
    (hrs : r.history <:+ s.history) (hst : s.history <:+ t.history) :
    State.Without kind r s ∧ State.Without kind s t := by
  have hfirst : r.history.countP kind ≤ s.history.countP kind := hrs.sublist.countP_le
  have hthen : s.history.countP kind ≤ t.history.countP kind := hst.sublist.countP_le
  unfold Without at h ⊢
  omega

/-- An event of the kind is recorded, and then other things happen. -/
theorem not_without_of_record {kind : Event → Bool} {s t : State} {e : Event} (he : kind e = true)
    (ht : (s.record e).history <:+ t.history) : ¬ s.Without kind t := by
  have hle : (s.record e).history.countP kind ≤ t.history.countP kind := ht.sublist.countP_le
  have hmore : (s.record e).history.countP kind = s.history.countP kind + 1 := List.countP_cons_of_pos he
  unfold State.Without
  omega

/-- A later state, with the same settings and no new workers. -/
structure State.Lasts (s t : State) : Prop where
  history : s.history <:+ t.history
  settings : t.settings = s.settings
  workers : s.workers = 0 → t.workers = 0

theorem State.Lasts.trans {r s t : State} (hrs : r.Lasts s) (hst : s.Lasts t) : r.Lasts t :=
  ⟨hrs.history.trans hst.history, hst.settings.trans hrs.settings, fun h => hst.workers (hrs.workers h)⟩

theorem State.Lasts.of_same {s t : State} (hhistory : s.history <:+ t.history)
    (hsettings : t.settings = s.settings) (hworkers : t.workers = s.workers) : s.Lasts t :=
  ⟨hhistory, hsettings, fun h => hworkers.trans h⟩

theorem permitsTasks_lasts : PermitsTasks State.Lasts where
  refl _ := .of_same List.suffix_rfl rfl rfl
  trans := State.Lasts.trans
  note _ e _ := .of_same (List.suffix_cons e _) rfl rfl
  assets _ _ := .of_same List.suffix_rfl rfl rfl
  registries _ _ := .of_same List.suffix_rfl rfl rfl
  notices _ _ := .of_same List.suffix_rfl rfl rfl
  files _ _ := .of_same List.suffix_rfl rfl rfl
  client _ _ _ _ := .of_same List.suffix_rfl rfl rfl
  data _ _ _ _ := .of_same List.suffix_rfl rfl rfl
  makeJob _ _ _ := .of_same List.suffix_rfl rfl rfl
  labelJob _ _ _ _ := .of_same List.suffix_rfl rfl rfl
  submitJob _ _ _ := .of_same List.suffix_rfl rfl rfl
  drainJobs _ := .of_same List.suffix_rfl rfl rfl
  startJob _ _ := .of_same List.suffix_rfl rfl rfl
  finishJob _ _ _ := .of_same List.suffix_rfl rfl rfl
  anything _ e := .of_same (List.suffix_cons e _) rfl rfl
  body _ _ _ := .of_same List.suffix_rfl rfl rfl
  plan _ _ := .of_same List.suffix_rfl rfl rfl
  queue _ _ := .of_same List.suffix_rfl rfl rfl
  claims _ _ := .of_same List.suffix_rfl rfl rfl
  anyJob _ _ := .of_same List.suffix_rfl rfl rfl
  close _ := .of_same List.suffix_rfl rfl rfl
  stop _ := ⟨List.suffix_rfl, rfl, fun _ => rfl⟩

/-- As long as nobody helps, a later state in which the tasks have at most some more
turns left, and some tasks are no longer claimed, unless the code between the two may
have come to an early end. -/
structure State.Eases (early : Prop) (more : Nat) (gone : List Nat) (s t : State) : Prop where
  lasts : s.Lasts t
  plain : s.Without Event.aids t → s.IsPlain → t.IsPlain
  turns : s.Without Event.aids t → s.IsPlain → s.Without Event.isAcceptance t →
    t.queue.turnsLeft ≤ s.queue.turnsLeft + more
  claimed : s.Without Event.aids t → s.IsPlain → ¬ early → gone ⊆ s.queue.claimedIds →
    (gone ++ t.queue.claimedIds).Perm s.queue.claimedIds

namespace State.Eases

variable {early : Prop} {more : Nat} {gone : List Nat} {r s t : State}

/-- The same tasks wait and are claimed. -/
theorem of_same (hlasts : s.Lasts t) (hclaims : t.client.claims = s.client.claims)
    (hpending : t.queue.pending = s.queue.pending) (hactive : t.queue.active = s.queue.active) :
    s.Eases early 0 [] t where
  lasts := hlasts
  plain _ hs := ⟨hclaims.trans hs.claims, hpending ▸ hs.jobs⟩
  turns _ _ _ := by
    unfold TaskQueue.turnsLeft
    rw [hpending]
    exact Nat.le_refl _
  claimed _ _ _ _ := by
    unfold TaskQueue.claimedIds
    rw [hactive]
    exact .refl _

theorem refl (s : State) : s.Eases early 0 [] s :=
  .of_same (permitsTasks_lasts.refl s) rfl rfl rfl

/-- An event is recorded. -/
theorem note (s : State) (e : Event) : s.Eases early 0 [] (s.record e) :=
  .of_same (permitsTasks_lasts.anything s e) rfl rfl rfl

/-- First nothing becomes more. -/
theorem after (hrs : r.Eases early 0 [] s) (hst : s.Eases early more gone t) :
    r.Eases early more gone t where
  lasts := hrs.lasts.trans hst.lasts
  plain hnone hr :=
    have hparts := hnone.split hrs.lasts.history hst.lasts.history
    hst.plain hparts.2 (hrs.plain hparts.1 hr)
  turns hnone hr hnew := by
    obtain ⟨hfirst, hthen⟩ := hnone.split hrs.lasts.history hst.lasts.history
    obtain ⟨hnewFirst, hnewThen⟩ := hnew.split hrs.lasts.history hst.lasts.history
    exact Nat.le_trans (hst.turns hthen (hrs.plain hfirst hr) hnewThen)
      (Nat.add_le_add_right (hrs.turns hfirst hr hnewFirst) more)
  claimed hnone hr hreturns hgone := by
    obtain ⟨hfirst, hthen⟩ := hnone.split hrs.lasts.history hst.lasts.history
    have hsame := hrs.claimed hfirst hr hreturns (List.nil_subset _)
    have hgone' : gone ⊆ s.queue.claimedIds := fun id hid => hsame.mem_iff.2 (hgone hid)
    exact (hst.claimed hthen (hrs.plain hfirst hr) hreturns hgone').trans hsame

/-- In the end nothing becomes more. -/
theorem before (hrs : r.Eases early more gone s) (hst : s.Eases early 0 [] t) :
    r.Eases early more gone t where
  lasts := hrs.lasts.trans hst.lasts
  plain hnone hr :=
    have hparts := hnone.split hrs.lasts.history hst.lasts.history
    hst.plain hparts.2 (hrs.plain hparts.1 hr)
  turns hnone hr hnew := by
    obtain ⟨hfirst, hthen⟩ := hnone.split hrs.lasts.history hst.lasts.history
    obtain ⟨hnewFirst, hnewThen⟩ := hnew.split hrs.lasts.history hst.lasts.history
    exact Nat.le_trans (hst.turns hthen (hrs.plain hfirst hr) hnewThen)
      (hrs.turns hfirst hr hnewFirst)
  claimed hnone hr hreturns hgone := by
    obtain ⟨hfirst, hthen⟩ := hnone.split hrs.lasts.history hst.lasts.history
    have hsame := hst.claimed hthen (hrs.plain hfirst hr) hreturns (List.nil_subset _)
    exact (hsame.append_left gone).trans (hrs.claimed hfirst hr hreturns hgone)

theorem mono {k : Nat} (h : s.Eases early more gone t) (hk : more ≤ k) : s.Eases early k gone t :=
  ⟨h.lasts, h.plain,
    fun hnone hs hnew => Nat.le_trans (h.turns hnone hs hnew) (Nat.add_le_add_left hk _), h.claimed⟩

/-- Where code has come to an early end, nothing is said of the claimed tasks. -/
theorem of_early (h : s.Eases early 0 [] t) (hearly : early) : s.Eases early more gone t where
  lasts := h.lasts
  plain := h.plain
  turns hnone hs hnew := Nat.le_add_right_of_le (h.turns hnone hs hnew)
  claimed _ _ hreturns := absurd hearly hreturns

/-- Somebody helps, or somebody had a task in hand before. -/
theorem of_aided (hlasts : s.Lasts t) (haided : s.IsPlain → ¬ s.Without Event.aids t) :
    s.Eases early more gone t where
  lasts := hlasts
  plain hnone hs := absurd hnone (haided hs)
  turns hnone hs _ := absurd hnone (haided hs)
  claimed hnone hs _ _ := absurd hnone (haided hs)

end State.Eases

theorem permitsBodies_eases (early : Prop) : PermitsBodies (State.Eases early 0 []) where
  refl := .refl
  trans := State.Eases.after
  note s e _ := .note s e
  assets s v := .of_same (permitsTasks_lasts.assets s v) rfl rfl rfl
  registries s v := .of_same (permitsTasks_lasts.registries s v) rfl rfl rfl
  notices s v := .of_same (permitsTasks_lasts.notices s v) rfl rfl rfl
  files s v := .of_same (permitsTasks_lasts.files s v) rfl rfl rfl
  client s c hclaims hjobs := .of_same (permitsTasks_lasts.client s c hclaims hjobs) hclaims rfl rfl
  data s b f hf := .of_same (permitsTasks_lasts.data s b f hf) rfl rfl rfl
  makeJob s w hw := .of_same (permitsTasks_lasts.makeJob s w hw) rfl rfl rfl
  labelJob s l j hj := .of_same (permitsTasks_lasts.labelJob s l j hj) rfl rfl rfl
  submitJob s j hj := .of_same (permitsTasks_lasts.submitJob s j hj) rfl rfl rfl
  drainJobs s := .of_same (permitsTasks_lasts.drainJobs s) rfl rfl rfl
  startJob s j := .of_same (permitsTasks_lasts.startJob s j) rfl rfl rfl
  finishJob s j ok := .of_same (permitsTasks_lasts.finishJob s j ok) rfl rfl rfl
  anything := .note
  body s b f := .of_same (permitsTasks_lasts.body s b f) rfl rfl rfl
  plan s body := .of_same (permitsTasks_lasts.plan s body) rfl rfl rfl

/-! ### A task is advanced -/

/-- A task in hand is no longer claimed. -/
theorem claimedIds_without {q : TaskQueue} {id : Nat} (hid : id ∈ q.claimedIds) :
    (id :: (TaskQueue.without q.active id).map (·.id)).Perm q.claimedIds := by
  have herase : (TaskQueue.without q.active id).map (·.id) = q.claimedIds.erase id := by
    unfold TaskQueue.without TaskQueue.claimedIds
    rw [List.erase_eq_eraseP', List.eraseP_map]
    rfl
  rw [herase]
  exact (List.perm_cons_erase hid).symm

section Advancing

variable {early : Prop} {more : Nat} {gone : List Nat} {s : State} {e : Entry} {call : Runner}

theorem eases_finish (s : State) (id : Nat) :
    s.Eases early 0 [id] (s.withQueue (s.queue.finish id)) where
  lasts := permitsTasks_lasts.queue s _
  plain _ hs := ⟨hs.claims, hs.jobs⟩
  turns _ _ _ := Nat.le_refl _
  claimed _ _ _ hid := claimedIds_without (hid List.mem_cons_self)

theorem eases_giveBack (s : State) (hjob : e.job = none) :
    s.Eases early e.turnsLeft [e.id] (s.withQueue (s.queue.giveBack e)) where
  lasts := permitsTasks_lasts.queue s _
  plain _ hs := by
    refine ⟨hs.claims, fun d hd => ?_⟩
    rcases List.mem_cons.1 hd with rfl | hd
    · exact hjob
    · exact hs.jobs d hd
  turns _ _ _ := by
    show ((e :: s.queue.pending).map Entry.turnsLeft).sum ≤ _
    rw [List.map_cons, List.sum_cons, Nat.add_comm]
    exact Nat.le_refl _
  claimed _ _ _ hid := claimedIds_without (hid List.mem_cons_self)

/-- Code that eases nothing comes before code that does. -/
theorem Stays.thenEases {α β : Type} {x : Exec α} {f : α → Exec β}
    (hx : Stays (State.Eases early 0 []) early x)
    (hf : ∀ a, Stays (State.Eases early more gone) early (f a)) :
    Stays (State.Eases early more gone) early (x >>= f) :=
  fun s => .chain (hx s) (fun a t _ => hf a t) (fun _ _ => .after) fun _ hearly hst => hst.of_early hearly

variable (hcall : call.Stays (State.Eases early 0 []) early)

include hcall

theorem stays_ending (thread : Thread) (e : Entry) :
    Stays (State.Eases early 0 [e.id]) early (completeTask call thread e) := by
  have hB := permitsBodies_eases early
  have hfinish (a : Asset) : Stays (State.Eases early 0 [e.id]) early (do
      log .debug "Asset task complete"
        [("asset", .text a.displayName), ("state", .text a.state.debug)]
      modifyQueue (·.finish e.id)
      record (.completed e.id)
      releaseDeferred 0 .task e.asset) := by
    refine .thenEases (stays_log hB.toPermits _ _ _) fun _ s => ?_
    have hend : Stays (State.Eases early 0 []) early (do
        record (.completed e.id)
        releaseDeferred 0 .task e.asset) :=
      .bind hB.toPermits (stays_recordAny hB _) fun _ => stays_releaseDeferred hB.toPermits 0 .task _
    have hchange : StaysFrom (State.Eases early 0 [e.id]) early s (modifyQueue (·.finish e.id)) :=
      eases_finish s e.id
    exact .chain hchange (fun _ t _ => hend t) (fun _ _ => .before) fun _ _ hst => hst
  refine .thenEases (stays_freeBody hB hcall thread e.body e.asset) fun _ =>
    .thenEases (stays_getAsset hB.toPermits _) fun a => ?_
  dsimp only
  split
  · exact .thenEases (stays_stage hB.toPermits _) fun _ => hfinish a
  · exact hfinish a

/-- The main thread advances a task that it has in hand. -/
theorem stays_stepping (hjob : e.job = none) :
    Stays (State.Eases early (e.turnsLeft - 1) [e.id]) early (stepTask call .main e) := by
  have hB := permitsBodies_eases early
  have hend (d : Entry) (hid : d.id = e.id) :
      Stays (State.Eases early (e.turnsLeft - 1) [e.id]) early (completeTask call .main d) :=
    fun s => (hid ▸ stays_ending hcall .main d s).weaken fun _ hst => hst.mono (Nat.zero_le _)
  refine .thenEases (stays_recordAny hB _) fun _ => ?_
  split
  · exact hend e rfl
  next affinity =>
    -- the main thread hands no action over
    rw [if_neg fun h => h.2 rfl]
    refine .thenEases (stays_runAction hB hcall .main _ _ _ _) fun succeeded =>
      .thenEases (stays_takeNoted hB _) fun complexity => ?_
    unfold takeOutcome
    split
    · dsimp only
      split
      · exact hend _ rfl
      next hleft =>
        -- the cost estimate that was noted does not count
        have hturns := Entry.turnsLeft_advanced (e := e.withComplexity complexity)
          (Bool.eq_false_iff.2 hleft)
        have hcount : (e.withComplexity complexity).turnsLeft = e.turnsLeft := rfl
        refine fun s => (eases_giveBack s (e := (e.withComplexity complexity).advanced) hjob).mono ?_
        omega
    · exact .thenEases (stays_failTask hB hcall .main _) fun _ => hend _ rfl

end Advancing

/-! ### Everything else eases nothing -/

section Acquiring

variable {early : Prop} {s t : State} {e : Entry} {queue : TaskQueue}

/-- The turns of a task that was taken up were left, and those of the others are. -/
theorem turnsLeft_acquired {runnable : Entry → Bool} {q : TaskQueue}
    (hq : q.acquire runnable = some (e, queue)) : q.turnsLeft = e.turnsLeft + queue.turnsLeft := by
  obtain ⟨front, back, hsplit, -, -, rfl⟩ := TaskQueue.acquire_eq_some hq
  unfold TaskQueue.turnsLeft
  rw [hsplit]
  simp only [List.map_append, List.map_cons, List.sum_append, List.sum_cons]
  omega

theorem claimedIds_acquired {runnable : Entry → Bool} {q : TaskQueue}
    (hq : q.acquire runnable = some (e, queue)) : queue.claimedIds = e.id :: q.claimedIds := by
  obtain ⟨front, back, -, -, -, rfl⟩ := TaskQueue.acquire_eq_some hq
  rfl

/-- A task that is taken up carried no job, and the others carry none. -/
theorem State.IsPlain.acquired (hs : s.IsPlain) (hq : s.queue.acquire s.runnable = some (e, queue)) :
    e.job = none ∧ (s.withQueue queue).IsPlain := by
  obtain ⟨front, back, hsplit, -, -, rfl⟩ := TaskQueue.acquire_eq_some hq
  have hjobs (d : Entry) (hd : d ∈ front ++ e :: back) : d.job = none := hs.jobs d (hsplit ▸ hd)
  refine ⟨hjobs e (List.mem_append_right _ List.mem_cons_self), hs.claims, fun d hd => hjobs d ?_⟩
  rcases List.mem_append.1 hd with hd | hd
  · exact List.mem_append_left _ hd
  · exact List.mem_append_right _ (List.mem_cons_of_mem e hd)

/-- A task that was taken up and advanced has one turn less. -/
theorem turnsLeft_of_acquired (hq : s.queue.acquire s.runnable = some (e, queue)) (hs : s.IsPlain)
    (h : (s.withQueue queue).Eases early (e.turnsLeft - 1) [e.id] t)
    (hnone : s.Without Event.aids t) (hnew : s.Without Event.isAcceptance t) :
    t.queue.turnsLeft + 1 ≤ s.queue.turnsLeft := by
  have hle : t.queue.turnsLeft ≤ queue.turnsLeft + (e.turnsLeft - 1) :=
    h.turns hnone (hs.acquired hq).2 hnew
  have hpos := e.turnsLeft_pos
  rw [turnsLeft_acquired hq]
  omega

/-- To take up a task and to let go of it eases nothing else. -/
theorem eases_of_acquired (hq : s.queue.acquire s.runnable = some (e, queue)) {more : Nat}
    {gone : List Nat} (hmore : more ≤ e.turnsLeft)
    (h : (s.withQueue queue).Eases early more (e.id :: gone) t) : s.Eases early 0 gone t where
  lasts := (permitsTasks_lasts.queue s queue).trans h.lasts
  plain hnone hs := h.plain hnone (hs.acquired hq).2
  turns hnone hs hnew := by
    have hle : t.queue.turnsLeft ≤ queue.turnsLeft + more := h.turns hnone (hs.acquired hq).2 hnew
    rw [turnsLeft_acquired hq]
    omega
  claimed hnone hs hreturns hbefore := by
    -- the claim of the task comes and goes, so the other tasks are claimed as before
    have hids : (s.withQueue queue).queue.claimedIds = e.id :: s.queue.claimedIds :=
      claimedIds_acquired hq
    have hgone : e.id :: gone ⊆ (s.withQueue queue).queue.claimedIds :=
      hids ▸ List.cons_subset_cons _ hbefore
    have hperm := h.claimed hnone (hs.acquired hq).2 hreturns hgone
    rw [hids] at hperm
    exact hperm.cons_inv

theorem aids_stepped {thread : Thread} (hthread : thread ≠ .main) (id : Nat) :
    Event.aids (.stepped id (thread == .main)) = true := by
  show (!(thread == .main)) = true
  rw [beq_eq_false_iff_ne.2 hthread]
  rfl

/-- Whoever advances a task off the main thread helps. -/
theorem stays_helping {call : Runner} (hcall : call.Stays (State.Eases early 0 []) early)
    {thread : Thread} (hthread : thread ≠ .main) (e : Entry) (more : Nat) (gone : List Nat) :
    Stays (State.Eases early more gone) early (stepTask call thread e) := by
  intro s
  have hlasts : call.Stays State.Lasts early := hcall.weaken fun _ _ h => h.lasts
  refine (permitsTasks_lasts.stays_stepped hlasts thread e s).weaken fun t ht => ?_
  exact .of_aided ((permitsTasks_lasts.anything s _).trans ht) fun _ =>
    not_without_of_record (aids_stepped hthread e.id) ht.history

end Acquiring

section Driving

variable {early : Prop} {call : Runner} (hcall : call.Stays (State.Eases early 0 []) early)

/-- A task that joins the queue carries no job, and is told to have joined. -/
theorem stays_accepting (t : Task) : Stays (State.Eases early 0 []) early (acceptTask t) := by
  have hR := (permitsBodies_eases early).toPermits
  refine .bind hR (stays_addref hR .task _) fun _ s => .look (.of_ok
    (t := ((s.record (.logged _ _ _)).withQueue (s.queue.push t).2).record (.accepted _ _ _ _)) rfl ?_)
  obtain ⟨front, back, hsplit, -, hpushed⟩ := s.queue.push_pending t
  refine ⟨.of_same ((List.suffix_cons _ _).trans (List.suffix_cons _ _)) rfl rfl,
    fun _ hs => ⟨hs.claims, fun d hd => ?_⟩, fun _ _ hnew => ?_, fun _ _ _ _ => .refl _⟩
  · replace hd : d ∈ front ++ (s.queue.push t).1 :: back := hpushed ▸ hd
    rcases List.mem_append.1 hd with hd | hd
    · exact hs.jobs d (hsplit ▸ List.mem_append_left _ hd)
    · rcases List.mem_cons.1 hd with rfl | hd
      · rfl
      · exact hs.jobs d (hsplit ▸ List.mem_append_right _ hd)
  · obtain ⟨-, hthen⟩ := hnew.split (List.suffix_cons _ s.history) (List.suffix_cons _ _)
    exact absurd hthen (not_without_of_record (s := s.record _) rfl List.suffix_rfl)

include hcall

theorem stays_turning (thread : Thread) :
    Stays (State.Eases early 0 []) early (takeTurn call thread) := by
  intro s
  cases hq : s.queue.acquire s.runnable with
  | none => exact .of_ok (Exec.bind_of_ok (acquireTask_of_eq_none hq)) (.refl s)
  | some claimed =>
    obtain ⟨e, queue⟩ := claimed
    have hstep : StaysFrom (fun _ => s.Eases early 0 []) early (s.withQueue queue)
        (stepTask call thread e) := by
      -- only the main thread can advance a task without telling that somebody helps, and
      -- only a task that carries no job is sure to be advanced by it
      by_cases hmain : thread = .main
      · by_cases hplain : s.IsPlain
        · subst hmain
          exact (stays_stepping hcall (hplain.acquired hq).1 _).weaken fun t ht =>
            eases_of_acquired hq (Nat.sub_le _ _) ht
        · have hlasts : call.Stays State.Lasts early := hcall.weaken fun _ _ h => h.lasts
          refine (permitsTasks_lasts.stays_stepTask hlasts thread e _).weaken fun t ht => ?_
          exact .of_aided ((permitsTasks_lasts.queue s queue).trans ht) fun hs => absurd hs hplain
      · exact (stays_helping hcall hmain e _ _ _).weaken fun t ht =>
          eases_of_acquired hq (Nat.zero_le _) ht
    refine .goOn (P := fun _ => s.Eases early 0 []) (Exec.bind_of_ok (acquireTask_of_eq_some hq))
      ?_ fun _ ht => ht
    exact .chain hstep (fun _ t _ => .of_ok (t := t) rfl (Eq.refl t)) (fun _ _ ht heq => heq ▸ ht)
      fun _ _ ht => ht

/-- If workers have tasks in hand when the scheduler is closed, they help. -/
theorem stays_joined (turns : List PartingTurn) {held : List (Nat × Entry)} (hheld : held ≠ [])
    (more : Nat) (gone : List Nat) :
    Stays (State.Eases early more gone) early (joinWorkers call turns held) := by
  have hB := permitsBodies_eases early
  -- once one of them has helped, nothing is asked of the others
  have hstep (number : Nat) (e : Entry) (more : Nat) (gone : List Nat) :
      Stays (State.Eases early more gone) early (stepTask call (.worker number) e) :=
    stays_helping hcall Thread.noConfusion e more gone
  have hthen {f : Unit → Exec Unit} (c : Nat × Entry)
      (hf : ∀ a, Stays (State.Eases early 0 []) early (f a)) :
      Stays (State.Eases early more gone) early (stepTask call (.worker c.1) c.2 >>= f) :=
    fun s => .chain (hstep c.1 c.2 more gone s) (fun a t _ => hf a t) (fun _ _ => .before)
      fun _ _ hst => hst
  have hrest (turns : List PartingTurn) (held : List (Nat × Entry)) :
      Stays (State.Eases early 0 []) early (joinWorkers call turns held) :=
    stays_joinWorkers hB.runsJobs hcall (fun number e => hstep number e 0 []) turns held
  induction turns with
  | nil =>
    obtain ⟨c, held, rfl⟩ := List.exists_cons_of_ne_nil hheld
    exact hthen c fun _ => hrest [] held
  | cons turn turns ih =>
    cases turn with
    | pump => exact .thenEases (stays_drainJobs hB.runsJobs hcall .main) fun _ => ih
    | step position =>
      unfold joinWorkers
      split
      · exact ih
      next number e _ => exact hthen (number, e) fun _ => hrest turns _

/-- The numbers of the tasks that workers have in hand. -/
def heldIds (held : List (Nat × Entry)) : List Nat :=
  held.map fun c => c.2.id

omit hcall in
/-- To claim tasks and to let go of them eases nothing else. -/
theorem eases_of_lastClaims {s t r : State} {count : Nat} {held now : List (Nat × Entry)}
    (hrun : lastClaims count held s = .ok now t) (h : t.Eases early 0 (heldIds now) r) :
    s.Eases early 0 (heldIds held) r := by
  induction count generalizing held s with
  | zero =>
    cases hrun
    exact h
  | succ count ih =>
    cases hq : s.queue.acquire s.runnable with
    | none =>
      cases (Exec.bind_of_ok (acquireTask_of_eq_none hq)).symm.trans hrun
      exact h
    | some found =>
      have hrest := ih ((Exec.bind_of_ok (acquireTask_of_eq_some hq)).symm.trans hrun)
      exact eases_of_acquired hq (Nat.zero_le _) hrest

omit hcall in
theorem eases_shutDown (s : State) : s.Eases early 0 [] s.shutDown where
  lasts := ⟨List.suffix_cons _ _, rfl, fun _ => rfl⟩
  plain _ hs := ⟨hs.claims, hs.jobs⟩
  turns _ _ _ := Nat.le_refl _
  claimed _ _ _ _ := .refl _

/-- The end of the workers eases nothing, unless they help. -/
theorem stays_parting (turns : List PartingTurn) : Stays (State.Eases early 0 []) early (do
    let held ← closeDown
    joinWorkers call turns held) := by
  intro s
  obtain ⟨held, queue, hlast, hclose⟩ := closeDown_run s
  have hjoin : Stays (State.Eases early 0 (heldIds held)) early (joinWorkers call turns held) := by
    by_cases hheld : held = []
    · subst hheld
      exact stays_joinWorkers (permitsBodies_eases early).runsJobs hcall
        (fun _ e => stays_helping hcall Thread.noConfusion e 0 []) turns []
    · exact stays_joined hcall turns hheld 0 _
  exact .goOn (Exec.bind_of_ok hclose) (hjoin _) fun r hr =>
    eases_of_lastClaims hlast ((eases_shutDown _).after hr)

omit hcall in
/-- A claim is told of, unless it waits in vain. -/
theorem stays_shelving (fuel : Nat) (scope : Scope) (label : String) (wait : Bool) :
    Stays (State.Eases early 0 []) early (performAndRecord fuel call scope (.claim label wait)) := by
  intro s
  have htold (reply : Reply) {r : State} (hr : s.Lasts r)
      (hrun : execute fuel call scope (.claim label wait) s = .ok reply r) :
      StaysFrom (State.Eases early 0 []) early s
        (performAndRecord fuel call scope (.claim label wait)) := by
    refine .of_ok (a := reply) (t := r.record (.answered (.claim label wait) reply))
      (Exec.bind_of_ok hrun) (.of_aided (hr.trans (permitsTasks_lasts.anything r _)) fun _ hnone => ?_)
    obtain ⟨-, hthen⟩ := hnone.split hr.history (List.suffix_cons _ _)
    exact not_without_of_record rfl List.suffix_rfl hthen
  rcases claimTask_cases wait s with hclaim | ⟨e, queue, hclaim⟩ | hclaim
  · exact htold .nothing (permitsTasks_lasts.refl s) (Exec.bind_of_ok hclaim)
  · exact htold (.entry e) (r := (s.withQueue queue).withClient _) (.of_same List.suffix_rfl rfl rfl)
      (Exec.bind_of_ok hclaim)
  · -- nothing is told of a claim that waits in vain, and nothing has changed
    have hstuck : performAndRecord fuel call scope (.claim label wait) s = .error .stuck s :=
      Exec.bind_of_error (Exec.bind_of_error hclaim)
    unfold StaysFrom
    rw [hstuck]
    exact fun _ => .refl s

/-- A task is taken from under a label only if the client had a claim. -/
theorem stays_unshelving (fuel : Nat) (scope : Scope) (label : String) :
    Stays (State.Eases early 0 []) early (execute fuel call scope (.stepClaim label)) := by
  intro s
  have hlasts : call.Stays State.Lasts early := hcall.weaken fun _ _ h => h.lasts
  cases hlookup : s.client.claims.lookup label with
  | none =>
    refine .of_ok (a := .unknownClaim) ?_ (.refl s)
    show (get >>= _ : Exec Reply) s = _
    rw [Exec.get_bind, hlookup]
    rfl
  | some e =>
    refine (permitsTasks_lasts.drives.stepClaim hlasts fuel scope label s).weaken fun t ht => ?_
    refine .of_aided ht fun hs => ?_
    rw [hs.claims] at hlookup
    cases hlookup

end Driving

/-- Whatever is done with tasks eases nothing else. -/
theorem drives_eases (early : Prop) : Drives (State.Eases early 0 []) early where
  toPermitsBodies := permitsBodies_eases early
  accept := stays_accepting
  turn hcall thread := stays_turning hcall thread
  stepClaim hcall fuel scope label := stays_unshelving hcall fuel scope label
  claim _ fuel scope label wait := stays_shelving fuel scope label wait
  join hcall turns := stays_parting hcall turns
  empty s :=
    ⟨permitsTasks_lasts.queue s _, fun _ hs => ⟨hs.claims, fun _ he => absurd he List.not_mem_nil⟩,
      fun _ _ _ => Nat.zero_le _, fun _ _ _ _ => .refl _⟩

end AssetLoading

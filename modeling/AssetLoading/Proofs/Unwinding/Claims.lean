import AssetLoading.Proofs.Unwinding.Scripts
import AssetLoading.Proofs.Unwinding.Stranded

/-! # What is left claimed when code unwinds

  Without workers the main thread claims a task in each update. An update that returns
  has given the task back or brought it to its end, with its reference dropped. An
  update that unwinds in a callback of the task has done neither: nobody has the task
  in hand any more, and it stays claimed. So between calls the claimed tasks are
  exactly those of which a callback was cut short. They are never taken up again, and
  whoever waits for them waits for ever.
-/

namespace AssetLoading

/-- The states between calls, each of which returned or unwound. Calls are made on
any thread; a claim on behalf of a worker is none. -/
inductive Called : State → Prop where
  /-- The session starts. -/
  | start (p : Session) : Called p.start
  /-- A call returns or unwinds. -/
  | call {s t : State} (fuel : Nat) (thread : Thread) {op : Op} {outcome : Outcome} (hs : Called s)
      (hop : ∀ label wait, op ≠ .claim label wait) (h : performOn fuel s thread op = (outcome, t))
      (hout : outcome.isFinal = false) : Called t

section Calls

variable {fuel : Nat} {s t : State} {thread : Thread} {op : Op}

/-- What is outstanding between calls. -/
def State.outstanding (s : State) : Outstanding :=
  ⟨s.queue.active, []⟩

theorem Outcome.of_not_final {outcome : Outcome} (h : outcome.isFinal = false) :
    (∃ reply, outcome = .answered reply) ∨ ∃ cause, outcome = .halted (.panic cause) := by
  cases outcome with
  | answered reply => exact .inl ⟨reply, rfl⟩
  | halted reason =>
    cases reason with
    | panic cause => exact .inr ⟨cause, rfl⟩
    | _ => cases h

/-- A call leaves everything as it is if it returns, and adds claims if it unwinds. -/
theorem passes_of_performOn {outcome : Outcome} (hs : s.Owes s.outstanding)
    (hop : ∀ label wait, op ≠ .claim label wait) (h : performOn fuel s thread op = (outcome, t))
    (hout : outcome.isFinal = false) : s.Precedes t ∧ (t.Unaided →
      ∃ es, s.Passes s.outstanding es t ∧ ∀ reply, outcome = .answered reply → es = []) := by
  have hrun : Tallied s s.outstanding (some s.outstanding) (op.perform fuel { thread }) :=
    steady_perform fuel { thread } hop s s.outstanding hs
  unfold Tallied at hrun
  unfold performOn EStateM.run at h
  split at h
  next reply r hok =>
    cases h
    rw [hok] at hrun
    exact ⟨hrun.1, fun ht => ⟨[], hrun.2 ht, fun _ _ => rfl⟩⟩
  next reason r herror =>
    cases h
    obtain ⟨reply, hanswer⟩ | ⟨cause, hcause⟩ := Outcome.of_not_final hout
    · cases hanswer
    · cases hcause
      rw [herror] at hrun
      obtain ⟨hst, left, hleft, hpasses⟩ := hrun
      obtain rfl : s.outstanding = left := Option.some.inj hleft
      refine ⟨hst, fun ht => ?_⟩
      obtain ⟨es, hes⟩ := hpasses ht
      exact ⟨es, hes, fun _ hanswer => nomatch hanswer⟩

end Calls

/-! ### Between calls -/

/-- One callback was cut short for each of these tasks, and they are the claimed ones. -/
structure State.Abandons (s : State) (es : List Entry) : Prop where
  active : s.queue.active.Perm (es.map Entry.claim)
  callbacks : (callbacksStarted s.history).Perm (es.map (·.body) ++ callbacksReturned s.history)

namespace Called

variable {s t : State}

theorem goesOn_of_call {fuel : Nat} {thread : Thread} {op : Op} {outcome : Outcome}
    (h : performOn fuel s thread op = (outcome, t)) (hout : outcome.isFinal = false) : s.GoesOn t :=
  ⟨fuel, thread, op, outcome, h, hout⟩

theorem start_sound (p : Session) : p.start.Sound [] := by
  unfold Session.start
  constructor <;> dsimp only
  · refine ⟨[], ?_⟩
    split <;> exact .start
  · split <;> rfl
  · split <;> exact fun _ _ _ _ _ => nofun
  · split <;> exact .refl _

theorem start_abandons (p : Session) : p.start.Abandons [] := by
  unfold Session.start
  constructor <;> dsimp only <;> split <;> exact .refl _

/-- Between calls the state is sound, and the claimed tasks are abandoned ones. -/
theorem sound_and_abandons (h : Called s) (hs : s.Unaided) : s.Sound [] ∧ ∃ es, s.Abandons es := by
  induction h with
  | start p => exact ⟨start_sound p, [], start_abandons p⟩
  | @call s t fuel thread op outcome _ hop hrun hout ih =>
    have howes : s.Owes s.outstanding := fun hun => ⟨(ih hun).1, .refl _⟩
    obtain ⟨hst, hpasses⟩ := passes_of_performOn howes hop hrun hout
    obtain ⟨new, hnew, -⟩ := hpasses hs
    obtain ⟨-, es, hes⟩ := ih (hs.of_precedes hst)
    refine ⟨hnew.sound, new ++ es, ?_, ?_⟩
    · rw [List.map_append]
      exact hnew.active.trans (hes.active.append_left _)
    · obtain ⟨events, hevents, hperm⟩ := hnew.callbacks
      unfold callbacksStarted callbacksReturned at hperm
      have hold := hes.callbacks
      unfold callbacksStarted callbacksReturned at hold ⊢
      rw [hevents, List.filterMap_append, List.filterMap_append, List.perm_iff_count]
      intro b
      have hfirst := hold.count_eq b
      have hthen := hperm.count_eq b
      simp only [List.map_append, List.count_append] at hfirst hthen ⊢
      omega

theorem owes (h : Called s) : s.Owes s.outstanding :=
  fun hs => ⟨(h.sound_and_abandons hs).1, .refl _⟩

theorem custody (h : Called s) : Custody ⟨[], s⟩ := by
  induction h with
  | start p => exact .start p
  | call fuel thread _ hop hrun hout ih => exact (goesOn_of_call hrun hout).custody ih

/-- A task that is claimed between calls is in nobody's hands. -/
theorem strands (h : Called s) (hs : s.Unaided) {c : Claimed} (hc : c ∈ s.queue.active) :
    (⟨[], s⟩ : Moment).Strands c := by
  refine ⟨h.custody, ?_⟩
  have hnone : (⟨[], s⟩ : Moment).hands = [] := by
    unfold Moment.hands Client.inHand
    rw [(h.sound_and_abandons hs).1.claims]
    rfl
  rw [hnone]
  exact List.count_pos_iff.2 hc

end Called

/-- What is in nobody's hands stays there in all later calls. -/
theorem State.strands_of_goesOn {s t : State} {c : Claimed}
    (hst : Relation.ReflTransGen State.GoesOn s t) (hs : (⟨[], s⟩ : Moment).Strands c) :
    (⟨[], t⟩ : Moment).Strands c := by
  induction hst with
  | refl => exact hs
  | tail _ hcall ih => exact hcall.strands ih

/-- As long as the main thread does the work on tasks alone, the tasks that are claimed
between calls are those of which an action, the failure hook or the hook that frees
their data was cut short; so none is claimed exactly if every such callback has
returned. Every task that was accepted waits, is claimed or is completed, and has its
reference until it is completed. A call, be it an update or another one, leaves the
claims as they are if it returns. If it unwinds, it adds those of the tasks of which
it has cut a callback short, and none if it unwinds elsewhere. A claim that is left is
never given up, and whoever waits for its priority never gets an answer. -/
theorem claimed_iff_cut_short {s : State} (hs : Called s) (hun : s.Unaided) :
    ((∃ es, s.Abandons es) ∧
      (s.queue.active = [] ↔
        (callbacksStarted s.history).Perm (callbacksReturned s.history)) ∧
      s.queue.total = s.queue.completed + s.queue.pending.length + s.queue.active.length ∧
      (taskRefsTaken s.history).Perm (taskRefsDropped s.history ++ s.queue.assets)) ∧
    (∀ fuel thread op outcome t, (∀ label wait, op ≠ .claim label wait) →
      performOn fuel s thread op = (outcome, t) → t.Unaided →
      (∀ reply, outcome = .answered reply → t.queue.active.Perm s.queue.active) ∧
      ∀ cause, outcome = .halted (.panic cause) → ∃ (es : List Entry) (new : List Event),
        t.history = new ++ s.history ∧ t.queue.active.Perm (es.map Entry.claim ++ s.queue.active) ∧
        (callbacksStarted new).Perm (es.map (·.body) ++ callbacksReturned new)) ∧
    ∀ c ∈ s.queue.active, ∀ t, Relation.ReflTransGen State.GoesOn s t → c ∈ t.queue.active ∧
      ∀ fuel thread priority reply r, c.priority ≤ priority →
        performOn fuel t thread (.blockForPriority priority) ≠ (.answered reply, r) := by
  refine ⟨?_, fun fuel thread op outcome t hop hrun hunt => ?_, ?_⟩
  · obtain ⟨hsound, es, hes⟩ := hs.sound_and_abandons hun
    -- the counts of the queue agree with its log, and the claims with the callbacks cut short
    obtain ⟨log, htraded⟩ := hsound.traded
    have hagrees := htraded.agreesWith
    refine ⟨⟨es, hes⟩, ⟨fun hnone => ?_, fun hreturned => ?_⟩, ?_, hsound.refs⟩
    · have hempty := hes.active
      rw [hnone] at hempty
      have hcallbacks := hes.callbacks
      rw [List.map_eq_nil_iff.1 hempty.nil_eq.symm] at hcallbacks
      exact hcallbacks
    · have hlength := hes.callbacks.length_eq
      rw [hreturned.length_eq, List.length_append, List.length_map] at hlength
      have hempty : es = [] := List.eq_nil_of_length_eq_zero (by omega)
      have hactive := hes.active
      rw [hempty] at hactive
      exact hactive.eq_nil
    · have hplaces := hagrees.places.length_eq
      simp only [TaskQueue.ids, List.length_append, List.length_map] at hplaces
      rw [hagrees.total, hagrees.completed]
      omega
  · -- one call: what it leaves claimed is what its panic has cut short
    have hpasses (hout : outcome.isFinal = false) :=
      (passes_of_performOn hs.owes hop hrun hout).2 hunt
    constructor
    · rintro reply rfl
      obtain ⟨es, hes, hnone⟩ := hpasses rfl
      have hactive := hes.active
      rw [hnone reply rfl] at hactive
      exact hactive
    · rintro cause rfl
      obtain ⟨es, hes, -⟩ := hpasses rfl
      obtain ⟨new, hnew, hcallbacks⟩ := hes.callbacks
      exact ⟨es, new, hnew, hes.active, hcallbacks⟩
  · intro c hc t hst
    -- a claim that nobody holds is never worked off, so waiting for it never ends
    have hleft := State.strands_of_goesOn hst (hs.strands hun hc)
    exact ⟨hleft.mem, fun fuel thread priority reply r hle => hleft.never_answered hle⟩

/-! ### A task that is left claimed -/

/-- `true` for an event that tells of help from another thread. -/
def Event.aids : Event → Bool
  | .stepped _ onGpu => !onGpu
  | .answered (.claim ..) _ => true
  | _ => false

theorem State.Unaided.of_any {s : State} (hopen : s.closed = false)
    (hnone : s.history.any Event.aids = false) : s.Unaided where
  opened := hopen
  onGpu _ hmem := List.any_eq_false.1 hnone _ hmem rfl
  unclaimed _ _ _ hmem := List.any_eq_false.1 hnone _ hmem rfl

/-- Why an operation did not return. -/
def Outcome.reason? : Outcome → Option Halt
  | .answered _ => none
  | .halted reason => some reason

theorem performOn_of_reason {fuel : Nat} {s : State} {thread : Thread} {op : Op} {reason : Halt}
    (h : (performOn fuel s thread op).1.reason? = some reason) :
    performOn fuel s thread op = (.halted reason, (performOn fuel s thread op).2) := by
  match hrun : performOn fuel s thread op with
  | (.answered reply, t) =>
    rw [hrun] at h
    cases h
  | (.halted cause, t) =>
    rw [hrun] at h
    cases h
    rfl

theorem Called.after {s : State} (hs : Called s) (fuel : Nat) {ops : List (Thread × Op)}
    (hops : ∀ op ∈ ops, ∀ label wait, op.2 ≠ .claim label wait) : Called (s.after fuel ops) := by
  induction ops generalizing s with
  | nil => exact hs
  | cons op ops ih =>
    have hrest (d : Thread × Op) (hd : d ∈ ops) := hops d (List.mem_cons_of_mem op hd)
    unfold State.after
    split
    next reply t hanswered =>
      exact ih (.call fuel op.1 hs (hops op List.mem_cons_self) hanswered rfl) hrest
    next => exact hs

/-- A task whose only action unwinds. -/
def lostPlan : TaskPlan Script where
  name := "lost"
  asset := .labelled "mesh"
  priority := 0
  complexity := 0
  data := []
  actions := [⟨.worker, [Op.anyway (.panic "boom")], true⟩]
  onFailure := none
  onFree := none

/-- The task waits on a scheduler without workers. -/
@[irreducible]
def beforeUpdate : State :=
  (Session.bare .single).start.after 8
    [(.main, .findOrCreate "mesh" (.standard .mesh) (.ofId ⟨1⟩)), (.main, .enqueue lostPlan)]

/-- It was claimed by an update, which unwound in its action. -/
@[irreducible]
def afterUpdate : State :=
  (performOn 8 beforeUpdate .main (.step 1)).2

theorem called_beforeUpdate : Called beforeUpdate := by
  unfold beforeUpdate
  refine (Called.start _).after 8 fun op hop label wait => ?_
  simp only [List.mem_cons, List.not_mem_nil, or_false] at hop
  rcases hop with rfl | rfl
  · exact nofun
  · exact nofun

theorem beforeUpdate_unwinds : performOn 8 beforeUpdate .main (.step 1) =
    (.halted (.panic (.client "boom")), afterUpdate) := by
  unfold afterUpdate
  exact performOn_of_reason (by decide +kernel)

theorem called_afterUpdate : Called afterUpdate := by
  refine .call 8 .main called_beforeUpdate ?_ beforeUpdate_unwinds rfl
  exact fun _ _ hop => nomatch hop

theorem unaided_afterUpdate : afterUpdate.Unaided :=
  .of_any (by decide +kernel) (by decide +kernel)

/-- Before the update no task was claimed; afterwards the one is for good of which the
action was cut short, with its reference. -/
theorem lostTask_cut_short :
    beforeUpdate.queue.active = [] ∧ (∃ es, afterUpdate.Abandons es) ∧
      callbacksStarted afterUpdate.history = [0] ∧ callbacksReturned afterUpdate.history = [] ∧
      afterUpdate.queue.active ≠ [] ∧ (taskRefsTaken afterUpdate.history).Perm [0] ∧
      ∀ t, Relation.ReflTransGen State.GoesOn afterUpdate t → ⟨1, 0, 0⟩ ∈ t.queue.active := by
  obtain ⟨⟨-, hnone, -⟩, -⟩ := claimed_iff_cut_short called_beforeUpdate
    (.of_any (by decide +kernel) (by decide +kernel))
  obtain ⟨⟨hleft, hclaimed, -, hrefs⟩, -, hforever⟩ :=
    claimed_iff_cut_short called_afterUpdate unaided_afterUpdate
  have hstarted : callbacksStarted afterUpdate.history = [0] := by decide +kernel
  have hreturned : callbacksReturned afterUpdate.history = [] := by decide +kernel
  have hdropped : taskRefsDropped afterUpdate.history ++ afterUpdate.queue.assets = [0] := by
    decide +kernel
  refine ⟨?_, hleft, hstarted, hreturned, fun hempty => ?_, hdropped ▸ hrefs, fun t ht => ?_⟩
  · refine hnone.2 ?_
    have hbefore : callbacksStarted beforeUpdate.history = callbacksReturned beforeUpdate.history := by
      decide +kernel
    exact hbefore ▸ .refl _
  · have hperm := hclaimed.1 hempty
    rw [hstarted, hreturned] at hperm
    cases hperm.eq_nil
  · exact (hforever _ (by decide +kernel) t ht).1

/-- An update can leave its task claimed: it unwinds in the action of the task, which
neither waits any more nor is completed, and every wait for its priority is in vain. -/
theorem update_can_leave_claim :
    Called beforeUpdate ∧ beforeUpdate.settings.isSingleThreaded = true ∧ beforeUpdate.Unaided ∧
      beforeUpdate.queue.active = [] ∧
      performOn 8 beforeUpdate .main (.step 1) = (.halted (.panic (.client "boom")), afterUpdate) ∧
      afterUpdate.Unaided ∧ afterUpdate.queue.active = [⟨1, 0, 0⟩] ∧
      afterUpdate.queue.pending.length = 0 ∧ afterUpdate.queue.completed = 0 ∧
      afterUpdate.queue.total = 1 ∧
      ∀ fuel reply t, performOn fuel afterUpdate .main (.blockForPriority 0) ≠ (.answered reply, t) := by
  have hactive : afterUpdate.queue.active = [⟨1, 0, 0⟩] := by decide +kernel
  refine ⟨called_beforeUpdate, by decide +kernel, .of_any (by decide +kernel) (by decide +kernel),
    by decide +kernel, beforeUpdate_unwinds, unaided_afterUpdate, hactive, by decide +kernel,
    by decide +kernel, by decide +kernel, fun fuel reply t => ?_⟩
  have hmem : ⟨1, 0, 0⟩ ∈ afterUpdate.queue.active := hactive ▸ List.mem_singleton_self _
  exact (called_afterUpdate.strands unaided_afterUpdate hmem).never_answered (Int32.le_refl 0)

end AssetLoading

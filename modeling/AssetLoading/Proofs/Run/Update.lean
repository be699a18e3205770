import AssetLoading.Proofs.Parts.Operations
import AssetLoading.Proofs.Run.Tasks

/-! # Tracing updates, waits and shutdown

  What drives the scheduler: updates by the main thread, turns of the workers,
  waits made of both, and shutdown.
-/

namespace AssetLoading

/-! ### Code that is put together -/

theorem Halt.EndsIn.of_isPlain {reason : Halt} (h : reason.isPlain = true) (m : Moment) :
    reason.EndsIn m m.state := by
  unfold EndsIn
  split
  · cases h
  · cases h
  · rfl

/-- Doing nothing but strides passes to code that is put together. -/
theorem Leads.composes (u : List Activity) : Composes fun x => Leads u x u where
  pure a := .pure u a
  bind hx hf := hx.bind hf
  look hf s due := .look (hf s s due)

theorem Leads.throw {α : Type} (u : List Activity) {reason : Halt} (h : reason.isPlain = true) :
    Leads u (MonadExcept.throw reason : Exec α) u :=
  fun s _ => .throw .refl (.of_isPlain h ⟨u, s⟩)

/-! ### Tasks that are made or claimed -/

/-- A task that is made is under way until it is queued or refused. -/
theorem traced_makeBody {u : List Activity} {s : State} {due : List (List Subscription)}
    (plan : TaskPlan Script) (h : Handle) :
    Traced ⟨⟨u, s⟩, due⟩ (makeBody plan.body) fun b =>
      Scene.Has (.planned (plan.task h b) :: u) due := by
  unfold makeBody
  refine .look (.first (.body (.plan (plan.task h s.bodies.size) plan.body rfl rfl rfl)) rfl ?_)
  exact .pure ⟨rfl, rfl⟩

/-- Claim a task and advance it, if there is one. -/
theorem leads_acquireTask_step {α : Type} {u v : List Activity} {f : Option Entry → Exec α}
    (hnone : Leads u (f none) v) (hsome : ∀ e, Leads (.claimed e :: u) (f (some e)) v) :
    Leads u (acquireTask >>= f) v := by
  intro s due
  refine .bind (traced_acquireTask u s due) ?_
  rintro found ⟨⟨w, t⟩, l⟩ ⟨hw, rfl⟩
  cases found with
  | none =>
    obtain rfl : w = u := hw
    exact hnone t l
  | some e =>
    obtain rfl : w = .claimed e :: u := hw
    exact hsome e t l

/-! ### Tasks in the hands of workers -/

/-- What is under way while workers have tasks in hand. -/
def inHands (held : List (Nat × Entry)) : List Activity :=
  (held.map Prod.snd).map .claimed

theorem strides_lastClaims {count : Nat} {held now : List (Nat × Entry)} {s t : State}
    (hrun : lastClaims count held s = .ok now t) (u : List Activity)
    (due : List (List Subscription)) :
    Strides ⟨⟨inHands held ++ u, s⟩, due⟩ ⟨⟨inHands now ++ u, t⟩, due⟩ := by
  induction count generalizing held s with
  | zero =>
    cases hrun
    exact .refl
  | succ count ih =>
    cases hq : s.queue.acquire s.runnable with
    | none =>
      cases (Exec.bind_of_ok (acquireTask_of_eq_none hq)).symm.trans hrun
      exact .refl
    | some found =>
      have hrest := ih ((Exec.bind_of_ok (acquireTask_of_eq_some hq)).symm.trans hrun)
      exact .head (.task (stride_acquire hq _)) hrest

/-- The closing of the scheduler, with the claims that come before it. -/
theorem strides_closeDown {s t : State} {held : List (Nat × Entry)}
    (hrun : closeDown s = .ok held t) (hopen : s.closed = false) (u : List Activity)
    (due : List (List Subscription)) :
    Strides ⟨⟨u, s⟩, due⟩ ⟨⟨inHands held ++ u, t⟩, due⟩ := by
  obtain ⟨now, queue, hlast, hclose⟩ := closeDown_run s
  cases hclose.symm.trans hrun
  have hshut : Stride ⟨⟨inHands held ++ u, { s with queue }⟩, due⟩
      ⟨⟨inHands held ++ u, ({ s with queue } : State).shutDown⟩, due⟩ := .task (.shutDown hopen)
  exact (strides_lastClaims hlast u due).tail hshut

/-- Any of the tasks in hand can be the next that is advanced. -/
theorem strides_inHands {held : List (Nat × Entry)} {position : Nat} {p : Nat × Entry}
    (hget : held[position]? = some p) (u : List Activity) (s : State)
    (due : List (List Subscription)) :
    Strides ⟨⟨inHands held ++ u, s⟩, due⟩
      ⟨⟨.claimed p.2 :: (inHands (held.eraseIdx position) ++ u), s⟩, due⟩ := by
  obtain ⟨hlt, hp⟩ := List.getElem?_eq_some_iff.1 hget
  obtain ⟨front, back, rfl, rfl⟩ :
      ∃ front back, held = front ++ p :: back ∧ front.length = position := by
    refine ⟨held.take position, held.drop (position + 1), ?_, List.length_take_of_le (by omega)⟩
    rw [← hp, List.getElem_cons_drop, List.take_append_drop]
  have hbefore : inHands (front ++ p :: back) ++ u =
      (front.map Prod.snd).map .claimed ++ .claimed p.2 :: (inHands back ++ u) := by
    simp [inHands]
  have hafter : inHands ((front ++ p :: back).eraseIdx front.length) ++ u =
      (front.map Prod.snd).map .claimed ++ (inHands back ++ u) := by
    rw [List.eraseIdx_append_of_length_le (Nat.le_refl _), Nat.sub_self, List.eraseIdx_cons_zero]
    simp [inHands]
  rw [hbefore, hafter]
  exact .single (.task (.move (.exchange _ p.2) ⟨rfl, rfl, nofun, nofun⟩))

section Running

variable {call : Runner} (hcall : call.IsTraced) (thread : Thread)

include hcall

theorem leads_enqueue (u : List Activity) (t : Task) :
    Leads (.planned t :: u) (enqueue call thread t) u := by
  intro s due
  unfold enqueue
  refine .look ?_
  dsimp only
  split
  next =>
    refine (leads_log _ _ _ _).first fun _ s => ?_
    refine (leads_freeBody hcall thread t.body t.asset (a := .planned t) u rfl s due).before ?_
    rintro _ ⟨⟨v, t⟩, l⟩ ⟨rfl, rfl⟩
    exact ⟨_, .body (.forget _), rfl, rfl, rfl⟩
  next hopen =>
    rw [Bool.not_eq_true] at hopen
    split
    next hnone =>
      exact .first (.asset (.loading t hopen hnone)) rfl (traced_acceptTask t hopen)
    next => exact traced_acceptTask t hopen

/-! ### Updates and waits -/

/-- What updates and waits are made of does nothing but strides. -/
theorem Leads.drivingParts (u : List Activity) : DrivingParts (fun x => Leads u x u) call where
  toComposes := Leads.composes u
  throw := Leads.throw u
  flush := leads_flush hcall (.inl rfl)
  drainJobs := leads_drainJobs hcall .main u
  deliver := leads_deliver hcall .main u
  turn thread := leads_acquireTask_step (.pure u none) fun e =>
    (leads_stepTask hcall thread u e).bind fun _ => .pure u _

/-! ### Shutdown -/

/-- The workers advance the tasks that they have in hand. -/
theorem leads_lastSteps (u : List Activity) (held : List (Nat × Entry)) :
    Leads (inHands held ++ u) (lastSteps call held) u := by
  induction held with
  | nil => exact .pure u ()
  | cons p held ih => exact (leads_stepTask hcall (.worker p.1) _ p.2).bind fun _ => ih

/-- The workers advance the tasks that they have in hand, in whatever order, while the
main thread runs jobs. -/
theorem leads_joinWorkers (u : List Activity) (turns : List PartingTurn)
    (held : List (Nat × Entry)) :
    Leads (inHands held ++ u) (joinWorkers call turns held) u := by
  induction turns generalizing held with
  | nil => exact leads_lastSteps hcall u held
  | cons turn turns ih =>
    cases turn with
    | pump => exact (leads_drainJobs hcall .main _).bind fun _ => ih held
    | step position =>
      unfold joinWorkers
      cases hget : held[position]? with
      | none => exact ih held
      | some p =>
        intro s due
        refine .after (strides_inHands hget u s due) rfl ?_
        refine (leads_stepTask hcall (.worker p.1) _ p.2).first fun _ t => ?_
        exact ih (held.eraseIdx position) t due

theorem leads_shutdown {u : List Activity} (hu : MayDrain u) :
    Leads u (shutdown call thread) u := by
  -- the last part, once the tasks of the queue are discarded
  have hend : Leads u (do
      let _ ← drainJobs call .main
      let _ ← deliver call .main
      clearNotices call .main
      let _ ← flush call { thread := .main }
      let _ ← reportLeaks 0
      log .debug "Asset scheduler shutdown complete" []) u := by
    refine (leads_drainJobs hcall .main u).bind fun _ => ?_
    refine (leads_deliver hcall .main u).bind fun _ => ?_
    refine (leads_clearNotices hcall .main u).bind fun _ => ?_
    refine (leads_flush hcall (.inl rfl)).bind fun _ => ?_
    exact (leads_reportLeaks u 0).bind fun _ => leads_log u _ _ _
  intro s due
  unfold shutdown
  refine .look ?_
  split
  next hopen =>
    rw [Bool.not_eq_true'] at hopen
    split
    next => exact .throw .refl rfl
    next => exact .throw .refl rfl
    next =>
      obtain ⟨held, queue, -, hrun⟩ := closeDown_run s
      have hclose := TracedFrom.of_ok (Q := fun a d => a = held ∧ d.Has (inHands held ++ u) due)
        (strides_closeDown hrun hopen u due) hrun ⟨rfl, rfl, rfl⟩
      refine .look (hclose.bind ?_)
      rintro _ ⟨⟨v, r⟩, due⟩ ⟨rfl, rfl, rfl⟩
      refine (leads_joinWorkers hcall u s.turnsLeft _).first fun _ s => .look ?_
      refine .first (.task (.drain hu)) rfl ?_
      refine .when (Q := fun _ => Scene.Has (.drained s.queue.pending :: u) due)
        (fun _ => leads_log _ _ _ _ _ _) (fun _ => ⟨rfl, rfl⟩) ?_
      rintro ⟨⟨v, t⟩, l⟩ ⟨rfl, rfl⟩
      exact (leads_discardTasks hcall .main u _).first fun _ t => hend t _
  next => exact .pure ⟨rfl, rfl⟩

end Running

end AssetLoading

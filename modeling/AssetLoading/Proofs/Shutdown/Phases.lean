import AssetLoading.Proofs.Run.Lasting
import AssetLoading.Proofs.Run.Reached

/-! # The phases of a shutdown

  The first shutdown closes the scheduler, and then brings everything to its end in
  a fixed order. A law of what a shutdown leaves behind follows the order: from the
  phase on that makes it true, nothing that runs in the phases after it breaks it.
-/

namespace AssetLoading

/-- The state in which a shutdown begins to discard the waiting tasks. -/
def State.announced (s : State) : State :=
  if s.queue.pending.isEmpty then s.withQueue s.queue.drain.2
  else (s.withQueue s.queue.drain.2).record (.logged .debug
    (s!"Discarding {s.queue.pending.length} unfinished asset tasks") [])

/-- The states between the phases of a shutdown that returned. -/
structure ShutdownPhases (call : Runner) (s t : State) where
  /-- The scheduler is closed, while workers have tasks in hand. -/
  shut : State
  held : List (Nat × Entry)
  closes : closeDown s = .ok held shut
  /-- The workers have stopped. -/
  joined : State
  joins : joinWorkers call s.turnsLeft held shut = .ok () joined
  /-- The tasks that waited then are discarded. -/
  discarded : State
  discards : discardTasks call .main joined.queue.pending joined.announced = .ok () discarded
  /-- The jobs that waited have finished. -/
  drained : State
  jobs : Nat
  drains : drainJobs call .main discarded = .ok jobs drained
  /-- The staged loads are delivered. -/
  delivered : State
  calls : Nat
  delivers : deliver call .main drained = .ok calls delivered
  /-- The subscriptions are dropped. -/
  cleared : State
  clears : clearNotices call .main delivered = .ok () cleared
  /-- The assets that waited for their destruction are destroyed. -/
  flushed : State
  destroyed : Nat
  flushes : flush call { thread := .main } cleared = .ok destroyed flushed
  /-- The end of a shutdown only writes to the log. -/
  lines : List Event
  areLines : ∀ e ∈ lines, e.IsLine
  ends : t = { flushed with history := lines ++ flushed.history }

theorem State.eventsSince_eq {t : State} {old fresh : List Event} (h : t.history = fresh ++ old) :
    t.eventsSince old.length = fresh.reverse := by
  rw [eventsSince, h, List.length_append, Nat.add_sub_cancel, List.take_left]

/-! ### Log lines -/

theorem logLeaks_run (hs : List Handle) (s : State) : ∃ lines, (∀ e ∈ lines, e.IsLine) ∧
    logLeaks hs s = .ok () { s with history := lines ++ s.history } := by
  induction hs generalizing s with
  | nil => exact ⟨[], by simp, rfl⟩
  | cons h hs ih =>
    let line : Event := .logged .warn "Unreleased asset"
      [("ty", .text (s.asset h).category.name), ("asset", .text (s.asset h).displayName),
        ("refs", .number (s.asset h).refs)]
    obtain ⟨lines, hlines, hrun⟩ := ih (s.record line)
    refine ⟨lines ++ [line], fun e he => ?_, ?_⟩
    · rcases List.mem_append.1 he with he | he
      · exact hlines e he
      · rw [List.mem_singleton.1 he]
        trivial
    · show logLeaks hs (s.record line) = _
      rw [hrun, List.append_assoc]
      rfl

/-- A report of leaks writes to the log and tells how many there are. -/
theorem reportLeaks_run (r : RegistryId) (s : State) : ∃ lines, (∀ e ∈ lines, e.IsLine) ∧
    reportLeaks r s = .ok (s.leaks r).length { s with history := lines ++ s.history } := by
  unfold reportLeaks
  show ∃ lines, _ ∧ (if (s.leaks r).isEmpty then _ else _ : Exec Nat) s = _
  split
  next hnone =>
    rw [List.isEmpty_iff.1 hnone]
    exact ⟨[], by simp, rfl⟩
  next =>
    obtain ⟨lines, hlines, hrun⟩ := logLeaks_run (s.leaks r) s
    let total : Event := .logged .error
      s!"{(s.leaks r).length} unreleased assets still found in the asset registry!" []
    refine ⟨total :: lines, fun e he => ?_, ?_⟩
    · rcases List.mem_cons.1 he with rfl | he
      · trivial
      · exact hlines e he
    · show EStateM.bind (logLeaks (s.leaks r)) _ s = _
      rw [EStateM.bind, hrun]
      rfl

/-! ### The order -/

/-- The first shutdown goes through its phases. -/
theorem shutdown_phases {call : Runner} {s t : State} (h : shutdown call .main s = .ok () t)
    (hopen : s.closed = false) : Nonempty (ShutdownPhases call s t) := by
  unfold shutdown at h
  have h : (if (!s.closed) = true then _ else _ : Exec Unit) s = .ok () t := h
  rw [hopen, if_pos (show (!false) = true from rfl)] at h
  obtain ⟨held, shut, hcloses, h⟩ := Exec.bind_eq_ok (show (closeDown >>= _) s = _ from h)
  obtain ⟨⟨⟩, joined, hjoins, h⟩ := Exec.bind_eq_ok h
  have h : ((do
      if !joined.queue.pending.isEmpty then
        log .debug s!"Discarding {joined.queue.pending.length} unfinished asset tasks" []
      discardTasks call .main joined.queue.pending
      let _ ← drainJobs call .main
      let _ ← deliver call .main
      clearNotices call .main
      let _ ← flush call { thread := .main }
      let _ ← reportLeaks 0
      log .debug "Asset scheduler shutdown complete" []) : Exec Unit)
      (joined.withQueue joined.queue.drain.2) = .ok () t := h
  have h : ((do
      discardTasks call .main joined.queue.pending
      let _ ← drainJobs call .main
      let _ ← deliver call .main
      clearNotices call .main
      let _ ← flush call { thread := .main }
      let _ ← reportLeaks 0
      log .debug "Asset scheduler shutdown complete" []) : Exec Unit) joined.announced = .ok () t := by
    -- the line about discarded tasks is logged only if there are any
    unfold State.announced
    cases hempty : joined.queue.pending.isEmpty with
    | true =>
      rw [hempty] at h
      exact h
    | false =>
      rw [hempty] at h
      exact h
  -- the phases one after the other, each from where the last one ended
  obtain ⟨⟨⟩, discarded, hdiscards, h⟩ := Exec.bind_eq_ok h
  obtain ⟨jobs, drained, hdrains, h⟩ := Exec.bind_eq_ok h
  obtain ⟨calls, delivered, hdelivers, h⟩ := Exec.bind_eq_ok h
  obtain ⟨⟨⟩, cleared, hclears, h⟩ := Exec.bind_eq_ok h
  obtain ⟨destroyed, flushed, hflushes, h⟩ := Exec.bind_eq_ok h
  obtain ⟨leaks, reported, hreports, h⟩ := Exec.bind_eq_ok h
  obtain ⟨lines, hlines, hrun⟩ := reportLeaks_run 0 flushed
  obtain rfl : _ = reported := (EStateM.Result.ok.inj (hrun.symm.trans hreports)).2
  obtain rfl := (EStateM.Result.ok.inj h).2
  refine ⟨⟨shut, held, hcloses, joined, hjoins, discarded, hdiscards, drained, jobs, hdrains, delivered, calls, hdelivers, cleared,
    hclears, flushed, destroyed, hflushes, .logged .debug "Asset scheduler shutdown complete" [] :: lines,
    fun e he => ?_, rfl⟩⟩
  rcases List.mem_cons.1 he with rfl | he
  · trivial
  · exact hlines e he

/-- The shutdown begins to discard the waiting tasks. -/
theorem strides_announced (s : State) {u : List Activity} (hu : MayDrain u)
    (due : List (List Subscription)) :
    Strides ⟨⟨u, s⟩, due⟩ ⟨⟨.drained s.queue.pending :: u, s.announced⟩, due⟩ := by
  have hdrain : Stride ⟨⟨u, s⟩, due⟩
      ⟨⟨.drained s.queue.pending :: u, s.withQueue s.queue.drain.2⟩, due⟩ := .task (.drain hu)
  unfold State.announced
  split
  next => exact .single hdrain
  next => exact .tail (.single hdrain) (.plain (.note (.logged _ _ _) trivial))

namespace ShutdownPhases

variable {fuel : Nat} {s t : State} (phases : ShutdownPhases (run fuel) s t)

include phases

theorem history_eq : t.history = phases.lines ++ phases.flushed.history :=
  congrArg State.history phases.ends

theorem registry_eq (r : RegistryId) : t.registry r = phases.flushed.registry r :=
  (congrArg (fun s => State.registry s r) phases.ends).trans rfl

theorem strides_joined (hopen : s.closed = false) (u : List Activity)
    (due : List (List Subscription)) : Strides ⟨⟨u, s⟩, due⟩ ⟨⟨u, phases.joined⟩, due⟩ :=
  (strides_closeDown phases.closes hopen u due).trans
    ((leads_joinWorkers (run_isTraced fuel) u s.turnsLeft phases.held).strides phases.joins due)

theorem strides_discarded {u : List Activity} (hu : MayDrain u) (due : List (List Subscription)) :
    Strides ⟨⟨u, phases.joined⟩, due⟩ ⟨⟨u, phases.discarded⟩, due⟩ :=
  (strides_announced phases.joined hu due).trans
    ((leads_discardTasks (run_isTraced fuel) .main u _).strides phases.discards due)

theorem strides_drained (u : List Activity) (due : List (List Subscription)) :
    Strides ⟨⟨u, phases.discarded⟩, due⟩ ⟨⟨u, phases.drained⟩, due⟩ :=
  (leads_drainJobs (run_isTraced fuel) .main u).strides phases.drains due

theorem strides_delivered (u : List Activity) (due : List (List Subscription)) :
    Strides ⟨⟨u, phases.drained⟩, due⟩ ⟨⟨u, phases.delivered⟩, due⟩ :=
  (leads_deliver (run_isTraced fuel) .main u).strides phases.delivers due

theorem strides_cleared (u : List Activity) (due : List (List Subscription)) :
    Strides ⟨⟨u, phases.delivered⟩, due⟩ ⟨⟨u, phases.cleared⟩, due⟩ :=
  (leads_clearNotices (run_isTraced fuel) .main u).strides phases.clears due

theorem strides_flushed (u : List Activity) (due : List (List Subscription)) :
    Strides ⟨⟨u, phases.cleared⟩, due⟩ ⟨⟨u, phases.flushed⟩, due⟩ :=
  (leads_flush (run_isTraced fuel) (.inl rfl)).strides phases.flushes due

/-- The phases after the discarding of tasks. -/
theorem strides_rest (u : List Activity) (due : List (List Subscription)) :
    Strides ⟨⟨u, phases.discarded⟩, due⟩ ⟨⟨u, phases.flushed⟩, due⟩ :=
  ((phases.strides_drained u due).trans (phases.strides_delivered u due)).trans
    ((phases.strides_cleared u due).trans (phases.strides_flushed u due))

/-- What was recorded before the last phase ended is among what the shutdown recorded. -/
theorem mem_eventsSince {r : State} {u v : List Activity}
    (hrest : Moves ⟨u, r⟩ ⟨v, phases.flushed⟩) {old fresh : List Event} {e : Event} (hr : r.history = fresh ++ old) (he : e ∈ fresh) : e ∈ t.eventsSince old.length := by
  obtain ⟨more, hmore⟩ := Moves.history hrest
  have hsince : t.history = (phases.lines ++ more ++ fresh) ++ old := by
    have hflushed : phases.flushed.history = more ++ r.history := hmore
    rw [phases.history_eq, hflushed, hr]
    simp only [List.append_assoc]
  rw [State.eventsSince_eq hsince, List.mem_reverse]
  exact List.mem_append_right _ he

end ShutdownPhases

/-- A shutdown that is performed on its own is answered when it returns. -/
theorem shutdown_of_answered {fuel : Nat} {s t : State} {reply : Reply}
    (h : performOn fuel s .main .shutdown = (.answered reply, t)) :
    ∃ r, shutdown (run fuel) .main s = .ok () r ∧
      t = r.withClient { r.client with discreet := false } := by
  obtain ⟨⟨⟩, r, hrun, hrest⟩ := Exec.bind_eq_ok (perform_of_answered h)
  exact ⟨r, hrun, (EStateM.Result.ok.inj hrest).2.symm⟩

end AssetLoading

import AssetLoading.Proofs.Alone.Chores
import AssetLoading.Proofs.Alone.Plain

/-! # The ways of running a task agree

  A task waits alone, and runs update by update on the main thread or worked at by a
  worker. Both ways follow its course. So they make the same calls with the same
  arguments and leave the same asset, and whenever the same number of outcomes was taken
  in, the task has the same cost estimate and the same place among others.
-/

namespace AssetLoading

/-- A task waits for its first action, and there is nothing else to do. -/
structure State.Awaits (s : State) (plan : TaskPlan Script) (h : Handle) (b : BodyId) (id : Nat) :
    Prop where
  pending : s.queue.pending = [{ plan.task h b with id }]
  active : s.queue.active = []
  waiting : s.jobs.waiting = []
  staged : s.notices.staged = []
  doomed : (s.registry 0).doomed = []
  bodied : b < s.bodies.size
  body : s.body b = plan.body
  made : h < s.assets.size
  held : (s.asset h).IsHeld
  keys : (s.notices.subscriptions.map Prod.fst).Nodup
  own : ∀ sub ∈ s.notices.subscribers h, sub.asset = h

/-- There is nothing to do, and an asset is held. -/
structure State.Idle (s : State) (h : Handle) : Prop where
  opened : s.closed = false
  pending : s.queue.pending = []
  active : s.queue.active = []
  waiting : s.jobs.waiting = []
  staged : s.notices.staged = []
  doomed : (s.registry 0).doomed = []
  made : h < s.assets.size
  held : (s.asset h).IsHeld
  keys : (s.notices.subscriptions.map Prod.fst).Nodup
  own : ∀ sub ∈ s.notices.subscribers h, sub.asset = h

/-- Two states are the same for a task that loads an asset. -/
structure State.Alike (s r : State) (h : Handle) : Prop where
  asset : r.asset h = s.asset h
  account : r.account = s.account
  queue : r.queue = s.queue
  subscribers : r.notices.subscribers h = s.notices.subscribers h
  label : r.client.labelOf h = s.client.labelOf h

/-- A task that waits in a state. -/
def Meaning.solo (m : Meaning) (plan : TaskPlan Script) (h : Handle) (b : BodyId) (id : Nat)
    (s : State) : Solo where
  meaning := m
  plan := plan
  handle := h
  body := b
  id := id
  calls := s.notices.subscribers h
  label := s.client.labelOf h
  queue := s.queue
  start := ⟨s.asset h, plan.data, plan.complexity, s.account⟩

variable {m : Meaning} {plan : TaskPlan Script} {h : Handle} {b : BodyId} {id : Nat} {s r : State}
  {call : Runner}

theorem State.Alike.solo_eq (hsr : s.Alike r h) (m : Meaning) (plan : TaskPlan Script) (b : BodyId)
    (id : Nat) : m.solo plan h b id r = m.solo plan h b id s := by
  unfold Meaning.solo
  rw [hsr.asset, hsr.account, hsr.queue, hsr.subscribers, hsr.label]

theorem State.Awaits.rests (hs : s.Awaits plan h b id) (m : Meaning) :
    (m.solo plan h b id s).Rests s.settings s.jobs (.ready 0) s := by
  have hqueue : s.queue = { s.queue with pending := [{ plan.task h b with id }], active := [] } := by
    rw [← hs.pending, ← hs.active]
  have hduty : s.duty = ⟨{ s.queue with pending := [{ plan.task h b with id }], active := [] },
      s.jobs, []⟩ := by
    rw [← hqueue, ← hs.staged]
    rfl
  exact ⟨⟨hs.made, rfl, rfl, hduty, rfl, rfl, hs.keys, rfl⟩, hs.bodied, hs.body, hs.doomed⟩

/-! ### Queueing -/

/-- A task that is accepted where there is nothing to do waits alone. -/
theorem State.Idle.acceptTask (hs : s.Idle h) (hbodied : b < s.bodies.size)
    (hbody : s.body b = plan.body) :
    Returns (acceptTask (plan.task h b)) s fun _ u => u.Awaits plan h b (s.queue.lastId + 1) := by
  let t := s.took .task h
  have hplace (key : Int64) : TaskQueue.placeFor [] key = 0 := rfl
  have hpush : (s.queue.push (plan.task h b)).2.pending =
      [{ plan.task h b with id := s.queue.lastId + 1 }] := by
    unfold TaskQueue.push
    rw [hs.pending, hplace]
    rfl
  have hmade : h < t.assets.size := by
    rw [State.size_took]
    exact hs.made
  have hasset : t.asset h = { s.asset h with refs := (s.asset h).refs + 1 } := by
    rw [State.asset_took, if_pos ⟨rfl, hs.made⟩]
  have hheld : (t.asset h).IsHeld := by
    rw [hasset]
    exact ⟨Int.add_pos hs.held.refs Int.one_pos, hs.held.whole⟩
  exact .part (addref_of_held hs.held .task) (.of_eq rfl ⟨hpush, hs.active, hs.waiting, hs.staged,
    hs.doomed, hbodied, hbody, hmade, hheld, hs.keys, hs.own⟩)

/-- A task that is queued where there is nothing to do waits alone. -/
theorem State.Idle.enqueue (hs : s.Idle h) (fuel : Nat) (scope : Scope)
    (hname : s.resolve scope plan.asset = some h) :
    Returns (execute fuel call scope (.enqueue plan)) s fun _ u =>
      u.Awaits plan h s.bodies.size (s.queue.lastId + 1) := by
  let made : State := { s with bodies := s.bodies.push plan.body }
  have hbodied : s.bodies.size < made.bodies.size := by
    show _ < (s.bodies.push plan.body).size
    rw [Array.size_push]
    exact Nat.lt_succ_self _
  have hbody : made.body s.bodies.size = plan.body := by
    show ((s.bodies.push plan.body)[s.bodies.size]?).getD _ = _
    rw [Array.getElem?_push_size]
    rfl
  have hmade : made.Idle h := { hs with }
  have hopen : ¬made.closed = true := by simp [hmade.opened]
  have hasset : (plan.task h s.bodies.size).asset = h := rfl
  show Returns (withAsset scope plan.asset _) s _
  unfold withAsset
  refine .look ?_
  rw [hname]
  refine .part rfl (.part (a := s.bodies.size) (t := made) rfl ?_)
  refine Returns.first (P := fun _ u => u.Awaits plan h s.bodies.size (s.queue.lastId + 1)) ?_
    fun _ u hu => .pure hu
  unfold AssetLoading.enqueue
  refine .look ?_
  dsimp only
  rw [if_neg hopen, hasset]
  -- an asset without a state is loading from now on; the task does not look at that
  by_cases hnone : (made.asset h).state = .none
  · rw [if_pos hnone]
    let loading := made.modifyAsset h fun a => { a with state := .loading }
    have hloading : loading.Idle h := by
      refine { hmade with made := ?_, held := ?_ }
      · rw [State.size_modifyAsset]
        exact hmade.made
      · rw [State.asset_modifyAsset, if_pos ⟨rfl, hmade.made⟩]
        exact ⟨hmade.held.refs, hmade.held.whole⟩
    exact .part rfl (hloading.acceptTask hbodied hbody)
  · rw [if_neg hnone]
    exact hmade.acceptTask hbodied hbody

/-! ### Where the task is -/

namespace Solo

/-- A task stands at an action, with the cost estimate of the outcomes taken in so far and
the sort key that belongs to it. -/
structure IsAt (t : Solo) (k : Nat) (e : Entry) : Prop where
  id : e.id = t.id
  cursor : e.cursor = k
  complexity : e.complexity = t.estimate k
  sort : e.sort = sortKey t.plan.priority (t.estimate k)

theorem isAt_entry (t : Solo) (k : Nat) (job : Option JobId) : t.IsAt k (t.entry k job) := by
  have hcost := t.complexity_course k
  exact ⟨rfl, rfl, hcost, congrArg (sortKey t.plan.priority) hcost⟩

theorem Lies.isAt {t : Solo} {k : Nat} {job : Option JobId} {hand : Option Entry}
    (hlies : t.Lies (t.entry k job) hand s) :
    s.queue ≠ t.finished ∧ ∃ e, hand.toList ++ s.queue.pending = [e] ∧ t.IsAt k e := by
  refine ⟨fun hover => ?_, t.entry k job, ?_, t.isAt_entry k job⟩
  · obtain ⟨-, hqueue⟩ | ⟨-, hqueue⟩ := hlies
    · cases (congrArg TaskQueue.pending hqueue).symm.trans (congrArg TaskQueue.pending hover)
    · cases (congrArg TaskQueue.active hqueue).symm.trans (congrArg TaskQueue.active hover)
  · obtain ⟨rfl, hqueue⟩ | ⟨rfl, hqueue⟩ := hlies <;> rw [hqueue] <;> rfl

/-- A task at a worker stands at its next action, or it is completed, and over once its
load is delivered. -/
theorem Works.isAt_or_ended {t : Solo} {g : Settings} {st : Standing} {hand : Option Entry}
    (hw : t.Works g st hand s) :
    (∃ k, st = .ready k ∧ s.queue ≠ t.finished ∧
      ∃ e, hand.toList ++ s.queue.pending = [e] ∧ t.IsAt k e) ∨
    ∃ p, st = .done p ∧ s.queue = t.finished ∧
      (s.notices.staged = [] → t.Ended (t.delivered p) s) := by
  cases hw with
  | fresh hw => exact .inl ⟨_, rfl, hw.lies.isAt⟩
  | handed hw => exact .inl ⟨_, rfl, hw.lies.isAt⟩
  | ran hw => exact .inl ⟨_, rfl, hw.lies.isAt⟩
  | @completed p _ hw _ =>
    change t.Shows g p ⟨t.finished, s.jobs, _⟩ s at hw
    refine .inr ⟨p, rfl, hw.queue_eq, fun hnone => ?_⟩
    -- nothing was staged, so nothing is left to deliver
    have hnot : ¬p.asset.state.isLoaded = true := by
      intro hloaded
      rw [if_pos hloaded] at hw
      cases hnone.symm.trans hw.staged_eq
    unfold delivered
    rw [if_neg hnot]
    exact ⟨hw.asset, hw.account, hw.queue_eq, hnone⟩
  | ended hw _ => exact .inr ⟨_, rfl, hw.queue, fun _ => hw⟩

end Solo

/-! ### Both ways -/

/-- The load events are a part of what is told in every way of running a task. -/
theorem stagedIn_history (s : State) : stagedIn s.history = s.account.filterMap Event.staging? := by
  unfold stagedIn State.account
  rw [List.filterMap_filterMap]
  congr 1
  funext e
  cases e <;> rfl

/-- A task waits alone in two states that are the same for it, and its code depends on
nothing but its asset, the data and the priority, and leaves the reference that is held
on the asset. Where there are no workers, some number
of updates completes it and delivers its load, with one outcome taken in by each. Where a
worker claims and steps it, and the main thread drains the jobs and delivers the loads at
any moments in between, nothing goes wrong, and some further chores complete it. Once it
is completed and its load delivered, the counters of the queue are the same both ways, the
asset is the same, and so is what was told: the calls with their arguments, what they did,
and the load events. Until then the task has the same cost estimate whenever the same
number of outcomes was taken in, which is the last one reported or the one that it was
made with, and it has the sort key of that. -/
theorem ways_of_running_agree (hs : s.Awaits plan h b id) (hr : r.Awaits plan h b id)
    (hsr : s.Alike r h) (hsingle : s.settings.isSingleThreaded = true)
    (hcode : (m.solo plan h b id s).Explained call) :
    ∃ n u, updates call .main n s = .ok () u ∧
      u.queue = { s.queue with pending := [], completed := s.queue.completed + 1 } ∧
      u.notices.staged = [] ∧
      (∀ k < n, ∃ v e, updates call .main k s = .ok () v ∧ v.queue.pending = [e] ∧
        (m.solo plan h b id s).IsAt k e) ∧
      ∀ chores, ∃ hand v, performChores call chores none r = .ok hand v ∧
        ((∃ k < n, ∃ e, hand.toList ++ v.queue.pending = [e] ∧ (m.solo plan h b id s).IsAt k e) ∨
          v.queue = u.queue) ∧
        (v.queue = u.queue → v.notices.staged = [] →
          v.account = u.account ∧ v.asset h = u.asset h ∧ stagedIn v.history = stagedIn u.history) ∧
        ∃ more w, performChores call more hand v = .ok none w ∧ w.queue = u.queue ∧
          w.notices.staged = [] := by
  let t := m.solo plan h b id s
  have hown : ∀ sub ∈ t.calls, sub.asset = t.handle := hs.own
  have hfinished : t.finished = { s.queue with pending := [], completed := s.queue.completed + 1 } := by
    unfold Solo.finished
    rw [← hs.active]
    rfl
  obtain ⟨n, p, hdone, hready⟩ := t.exists_first_done
  -- the updates
  have hupdates (k : Nat) (hk : k ≤ n) : Returns (updates call .main k) s fun _ u =>
      t.Pauses s.settings s.jobs (t.after k) u :=
    Solo.updates_returns hcode hown hsingle hs.waiting
      (fun j hj => hready j (Nat.lt_of_lt_of_le hj hk)) (k := 0) rfl (hs.rests m)
  obtain ⟨_, u, hurun, hu⟩ := hupdates n (Nat.le_refl n)
  rw [hdone] at hu
  refine ⟨n, u, hurun, hu.queue.trans hfinished, hu.staged, fun k hk => ?_, fun chores => ?_⟩
  · obtain ⟨_, v, hvrun, hv⟩ := hupdates k (Nat.le_of_lt hk)
    rw [hready k hk] at hv
    exact ⟨v, _, hvrun, congrArg TaskQueue.pending hv.1.queue_eq, t.isAt_entry k none⟩
  -- the chores
  have hfirst : t.Works r.settings (t.after 0) none r := by
    have hrests := hr.rests m
    rw [hsr.solo_eq] at hrests
    exact Solo.works_of_rests hrests hr.waiting
  obtain ⟨hand, v, hvrun, k, hv⟩ := Solo.works_chores hcode hown chores hfirst
  refine ⟨hand, v, hvrun, ?_, fun hover hnone => ?_, ?_⟩
  · obtain ⟨j, hj, -, hat⟩ | ⟨q, -, hover, -⟩ := hv.isAt_or_ended
    · refine .inl ⟨j, Nat.lt_of_not_le fun hnj => ?_, hat⟩
      have hjk := Solo.cursor_eq_of_after hj
      rw [Solo.after_of_le hdone (hjk ▸ hnj)] at hj
      cases hj
    · exact .inr (hover.trans hu.queue.symm)
  · obtain ⟨j, -, hnot, -⟩ | ⟨q, hq, -, hended⟩ := hv.isAt_or_ended
    · exact absurd (hover.trans hu.queue) hnot
    · have hv := hended hnone
      rw [Solo.done_unique hq hdone] at hv
      have haccount := hv.account.trans hu.account.symm
      refine ⟨haccount, hv.asset.trans hu.asset.symm, ?_⟩
      rw [stagedIn_history, stagedIn_history, haccount]
  · have hlater := Solo.after_of_le hdone (Nat.le_max_right k n)
    obtain ⟨more, _, w, hwrun, rfl, hw⟩ := Solo.exists_chores hcode hown hlater
      (Nat.le_max_left k n) hv
    exact ⟨more, w, hwrun, hw.queue.trans hu.queue.symm, hw.staged⟩

/-- A task with an action for a worker and two for the GPU thread. -/
def meshPlan : TaskPlan Script where
  name := "load"
  asset := .labelled "mesh"
  priority := 2
  complexity := 3
  data := []
  actions := [⟨.worker, [Op.anyway (.pushData 7)], true⟩,
    ⟨.gpu, [Op.anyway (.setComplexity 9), Op.anyway (.setState .surrounding .loaded)], true⟩,
    ⟨.gpu, [Op.anyway .data], true⟩]
  onFailure := none
  onFree := some [Op.anyway .data]

/-- It waits alone, and nobody else holds its asset. -/
@[irreducible]
def meshAwaited (mode : Mode) : State :=
  (Session.bare mode).start.after 8
    [(.main, .findOrCreate "mesh" (.standard .mesh) (.ofId ⟨1⟩)), (.main, .enqueue meshPlan),
      (.main, .releaseDeferred (.labelled "mesh"))]

theorem awaits_mesh {mode : Mode} (hmode : mode ≠ .pool) :
    (meshAwaited mode).Awaits meshPlan 0 0 1 := by
  unfold meshAwaited
  cases mode with
  | pool => exact absurd rfl hmode
  | _ => exact ⟨rfl, rfl, rfl, rfl, rfl, by decide +kernel, rfl, by decide +kernel,
      ⟨by decide +kernel, by decide +kernel⟩, by decide +kernel, by decide +kernel⟩

theorem alike_mesh : (meshAwaited .single).Alike (meshAwaited .manual) 0 := by
  unfold meshAwaited
  exact ⟨rfl, rfl, rfl, rfl, rfl⟩

theorem explained_mesh :
    ((Meaning.plain 0).solo meshPlan 0 0 1 (meshAwaited .single)).Explained (run 8) := by
  have hnone : (meshAwaited .single).notices.subscribers 0 = [] := by
    unfold meshAwaited
    rfl
  have hs : (meshAwaited .single).Awaits meshPlan 0 0 1 := awaits_mesh nofun
  refine Solo.explained_of_plain rfl hs.held ?_ (by decide) (fun _ hcode => by cases hcode) ?_ ?_ 7
  · have hcontents : ((meshAwaited .single).asset 0).contents =
        some { kind := .standard .mesh, tag := "mesh" } := by
      unfold meshAwaited
      rfl
    intro c hc
    cases hcontents.symm.trans hc
    exact ⟨rfl, rfl⟩
  · rintro _ ⟨rfl⟩
    decide
  · intro sub hsub
    change sub ∈ (meshAwaited .single).notices.subscribers 0 at hsub
    rw [hnone] at hsub
    cases hsub

/-- The task agrees in a session without workers and in one where the client plays them. -/
theorem mesh_runs_agree :
    (meshAwaited .single).Awaits meshPlan 0 0 1 ∧ (meshAwaited .manual).Awaits meshPlan 0 0 1 ∧
      (meshAwaited .single).Alike (meshAwaited .manual) 0 ∧
      (meshAwaited .single).settings.isSingleThreaded = true ∧
      ((Meaning.plain 0).solo meshPlan 0 0 1 (meshAwaited .single)).Explained (run 8) ∧
      ∃ n u, updates (run 8) .main n (meshAwaited .single) = .ok () u ∧
        ∀ chores, ∃ hand v, performChores (run 8) chores none (meshAwaited .manual) = .ok hand v ∧
          (v.queue = u.queue → v.notices.staged = [] →
            v.account = u.account ∧ v.asset 0 = u.asset 0) := by
  have hs : (meshAwaited .single).Awaits meshPlan 0 0 1 := awaits_mesh nofun
  have hr : (meshAwaited .manual).Awaits meshPlan 0 0 1 := awaits_mesh nofun
  have hsingle : (meshAwaited .single).settings.isSingleThreaded = true := by
    unfold meshAwaited
    decide +kernel
  refine ⟨hs, hr, alike_mesh, hsingle, explained_mesh, ?_⟩
  obtain ⟨n, u, hu, -, -, -, hchores⟩ :=
    ways_of_running_agree hs hr alike_mesh hsingle explained_mesh
  refine ⟨n, u, hu, fun chores => ?_⟩
  obtain ⟨hand, v, hv, -, hsame, -⟩ := hchores chores
  exact ⟨hand, v, hv, fun hover hnone => ⟨(hsame hover hnone).1, (hsame hover hnone).2.1⟩⟩

end AssetLoading

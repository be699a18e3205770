import AssetLoading.Proofs.Notices.Calls
import AssetLoading.Proofs.Tasks.Live

/-! # The hooks of a task

  A task has a hook for a failed action and one that frees its data. A hook is client
  code and may do anything, to the asset of its task as well; it is told when it starts
  and when it returns. What is told of the task in between is nothing, so after both
  hooks the story of the task is told to the end, and nothing follows.
-/

namespace AssetLoading

/-! ### Running a hook -/

/-- A hook of a task runs from one state to another. Without a hook nothing happens. -/
def HookRuns (call : Runner) (thread : Thread) (b : BodyId) (asset : Handle) (hook : Option Script)
    (start : Event) (s t : State) : Prop :=
  match hook with
  | none => t = s
  | some code => ∃ ran r,
      call (.script { thread, asset := some asset, body := some b } code) (s.record start) =
        .ok ran r ∧ t = r.record (.hookEnded b (r.body b).data)

section Running

variable {call : Runner} {thread : Thread} {b : BodyId} {asset : Handle} {s t : State}

/-- A hook that there is has started and returned. -/
theorem HookRuns.of_code {code : Script} {start : Event}
    (hrun : (do
      record start
      let _ ← call (.script { thread, asset := some asset, body := some b } code)
      record (.hookEnded b ((← get).body b).data) : Exec Unit) s = .ok () t) :
    HookRuns call thread b asset (some code) start s t := by
  obtain ⟨_, _, hstart, hrun⟩ := Exec.bind_eq_ok hrun
  obtain ⟨-, rfl⟩ := EStateM.Result.ok.inj hstart
  obtain ⟨ran, r, hcall, hrun⟩ := Exec.bind_eq_ok hrun
  obtain ⟨-, rfl⟩ := EStateM.Result.ok.inj hrun
  exact ⟨ran, r, hcall, rfl⟩

theorem runFailureHook_returns (htaken : (s.body b).taken = false)
    (hrun : runFailureHook call thread b asset s = .ok () t) :
    HookRuns call thread b asset (s.body b).onFailure
      (.failed b (s.body b).name (s.asset asset).state (s.body b).data) s t := by
  unfold runFailureHook at hrun
  rw [Exec.get_bind, htaken] at hrun
  cases hhook : (s.body b).onFailure with
  | none =>
    rw [hhook] at hrun
    exact (EStateM.Result.ok.inj hrun).2.symm
  | some code =>
    rw [hhook] at hrun
    exact .of_code hrun

theorem freeBody_returns (htaken : (s.body b).taken = false)
    (hrun : freeBody call thread b asset s = .ok () t) :
    HookRuns call thread b asset (s.body b).onFree
      (.freed b (s.body b).name (s.asset asset).state (s.body b).data) (s.bodyTaken b) t := by
  unfold freeBody at hrun
  rw [Exec.get_bind] at hrun
  obtain ⟨_, _, hmark, hrun⟩ := Exec.bind_eq_ok hrun
  obtain ⟨-, rfl⟩ := EStateM.Result.ok.inj hmark
  rw [htaken] at hrun
  cases hhook : (s.body b).onFree with
  | none =>
    rw [hhook] at hrun
    exact (EStateM.Result.ok.inj hrun).2.symm
  | some code =>
    rw [hhook] at hrun
    exact .of_code hrun

/-- A task whose data was freed ends at once. If its asset is loaded then, it is not
destroyed and has references left. -/
theorem completeTask_returns_freed {e : Entry} (hrun : completeTask call thread e s = .ok () t) :
    ∃ r, freeBody call thread e.body e.asset s = .ok () r ∧ t = r.taskEnded e ∧
      ((r.asset e.asset).state.isLoaded = true → (r.asset e.asset).destroyed = false) ∧
      0 < ((r.taskCompleted e).asset e.asset).refs := by
  unfold completeTask at hrun
  obtain ⟨_, r, hfree, hrun⟩ := Exec.bind_eq_ok hrun
  refine ⟨r, hfree, ?_⟩
  -- what comes after the load was staged, or not
  have hend {q : State}
      (hq : q = if (r.asset e.asset).state.isLoaded then r.staged e.asset else r)
      (hrest : (do
        log .debug "Asset task complete" [("asset", .text (r.asset e.asset).displayName),
          ("state", .text (r.asset e.asset).state.debug)]
        modifyQueue (·.finish e.id)
        record (.completed e.id)
        releaseDeferred 0 .task e.asset : Exec Unit) q = .ok () t) :
      t = r.taskEnded e ∧ 0 < ((r.taskCompleted e).asset e.asset).refs := by
    have hqueue : q.queue = r.queue := by
      rw [hq]
      split
      · exact r.queue_staged e.asset
      · rfl
    have hlast : releaseDeferred 0 .task e.asset (r.taskCompleted e) = .ok () t := by
      unfold State.taskCompleted
      rw [← hq, ← hqueue]
      exact hrest
    rw [releaseDeferred_run] at hlast
    split at hlast
    next hsome => exact ⟨(EStateM.Result.ok.inj hlast).2.symm, hsome⟩
    next => cases hlast
  obtain ⟨a, q, hasset, hrun⟩ := Exec.bind_eq_ok hrun
  obtain ⟨rfl, rfl⟩ := EStateM.Result.ok.inj hasset
  dsimp only at hrun
  split at hrun
  next hloaded =>
    obtain ⟨_, q, hstage, hrest⟩ := Exec.bind_eq_ok hrun
    rw [stage_run] at hstage
    split at hstage
    next => cases hstage
    next hwhole =>
      obtain ⟨-, rfl⟩ := EStateM.Result.ok.inj hstage
      obtain ⟨rfl, hsome⟩ := hend (if_pos hloaded).symm hrest
      exact ⟨rfl, fun _ => Bool.not_eq_true _ ▸ hwhole, hsome⟩
  next hunloaded =>
    obtain ⟨rfl, hsome⟩ := hend (if_neg hunloaded).symm hrun
    exact ⟨rfl, fun hloaded => absurd hloaded hunloaded, hsome⟩

end Running

/-! ### Tasks of which nothing is left -/

/-- The data of a task was freed, and no code of the task runs. -/
structure Moment.Done (m : Moment) (b : BodyId) : Prop where
  gone : m.state.BodyGone b
  idle : ∀ a ∈ m.underWay, ¬ a.Runs b

namespace Moment.Done

variable {m n : Moment} {b : BodyId}

theorem bodyMove (h : m.Done b) (hmove : BodyMove m n) :
    (∀ a ∈ n.underWay, ¬ a.Runs b) ∧ told b n.state.history = told b m.state.history := by
  have hidle := h.idle
  -- code of a body that was not freed yet belongs to another task
  have hother {c : BodyId} (hopen : (m.state.body c).taken = false) : c ≠ b := by
    rintro rfl
    exact Bool.noConfusion (hopen.symm.trans h.gone.2)
  cases hmove with
  | act a c i onGpu hmay hopen =>
    have hne : c ≠ b := hother hopen
    exact ⟨by grind [Activity.Runs], told_record_of_ne (if_neg hne)⟩
  | actEnd a c i onGpu ok hmay =>
    have hne : c ≠ b := hidle _ List.mem_cons_self
    exact ⟨by grind [hmay.not_runs ok b], told_record_of_ne (if_neg hne)⟩
  | actSkip a c i onGpu hmay => exact ⟨by grind [hmay.not_runs false b], rfl⟩
  | fail e hopen =>
    have hne : e.body ≠ b := hother hopen
    exact ⟨by grind [Activity.Runs], told_record_of_ne (if_neg hne)⟩
  | failEnd e =>
    have hne : e.body ≠ b := hidle _ List.mem_cons_self
    exact ⟨by grind [Activity.Runs], told_record_of_ne (if_neg hne)⟩
  | free a c asset hmay hopen =>
    have hne : c ≠ b := hother hopen
    exact ⟨by grind [Activity.Runs], told_record_of_ne (if_neg hne)⟩
  | freeEnd a c hmay =>
    have hne : c ≠ b := hidle _ List.mem_cons_self
    exact ⟨by grind [hmay.not_runs b], told_record_of_ne (if_neg hne)⟩
  | freeSkip a c hmay => exact ⟨by grind [hmay.not_runs b], rfl⟩
  | _ => exact ⟨by grind [Activity.Runs], rfl⟩

theorem move (h : m.Done b) (hmove : Move m n) :
    n.Done b ∧ told b n.state.history = told b m.state.history := by
  have hgone := h.gone.extends hmove.extends
  have hidle := h.idle
  rcases hmove.work_or_same with (hbody | hjob | htask) | hsame
  · obtain ⟨hidle, htold⟩ := h.bodyMove hbody
    exact ⟨⟨hgone, hidle⟩, htold⟩
  · refine ⟨⟨hgone, ?_⟩, hjob.records.told_eq (by decide) b⟩
    cases hjob with
    | start j hpick => cases hpick <;> grind [Activity.Runs]
    | skip j hpick => cases hpick <;> grind [Activity.Runs]
    | _ => grind [Activity.Runs]
  · refine ⟨⟨hgone, ?_⟩, htask.records.told_eq (by decide) b⟩
    cases htask <;> grind [Activity.Runs]
  · refine ⟨⟨hgone, fun a ha hruns => ?_⟩, hsame.told b⟩
    exact hidle a ((hsame.mem_work hruns.ofTasks).1 ha) hruns

/-- Nothing more is told of the task. -/
theorem moves (h : m.Done b) (hmn : Moves m n) :
    n.Done b ∧ told b n.state.history = told b m.state.history := by
  refine hmn.preserve (P := fun n => n.Done b ∧ told b n.state.history = told b m.state.history)
    ?_ ⟨h, rfl⟩
  intro k n hmove ⟨hk, htold⟩
  obtain ⟨hn, hsame⟩ := hk.move hmove
  exact ⟨hn, hsame.trans htold⟩

end Moment.Done

/-! ### What is told of a hook -/

/-- Freeing the data ends a story, so no task rests after it. -/
theorem Rest.frees_notMem_trace (r : Rest) : .frees ∉ r.trace := by
  cases r <;> simp [Rest.trace, succeeding]

/-- The hook that frees the data is the last that starts. -/
theorem Rest.eq_of_frees_prefix {r : Rest} {beats : List Beat}
    (h : beats ++ [.frees] <+: r.trace ++ [.frees]) : beats ++ [.frees] = r.trace ++ [.frees] := by
  rcases List.prefix_concat_iff.1 h with heq | hbefore
  · exact heq
  · refine absurd (hbefore.subset ?_) r.frees_notMem_trace
    exact List.mem_append_right _ List.mem_cons_self

/-- What was told stays told. -/
theorem prefix_told_of_suffix (b : BodyId) {old new : List Event} (h : old <:+ new) :
    told b old <+: told b new := by
  obtain ⟨fresh, rfl⟩ := h
  unfold told
  rw [List.filterMap_append, List.reverse_append]
  exact List.prefix_append _ _

theorem told_hookEnded (s : State) (b : BodyId) (data : List Int) :
    told b (s.record (.hookEnded b data)).history = told b s.history ++ [.returns] :=
  told_record_of_eq (if_pos rfl)

theorem State.Fits.told_rest {s : State} {b : BodyId} {r : Rest} (h : s.Fits b (.rest r)) :
    told b s.history = r.trace := by
  obtain ⟨p, -, htrace, rfl⟩ := h.phase
  exact htrace

/-- The task of an activity is not freed before the activity is over. -/
theorem Owned.untaken_of_bodies {a : Activity} {u : List Activity} {s : State} {b : BodyId}
    (h : Owned ⟨a :: u, s⟩) (ha : a.bodies = [b]) : (s.body b).taken = false := by
  refine h.untaken b ?_
  rw [owned_cons_of_bodies ha]
  exact Multiset.mem_cons_self _ _

section Telling

variable {fuel : Nat} {thread : Thread} {e : Entry} {u : List Activity} {s t : State}
  {due : List (List Subscription)}

/-- After a failure and the hook for it. -/
theorem Occurs.told_handled (hc : Occurs ⟨⟨.concluding e false :: u, s⟩, due⟩)
    (hhook : HookRuns (run fuel) thread e.body e.asset (s.body e.body).onFailure
      (.failed e.body (s.body e.body).name (s.asset e.asset).state (s.body e.body).data) s t)
    (hkeeps : KeepsToThread t.history) (hst : s.history <:+ t.history) :
    told e.body t.history =
      (Rest.failed e.cursor).trace ++ (s.body e.body).outline.handling := by
  have htaken : (s.body e.body).taken = false := hc.owned.untaken_of_bodies rfl
  have hpaced := (hc.allPaced (hkeeps.of_suffix hst)).paced e.body (.inl htaken)
  have hfits := (hpaced.suits _ (mem_allTurns_of_turn List.mem_cons_self List.mem_cons_self)).fits
  -- without a hook the story stands; with one, it begins and ends with nothing in between
  cases hcode : (s.body e.body).onFailure with
  | none =>
    rw [hcode] at hhook
    obtain rfl : t = s := hhook
    have hnone : (t.body e.body).outline.handling = [] := by
      simp [Outline.handling, TaskBody.outline, hcode]
    rw [hnone, List.append_nil]
    exact hfits.told_rest
  | some code =>
    rw [hcode] at hhook
    obtain ⟨ran, r, hcall, rfl⟩ := hhook
    have hsome : (s.body e.body).outline.handling = [.fails, .returns] := by
      simp [Outline.handling, TaskBody.outline, hcode]
    have hadmit : Scope.Admitted { thread, asset := some e.asset, body := some e.body }
        (.failing e :: u) := Scope.admitted_of_runs rfl rfl rfl
    have hstart : Stride ⟨⟨.concluding e false :: u, s⟩, due⟩ _ :=
      .body (.fail e htaken (by rw [hcode]; rfl))
    have hr : Occurs ⟨⟨.failing e :: u, r⟩, due⟩ :=
      (hc.strides (.single hstart)).strides
        (((run_isTraced fuel).script _ code _ hadmit).strides hcall due)
    have hpaced := (hr.allPaced (hkeeps.of_suffix (List.suffix_cons _ _))).paced e.body
      (.inl (hr.owned.untaken_of_bodies rfl))
    have hfits := (hpaced.suits _ (mem_allTurns_of_turn List.mem_cons_self List.mem_cons_self)).fits
    obtain ⟨p, -, htrace, rfl⟩ := hfits.phase
    rw [told_hookEnded, htrace, hsome, Phase.trace, List.append_assoc]
    rfl

/-- After the data of a task was freed in the end. -/
theorem Occurs.told_freed (hc : Occurs ⟨⟨.ending e :: u, s⟩, due⟩)
    (hhook : HookRuns (run fuel) thread e.body e.asset (s.body e.body).onFree
      (.freed e.body (s.body e.body).name (s.asset e.asset).state (s.body e.body).data)
        (s.bodyTaken e.body) t)
    (hkeeps : KeepsToThread t.history) :
    told e.body t.history = told e.body s.history ++ (s.body e.body).outline.freeing := by
  have htaken : (s.body e.body).taken = false := hc.owned.untaken_of_bodies rfl
  cases hcode : (s.body e.body).onFree with
  | none =>
    rw [hcode] at hhook
    obtain rfl : t = s.bodyTaken e.body := hhook
    have hnone : (s.body e.body).outline.freeing = [] := by
      simp [Outline.freeing, TaskBody.outline, hcode]
    rw [hnone, List.append_nil]
    rfl
  | some code =>
    rw [hcode] at hhook
    obtain ⟨ran, r, hcall, rfl⟩ := hhook
    have hsome : (s.body e.body).outline.freeing = [.frees, .returns] := by
      simp [Outline.freeing, TaskBody.outline, hcode]
    have hadmit : Scope.Admitted { thread, asset := some e.asset, body := some e.body }
        (.freeing (.ending e) e.body :: u) := Scope.admitted_of_runs rfl rfl rfl
    have hstart : Stride ⟨⟨.ending e :: u, s⟩, due⟩ _ :=
      .body (.free (.ending e) e.body e.asset rfl htaken (by rw [hcode]; rfl))
    have hstrides := ((run_isTraced fuel).script _ code _ hadmit).strides hcall due
    have hr : Occurs ⟨⟨.freeing (.ending e) e.body :: u, r⟩, due⟩ :=
      (hc.strides (.single hstart)).strides hstrides
    have hturn : (e.body, .freeing true) ∈
        (⟨.freeing (.ending e) e.body :: u, r⟩ : Moment).allTurns :=
      mem_allTurns_of_turn List.mem_cons_self List.mem_cons_self
    have hpaced := (hr.allPaced (hkeeps.of_suffix (List.suffix_cons _ _))).paced e.body (.inr hturn)
    obtain ⟨p, -, htrace, rest, rfl, -⟩ := (hpaced.suits _ hturn).fits.phase
    -- the hook is the last that is told, and it was told when it started
    have hstarted : told e.body s.history ++ [.frees] <+: rest.trace ++ [.frees] := by
      have hstart : told e.body ((s.bodyTaken e.body).record (.freed e.body (s.body e.body).name
          (s.asset e.asset).state (s.body e.body).data)).history = told e.body s.history ++ [.frees] :=
        told_record_of_eq (if_pos rfl)
      rw [← hstart]
      exact (prefix_told_of_suffix e.body hstrides.moves.extends.history).trans
        (htrace ▸ List.prefix_rfl)
    have hsame : told e.body r.history = told e.body s.history ++ [.frees] :=
      htrace.trans (Rest.eq_of_frees_prefix hstarted).symm
    rw [told_hookEnded, hsame, hsome, List.append_assoc]
    rfl

end Telling

end AssetLoading

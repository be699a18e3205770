import AssetLoading.Proofs.Run.Reached
import AssetLoading.Proofs.Tasks.InFlight

/-! # What a drain leaves

  A drain runs the jobs that wait when it begins. When it has returned, each of them
  has started, by the drain or before it, and none is left unfinished that started
  meanwhile: a job that is under way is under way in some call, and all of these have
  returned.
-/

namespace AssetLoading

section Draining

variable {call : Runner} (hcall : call.IsTraced) {thread : Thread} {s t : State}

include hcall

/-- From its start on, a job that runs comes to its end. -/
theorem leads_startedJob (u : List Activity) (j : JobId) (w : Work) :
    Leads (.running j w :: u) (do
      let success ← doWork call thread w
      modifyJobs (·.modify j fun job => { job with success, finished := true })
      record (.jobEnded j success)) u := by
  intro s due
  refine .bind (traced_doWork hcall thread j w) ?_
  rintro ok ⟨⟨v, r⟩, l⟩ ⟨rfl, rfl⟩
  exact .one (.job (.move (.finish j w ok) (.inl rfl))) rfl ⟨rfl, rfl⟩

/-- A job that was run has started. -/
theorem started_of_runJob {j : JobId} (hlt : j < s.jobs.jobs.size)
    (hrun : runJob call thread j s = .ok () t) : (t.jobs.job j).started = true := by
  unfold runJob at hrun
  change (if !(s.jobs.job j).started then _ else pure () : Exec Unit) s = _ at hrun
  cases hold : (s.jobs.job j).started with
  | true =>
    rw [hold] at hrun
    cases hrun
    exact hold
  | false =>
    rw [hold] at hrun
    have hext := ((leads_startedJob hcall [] j (s.jobs.job j).work).strides
      (s := s.jobStarted j) hrun []).moves.extends
    have hstarted : ((s.jobStarted j).jobs.job j).started = true := by
      show ((s.jobs.modify j _).job j).started = true
      rw [JobQueue.job_modify, if_pos ⟨rfl, hlt⟩]
    exact (hext.job j (Nat.lt_of_lt_of_eq hlt Array.size_modify.symm)).2.started hstarted

/-- Jobs that were run have started. -/
theorem started_of_runJobs {js : List JobId} (hrun : runJobs call thread js s = .ok () t) :
    ∀ j ∈ js, j < s.jobs.jobs.size → (t.jobs.job j).started = true := by
  induction js generalizing s with
  | nil => exact fun j hj => absurd hj List.not_mem_nil
  | cons k js ih =>
    obtain ⟨_, r, hfirst, hrest⟩ := Exec.bind_eq_ok hrun
    have hbefore := ((leads_runJob hcall thread (.outOfTurn [])).strides hfirst []).moves.extends
    have hafter := ((leads_runJobs hcall thread [] js).strides hrest []).moves.extends
    intro j hj hlt
    have hknown := (hbefore.job j hlt).1
    rcases List.mem_cons.1 hj with rfl | hj
    · exact (hafter.job j hknown).2.started (started_of_runJob hcall hlt hfirst)
    · exact ih hrest j hj hknown

omit hcall in
/-- A drain runs the jobs that wait when it begins. -/
theorem runJobs_of_drainJobs {count : Nat} (hrun : drainJobs call thread s = .ok count t) :
    runJobs call thread s.jobs.waiting (s.withJobs { s.jobs with waiting := [] }) = .ok () t := by
  unfold drainJobs at hrun
  obtain ⟨_, r, hlook, hrun⟩ := Exec.bind_eq_ok hrun
  cases hlook
  obtain ⟨_, r, htake, hrun⟩ := Exec.bind_eq_ok hrun
  cases htake
  obtain ⟨_, r, hruns, hrun⟩ := Exec.bind_eq_ok hrun
  obtain rfl := (EStateM.Result.ok.inj hrun).2
  exact hruns

/-- A drain leaves no job behind that was made before. -/
theorem started_of_drainJobs {count : Nat} (hrun : drainJobs call thread s = .ok count t) :
    ∀ j ∈ s.jobs.waiting, j < s.jobs.jobs.size → (t.jobs.job j).started = true :=
  started_of_runJobs hcall (s := s.withJobs { s.jobs with waiting := [] })
    (runJobs_of_drainJobs hrun)

end Draining

/-- Code that returns leaves no job unfinished that started meanwhile. -/
theorem finished_of_returned {α : Type} {x : Exec α} {a : α} {s t : State} {j : JobId}
    (hx : ∀ u, Leads u x u) (hrun : x s = .ok a t) (hnew : (s.jobs.job j).started = false)
    (hj : j < t.jobs.jobs.size) (hstarted : (t.jobs.job j).started = true) :
    (t.jobs.job j).finished = true := by
  -- what is under way may be anything that accounts for the jobs that have started before
  let working (k : JobId) : Bool := (s.jobs.job k).started && !(s.jobs.job k).finished
  let u := ((List.range s.jobs.jobs.size).filter working).map fun k =>
    Activity.running k (s.jobs.job k).work
  have hbefore : InFlight ⟨u, s⟩ := by
    intro k hk hbegun hopen
    refine List.mem_flatMap.2 ⟨.running k (s.jobs.job k).work, ?_, List.mem_cons_self⟩
    refine List.mem_map_of_mem (List.mem_filter.2 ⟨List.mem_range.2 hk, ?_⟩)
    simp only [working, hbegun, hopen]
    rfl
  have hafter : InFlight ⟨u, t⟩ :=
    ((hx u).strides hrun []).moves.preserve (fun _ _ hmove h => h.move hmove) hbefore
  cases hfinished : (t.jobs.job j).finished with
  | true => rfl
  | false =>
    obtain ⟨a, ha, hmem⟩ := List.mem_flatMap.1 (hafter j hj hstarted hfinished)
    obtain ⟨k, hk, rfl⟩ := List.mem_map.1 ha
    obtain rfl := List.mem_singleton.1 hmem
    have hworking := (List.mem_filter.1 hk).2
    simp only [working, hnew] at hworking
    cases hworking

/-- A drain that returns has finished every job that waited and had not started. -/
theorem finished_of_drainJobs {call : Runner} (hcall : call.IsTraced) {thread : Thread} {s t : State}
    {count : Nat} (hrun : drainJobs call thread s = .ok count t) {j : JobId}
    (hj : j ∈ s.jobs.waiting) (hlt : j < s.jobs.jobs.size) (hnew : (s.jobs.job j).started = false) :
    (t.jobs.job j).finished = true := by
  have hleads (u : List Activity) : Leads u (drainJobs call thread) u := leads_drainJobs hcall thread u
  have hext := ((hleads []).strides hrun []).moves.extends
  exact finished_of_returned hleads hrun hnew (hext.job j hlt).1
    (started_of_drainJobs hcall hrun j hj hlt)

end AssetLoading

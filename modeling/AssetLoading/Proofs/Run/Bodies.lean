import AssetLoading.Proofs.Run.References

/-! # Tracing the parts of a task

  The actions of a task and its hooks. Each of them is run on behalf of an
  activity that says what is to be done afterwards.
-/

namespace AssetLoading

theorem leads_modifyBody_estimate (u : List Activity) (b : BodyId) (f : TaskBody → TaskBody)
    (hf : ∀ body : TaskBody, ∃ noted reported, f body = { body with noted, reported }) :
    Leads u (modifyBody b f) u :=
  fun _ _ => .one (.body (.estimate b f hf)) rfl ⟨rfl, rfl⟩

theorem leads_takeNoted (u : List Activity) (b : BodyId) : Leads u (takeNoted b) u := by
  intro s due
  unfold takeNoted
  refine .look ?_
  exact (leads_modifyBody_estimate u b _ fun body => ⟨none, body.reported, rfl⟩).first
    fun _ t => .pure ⟨rfl, rfl⟩

theorem leads_takeReported (u : List Activity) (b : BodyId) : Leads u (takeReported b) u := by
  intro s due
  unfold takeReported
  refine .look ?_
  exact (leads_modifyBody_estimate u b _ fun body => ⟨body.noted, none, rfl⟩).first
    fun _ t => .pure ⟨rfl, rfl⟩

section Running

variable {call : Runner} (hcall : call.IsTraced) (thread : Thread) (b : BodyId) (asset : Handle)

include hcall

/-- An action runs on behalf of an activity and leaves its outcome there. -/
theorem traced_runAction {a : Activity} {u : List Activity} {s : State}
    {due : List (List Subscription)} {i : Nat} (priority : Int32)
    (hmay : a.MayAct b i (thread == .main)) :
    Traced ⟨⟨a :: u, s⟩, due⟩ (runAction call thread b i asset priority) fun ok =>
      Scene.Has (a.concluded ok :: u) due := by
  unfold runAction
  refine (leads_modifyBody_estimate _ b _ fun body => ⟨none, body.reported, rfl⟩).first fun _ t => ?_
  refine .look ?_
  dsimp only
  split
  next action htaken haction =>
    have hi := (List.getElem?_eq_some_iff.1 haction).1
    refine .first (.body (.act a b i (thread == .main) hmay htaken hi)) rfl ?_
    have hadmit : Scope.Admitted
        { thread, asset := some asset, body := some b, priority := some priority }
        (.acting a b i :: u) := Scope.admitted_of_runs rfl rfl rfl
    refine (hcall.script _ _ _ hadmit).first fun ran t => .look ?_
    exact .first (.body (.actEnd a b i _ _ hmay)) rfl (.pure ⟨rfl, rfl⟩)
  next hgone =>
    -- the data was freed, or the body has no such action
    have hgone : (t.body b).taken = true ∨ (t.body b).actions.length ≤ i := by
      cases htaken : (t.body b).taken with
      | true => exact .inl rfl
      | false =>
        cases haction : (t.body b).actions[i]? with
        | none => exact .inr (List.getElem?_eq_none_iff.1 haction)
        | some action => exact absurd haction (hgone action htaken)
    exact .turn (.body (.actSkip a b i _ hmay hgone)) (.pure ⟨rfl, rfl⟩)

/-- The action of a job. -/
theorem traced_runActionAsJob {u : List Activity} {s : State} {due : List (List Subscription)}
    {j : JobId} {i : Nat} (priority : Int32) :
    Traced ⟨⟨.running j (.action b i asset priority) :: u, s⟩, due⟩
      (runActionAsJob call thread b i asset priority) fun ok =>
        Scene.Has (.ran j (.action b i asset priority) ok :: u) due := by
  unfold runActionAsJob
  refine .bind (traced_runAction hcall thread b asset priority ⟨rfl, rfl⟩) ?_
  rintro ok ⟨⟨v, t⟩, l⟩ ⟨rfl, rfl⟩
  refine (leads_takeNoted _ b).first fun noted t => ?_
  cases noted with
  | none => exact .pure ⟨rfl, rfl⟩
  | some complexity =>
    exact (leads_modifyBody_estimate _ b _ fun body => ⟨body.noted, some complexity, rfl⟩).first
      fun _ t => .pure ⟨rfl, rfl⟩

/-- The failure hook runs before the task comes to its end. -/
theorem leads_runFailureHook (u : List Activity) (e : Entry) :
    Leads (.concluding e false :: u) (runFailureHook call thread e.body e.asset)
      (.ending e.abort :: u) := by
  intro s due
  unfold runFailureHook
  refine .look ?_
  dsimp only
  split
  next code htaken hhook =>
    refine .first (.body (.fail e htaken (by simp [hhook]))) rfl ?_
    have hadmit : Scope.Admitted { thread, asset := some e.asset, body := some e.body }
        (.failing e :: u) := Scope.admitted_of_runs rfl rfl rfl
    refine (hcall.script _ _ _ hadmit).first fun _ t => .look ?_
    exact .one (.body (.failEnd e)) rfl ⟨rfl, rfl⟩
  next hgone =>
    have hgone : (s.body e.body).taken = true ∨ (s.body e.body).onFailure = none := by
      cases htaken : (s.body e.body).taken with
      | true => exact .inl rfl
      | false =>
        cases hhook : (s.body e.body).onFailure with
        | none => exact .inr rfl
        | some code => exact absurd hhook (hgone code htaken)
    exact .turn (.body (.failSkip e hgone)) (.pure ⟨rfl, rfl⟩)

/-- The body of a task is freed on behalf of the activity that ends the task. -/
theorem leads_freeBody {a : Activity} (u : List Activity) (hmay : a.MayFree b) :
    Leads (a :: u) (freeBody call thread b asset) (a.freed :: u) := by
  intro s due
  unfold freeBody
  refine .look ?_
  dsimp only
  split
  next code htaken hhook =>
    refine .firstTwo (.body (.free a b asset hmay htaken (by simp [hhook]))) rfl ?_
    have hadmit : Scope.Admitted { thread, asset := some asset, body := some b }
        (.freeing a b :: u) := Scope.admitted_of_runs rfl rfl rfl
    refine (hcall.script _ _ _ hadmit).first fun _ t => .look ?_
    exact .one (.body (.freeEnd a b hmay)) rfl ⟨rfl, rfl⟩
  next hgone =>
    have hgone : (s.body b).taken = true ∨ (s.body b).onFree = none := by
      cases htaken : (s.body b).taken with
      | true => exact .inl rfl
      | false =>
        cases hhook : (s.body b).onFree with
        | none => exact .inr rfl
        | some code => exact absurd hhook (hgone code htaken)
    exact .first (.body (.freeSkip a b hmay hgone)) rfl (.pure ⟨rfl, rfl⟩)

end Running

end AssetLoading

import AssetLoading.Proofs.Run.References

/-! # Tracing load events

  Loads are staged at the end of a task, and delivered or dropped later. The
  reference of a staged load is in nobody's hands while the load is staged; a
  delivery takes all of them up at once and drops them one after the other.
-/

namespace AssetLoading

theorem leads_unsubscribe (u : List Activity) (h : Handle) (id : Option Nat) :
    Leads u (unsubscribe h id) u := by
  intro s due
  unfold unsubscribe
  exact .look (.first (.notice (.unsubscribe h id)) rfl (.pure ⟨rfl, rfl⟩))

section Running

variable {call : Runner} (hcall : call.IsTraced) (thread : Thread)

include hcall

/-- The next call that is due is made. -/
theorem traced_notify {u : List Activity} {s : State} {due : List (List Subscription)}
    (sub : Subscription) (subs : List Subscription) :
    Traced ⟨⟨u, s⟩, (sub :: subs) :: due⟩ (notify call thread sub) fun _ =>
      Scene.Has u (subs :: due) := by
  unfold notify
  refine .look (.first (.notice (.call sub subs)) rfl ?_)
  have hadmit : Scope.Admitted { thread, asset := some sub.asset } u :=
    Scope.admitted_of_body_eq_none rfl (.inl rfl)
  exact (hcall.script _ _ _ hadmit).first fun _ t => .pure ⟨rfl, rfl⟩

/-- All calls that are due are made. -/
theorem traced_notifyAll {u : List Activity} {s : State} {due : List (List Subscription)}
    (subs : List Subscription) :
    Traced ⟨⟨u, s⟩, subs :: due⟩ (notifyAll call thread subs) fun _ => Scene.Has u due := by
  induction subs generalizing s with
  | nil => exact .turn (.notice .called) (.pure ⟨rfl, rfl⟩)
  | cons sub subs ih =>
    refine .bind (traced_notify hcall thread sub subs) ?_
    rintro _ ⟨⟨v, t⟩, l⟩ ⟨rfl, rfl⟩
    exact ih

theorem leads_subscribe (u : List Activity) (h : Handle) (label : String) (code : Script) :
    Leads u (subscribe call thread h label code) u := by
  intro s due
  unfold subscribe
  refine .look (.first (.notice (.subscribe h label code)) rfl (.look ?_))
  dsimp only
  show Traced ⟨⟨u, _⟩, (if (s.asset h).state.isLoaded && !s.notices.staged.contains h then _
    else _) :: due⟩ (if (s.asset h).state.isLoaded && !s.notices.staged.contains h then _ else _) _
  split
  next =>
    refine .bind (traced_notify hcall thread _ []) ?_
    rintro _ ⟨⟨v, t⟩, l⟩ ⟨rfl, rfl⟩
    exact .turn (.notice .called) (.pure ⟨rfl, rfl⟩)
  next => exact .turn (.notice .called) (.pure ⟨rfl, rfl⟩)

theorem leads_deliver (u : List Activity) : Leads u (deliver call thread) u := by
  intro s due
  unfold deliver
  refine .look (.first (.notice .takeUp) rfl ?_)
  refine .bind (traced_notifyAll hcall thread _) ?_
  rintro _ ⟨⟨v, t⟩, l⟩ ⟨rfl, rfl⟩
  exact (leads_releaseAll hcall (.inl rfl) _).first fun _ t => .pure ⟨rfl, rfl⟩

theorem leads_clearNotices (u : List Activity) : Leads u (clearNotices call thread) u := by
  intro s due
  unfold clearNotices
  exact .look (.first (.notice .clear) rfl (leads_releaseAll hcall (.inl rfl) _ _ due))

end Running

end AssetLoading

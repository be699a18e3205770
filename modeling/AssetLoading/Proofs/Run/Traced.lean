import AssetLoading.Proofs.Run.Stride

/-! # Tracing code

  `Traced c x Q` says that code `x`, started in scene `c`, does nothing but
  strides: if it returns, then in a scene that satisfies `Q`; if it comes to an
  early end, then in a way that some last moment explains.

  In the middle of a stride the state has changed already, while the last scene is
  still the one in which the stride began. `TracedFrom c s x Q` says the same of
  code that goes on there, in state `s`.

  The rules below follow the ways in which code is put together, so that one
  lemma for each function of the scheduler traces the whole of it.
-/

namespace AssetLoading

/-! ### Early ends -/

/-- How a moment explains an early end in a state. A reference that was dropped
once too often was dropped where the count was down already. A reference on a
destroyed asset was asked for while it was destroyed; the only one that the
scheduler asks for on its own account is that of a load event, at the end of a
task for the asset. -/
def Halt.EndsIn (m : Moment) (s : State) : Halt → Prop
  | .fatal (.releasedTooMany holder h ..) =>
    s = m.state.dropped holder h ∧ (m.state.asset h).refs ≤ 0 ∧
      ∃ u, m.underWay = gained holder h u
  | .fatal (.addedToDestroyed holder h ..) =>
    s = m.state ∧ (m.state.asset h).destroyed = true ∧
      (holder = .notice → ∃ e, .ended e ∈ m.underWay ∧ e.asset = h)
  | _ => s = m.state

/-- A reference that was dropped once too often is all that sets the state of an early
end apart from the last moment. -/
theorem Halt.EndsIn.state_eq {reason : Halt} {m : Moment} {s : State} (h : reason.EndsIn m s) :
    s = m.state ∨ ∃ holder k, s = m.state.dropped holder k := by
  cases reason with
  | fatal error =>
    cases error with
    | releasedTooMany holder k => exact .inr ⟨holder, k, h.1⟩
    | addedToDestroyed => exact .inl h.1
    | _ => exact .inl h
  | _ => exact .inl h

/-- Code that goes on in a state does nothing but strides from the last scene on. -/
def TracedFrom {α : Type} (c : Scene) (s : State) (x : Exec α) (Q : α → Scene → Prop) : Prop :=
  match x s with
  | .ok a t => ∃ d : Scene, Strides c d ∧ d.state = t ∧ Q a d
  | .error e t => ∃ n, Moves c.toMoment n ∧ e.EndsIn n t

/-- Code does nothing but strides. -/
abbrev Traced {α : Type} (c : Scene) (x : Exec α) (Q : α → Scene → Prop) : Prop :=
  TracedFrom c c.state x Q

/-- A scene with certain activities under way and certain calls due. -/
def Scene.Has (u : List Activity) (due : List (List Subscription)) (c : Scene) : Prop :=
  c.underWay = u ∧ c.due = due

/-- Code does nothing but strides and goes from one thing under way to another. -/
def Leads {α : Type} (u : List Activity) (x : Exec α) (v : List Activity) : Prop :=
  ∀ s due, Traced ⟨⟨u, s⟩, due⟩ x fun _ => Scene.Has v due

/-- A runner of client code does nothing but strides. The stride that begins the
destruction of an asset ends with the start of its destructor, so it is not over
when the destructor is called. -/
structure Runner.IsTraced (call : Runner) : Prop where
  script : ∀ scope code u, scope.Admitted u → Leads u (call (.script scope code)) u
  destructor : ∀ scope h contents u s due c, scope.Admitted (.destroying h :: u) →
    Moves c.toMoment ⟨.destroying h :: u, s⟩ →
    Stride c ⟨⟨.destroying h :: u, s.record (.destroyed h (s.asset h).refs contents.tag
      contents.kind.category contents.value)⟩, due⟩ →
    TracedFrom c s (call (.destructor scope h contents)) fun _ =>
      Scene.Has (.destroying h :: u) due

/-! ### Code that returns and code that does not -/

section Ends

variable {α β : Type} {x : Exec α} {f : α → Exec β} {s t : State}

/-- Where code was put together from two parts, both have returned. -/
theorem Exec.bind_eq_ok {b : β} (h : (x >>= f) s = .ok b t) :
    ∃ a r, x s = .ok a r ∧ f a r = .ok b t := by
  change EStateM.bind x f s = .ok b t at h
  unfold EStateM.bind at h
  split at h
  next a r hx => exact ⟨a, r, hx, h⟩
  next => cases h

/-- Code that comes to an early end does so in its first part, or in what follows. -/
theorem Exec.bind_eq_error {e : Halt} (h : (x >>= f) s = .error e t) :
    x s = .error e t ∨ ∃ a r, x s = .ok a r ∧ f a r = .error e t := by
  change EStateM.bind x f s = .error e t at h
  unfold EStateM.bind at h
  split at h
  next a r hx => exact .inr ⟨a, r, hx, h⟩
  next cause r hx =>
    cases h
    exact .inl hx

end Ends

/-! ### Rules -/

section Rules

variable {α β : Type} {c d : Scene} {m n : Moment} {s : State} {x : Exec α} {f : α → Exec β}

theorem TracedFrom.pure {Q : α → Scene → Prop} {a : α} (h : Q a c) :
    Traced c (Pure.pure a : Exec α) Q :=
  ⟨c, .refl, rfl, h⟩

theorem TracedFrom.throw {Q : α → Scene → Prop} {e : Halt} (hmoves : Moves c.toMoment m)
    (h : e.EndsIn m s) : TracedFrom c s (MonadExcept.throw e : Exec α) Q :=
  ⟨m, hmoves, h⟩

/-- Strides in front of code belong to it. -/
theorem TracedFrom.after {Q : α → Scene → Prop} (hcd : Strides c d) (hs : d.state = s)
    (h : Traced d x Q) : TracedFrom c s x Q := by
  unfold Traced TracedFrom at h
  unfold TracedFrom
  rw [hs] at h
  split at h
  · obtain ⟨k, hk, hstate, hq⟩ := h
    exact ⟨k, hcd.trans hk, hstate, hq⟩
  · obtain ⟨k, hk, he⟩ := h
    exact ⟨k, hcd.moves.trans hk, he⟩

/-- A stride that leaves the state alone tells how far the code has come. -/
theorem TracedFrom.turn {Q : α → Scene → Prop} {u v : List Activity} {s : State}
    {due due' : List (List Subscription)} (hstride : Stride ⟨⟨u, s⟩, due⟩ ⟨⟨v, s⟩, due'⟩)
    (h : Traced ⟨⟨v, s⟩, due'⟩ x Q) : Traced ⟨⟨u, s⟩, due⟩ x Q :=
  .after (.single hstride) rfl h

theorem TracedFrom.weaken {Q R : α → Scene → Prop} (h : TracedFrom c s x Q)
    (hqr : ∀ a d, Q a d → R a d) : TracedFrom c s x R := by
  unfold TracedFrom at h ⊢
  split at h
  · obtain ⟨d, hd, hstate, hq⟩ := h
    exact ⟨d, hd, hstate, hqr _ d hq⟩
  · exact h

/-- A stride that leaves the state alone and follows code belongs to it. -/
theorem TracedFrom.before {Q R : α → Scene → Prop} (h : TracedFrom c s x Q)
    (hqr : ∀ a d, Q a d → ∃ k, Stride d k ∧ k.state = d.state ∧ R a k) : TracedFrom c s x R := by
  unfold TracedFrom at h ⊢
  split at h
  · obtain ⟨d, hd, hstate, hq⟩ := h
    obtain ⟨k, hk, hsame, hr⟩ := hqr _ _ hq
    exact ⟨k, hd.tail hk, hsame.trans hstate, hr⟩
  · exact h

theorem TracedFrom.bind {Q : α → Scene → Prop} {R : β → Scene → Prop} (hx : TracedFrom c s x Q)
    (hf : ∀ a d, Q a d → Traced d (f a) R) : TracedFrom c s (x >>= f) R := by
  unfold TracedFrom at hx ⊢
  show match EStateM.bind x f s with
    | .ok a t => ∃ d : Scene, Strides c d ∧ d.state = t ∧ R a d
    | .error e t => ∃ n, Moves c.toMoment n ∧ e.EndsIn n t
  rw [EStateM.bind]
  -- the second part starts where the first ended; if the first did not return, that is all
  split at hx
  next a t hrun =>
    obtain ⟨d, hd, rfl, hq⟩ := hx
    have hfa := hf a d hq
    rw [hrun]
    unfold Traced TracedFrom at hfa
    split at hfa
    next b t hb =>
      obtain ⟨k, hk, hstate, hr⟩ := hfa
      simp only [hb]
      exact ⟨k, hd.trans hk, hstate, hr⟩
    next e t hb =>
      obtain ⟨k, hk, he⟩ := hfa
      simp only [hb]
      exact ⟨k, hd.moves.trans hk, he⟩
  next e t hrun =>
    rw [hrun]
    exact hx

/-- Code that comes to an early end is not gone on with. -/
theorem TracedFrom.halt {R : β → Scene → Prop} (h : TracedFrom c s x fun _ _ => False) :
    TracedFrom c s (x >>= f) R :=
  h.bind fun _ _ hfalse => hfalse.elim

/-- Code that returns at the end of several strides. -/
theorem TracedFrom.of_ok {Q : α → Scene → Prop} {a : α} (hstrides : Strides c d)
    (hrun : x s = .ok a d.state) (hq : Q a d) : TracedFrom c s x Q := by
  unfold TracedFrom
  rw [hrun]
  exact ⟨d, hstrides, rfl, hq⟩

/-- Code that ends a stride. -/
theorem TracedFrom.one {Q : α → Scene → Prop} {a : α} (hstride : Stride c d)
    (hrun : x s = .ok a d.state) (hq : Q a d) : TracedFrom c s x Q :=
  .of_ok (.single hstride) hrun hq

/-- Code that begins by ending a stride. -/
theorem TracedFrom.first {R : β → Scene → Prop} {a : α} (hstride : Stride c d)
    (hrun : x s = .ok a d.state) (hf : Traced d (f a) R) : TracedFrom c s (x >>= f) R :=
  .bind (Q := fun b k => b = a ∧ k = d) (.one hstride hrun ⟨rfl, rfl⟩)
    fun _ _ ⟨hb, hk⟩ => hb ▸ hk ▸ hf

/-- Code that begins with a part of a stride. -/
theorem TracedFrom.part {R : β → Scene → Prop} {t : State} {a : α} (hrun : x s = .ok a t)
    (hf : TracedFrom c t (f a) R) : TracedFrom c s (x >>= f) R := by
  unfold TracedFrom at hf ⊢
  show match EStateM.bind x f s with
    | .ok a t => ∃ d : Scene, Strides c d ∧ d.state = t ∧ R a d
    | .error e t => ∃ n, Moves c.toMoment n ∧ e.EndsIn n t
  rw [EStateM.bind, hrun]
  exact hf

/-- Code that begins by ending a stride in two steps. -/
theorem TracedFrom.firstTwo {γ : Type} {R : γ → Scene → Prop} {y : Exec β} {g : β → Exec γ} {b : β}
    (hstride : Stride c d) (hrun : (x >>= fun _ => y) s = .ok b d.state)
    (hg : Traced d (g b) R) : TracedFrom c s (x >>= fun _ => y >>= g) R := by
  have hassoc : (x >>= fun _ => y >>= g) = (x >>= fun _ => y) >>= g := by
    funext s
    show EStateM.bind x (fun _ => EStateM.bind y g) s = EStateM.bind (EStateM.bind x fun _ => y) g s
    simp only [EStateM.bind]
    cases x s <;> rfl
  rw [hassoc]
  exact .first hstride hrun hg

/-- Code that begins by looking at the state. -/
theorem TracedFrom.look {R : β → Scene → Prop} {g : State → Exec β}
    (h : TracedFrom c s (g s) R) : TracedFrom c s (get >>= g) R :=
  h

/-- Code that does one thing only under a condition, and then goes on. -/
theorem TracedFrom.when {Q R : Unit → Scene → Prop} {p : Prop} [Decidable p] {y : Exec Unit}
    {g : Unit → Exec Unit} (hthen : p → Traced c y Q) (helse : ¬ p → Q () c)
    (hg : ∀ d, Q () d → Traced d (g ()) R) : Traced c (if p then y >>= g else g ()) R := by
  split
  next hp => exact .bind (hthen hp) fun _ n hq => hg n hq
  next hp => exact hg c (helse hp)

end Rules

/-! ### Code that goes from one thing under way to another -/

section Leading

variable {α β : Type} {u v w : List Activity} {x : Exec α} {f : α → Exec β}

/-- Code that returns has made its strides. -/
theorem Traced.strides {c : Scene} {a : α} {t : State} {v : α → List Activity}
    {due : List (List Subscription)} (hx : Traced c x fun a => Scene.Has (v a) due)
    (hrun : x c.state = .ok a t) : Strides c ⟨⟨v a, t⟩, due⟩ := by
  unfold Traced TracedFrom at hx
  rw [hrun] at hx
  obtain ⟨⟨⟨w, t⟩, l⟩, hstrides, rfl, rfl, rfl⟩ := hx
  exact hstrides

/-- Code that comes to an early end has made moves until then. -/
theorem Traced.moves_of_error {Q : α → Scene → Prop} {c : Scene} {e : Halt} {t : State}
    (hx : Traced c x Q) (hrun : x c.state = .error e t) :
    ∃ n, Moves c.toMoment n ∧ e.EndsIn n t := by
  unfold Traced TracedFrom at hx
  rw [hrun] at hx
  exact hx

/-- Code that returns has gone to what it leads to. -/
theorem Leads.strides (hx : Leads u x v) {s t : State} {a : α} (hrun : x s = .ok a t)
    (due : List (List Subscription)) : Strides ⟨⟨u, s⟩, due⟩ ⟨⟨v, t⟩, due⟩ :=
  Traced.strides (hx s due) hrun

theorem Leads.bind (hx : Leads u x v) (hf : ∀ a, Leads v (f a) w) : Leads u (x >>= f) w := by
  intro s due
  refine .bind (hx s due) ?_
  rintro a ⟨⟨k, t⟩, l⟩ ⟨rfl, rfl⟩
  exact hf a t l

/-- After code that leads somewhere the rest goes on there. -/
theorem Leads.first (hx : Leads u x v) {s : State} {due : List (List Subscription)}
    {R : β → Scene → Prop} (hf : ∀ a t, Traced ⟨⟨v, t⟩, due⟩ (f a) R) :
    Traced ⟨⟨u, s⟩, due⟩ (x >>= f) R := by
  refine .bind (hx s due) ?_
  rintro a ⟨⟨k, t⟩, l⟩ ⟨rfl, rfl⟩
  exact hf a t

theorem Leads.pure (u : List Activity) (a : α) : Leads u (Pure.pure a : Exec α) u :=
  fun _ _ => .pure ⟨rfl, rfl⟩

theorem Leads.get (u : List Activity) : Leads u (MonadState.get : Exec State) u :=
  fun s due => ⟨⟨⟨u, s⟩, due⟩, .refl, rfl, rfl, rfl⟩

end Leading

end AssetLoading

import AssetLoading.Proofs.Tasks.Accounts
import AssetLoading.Proofs.Tasks.Stranding

/-! # How tasks are settled

  A task holds a reference on its asset from its acceptance to its end. Whoever ends
  it drops that reference in the same breath, before any other code runs, and nobody
  else drops a reference of a task. So between two strides the references that were
  dropped on behalf of tasks are those of the tasks that ended, one for each of them.
-/

namespace AssetLoading

/-! ### References that are dropped for tasks -/

/-- The asset of which a task's reference is dropped. -/
def Event.taskDrop? : Event → Option Handle
  | .dropped .task h => some h
  | _ => none

/-- The assets of which references were dropped on behalf of tasks, the latest first. -/
def taskDrops (history : List Event) : List Handle :=
  history.filterMap Event.taskDrop?

/-- The ends of tasks, and the references that were dropped on behalf of tasks. -/
def closings (history : List Event) : List (Nat × Bool) × List Handle :=
  (endings history, taskDrops history)

/-- The task with this number was accepted for this asset. -/
def State.AcceptedFor (s : State) (id : Nat) (h : Handle) : Prop :=
  ∃ b data, .accepted id b h data ∈ s.history

/-- For each task that ended, one reference was dropped on its asset, in the order of the
ends, and no other reference was dropped on behalf of tasks. -/
structure Settled (m : Moment) : Prop where
  /-- Nobody is about to drop a reference of a task. -/
  unheld : ∀ h, .holding .task h ∉ m.underWay
  paired : List.Forall₂ (fun p h => m.state.AcceptedFor p.1 h) (endings m.state.history)
    (taskDrops m.state.history)

/-- No task ends, and no reference of a task is dropped. -/
structure Moment.KeepsSettled (m n : Moment) : Prop where
  unheld : ∀ h, .holding .task h ∈ n.underWay → .holding .task h ∈ m.underWay
  closings : closings n.state.history = closings m.state.history

section Settling

variable {m n : Moment} {u : List Activity} {s t : State}

/-! ### Strides that settle nothing -/

theorem closings_cons {e : Event} (hend : e.endOf? = none) (hdrop : e.taskDrop? = none)
    (history : List Event) : closings (e :: history) = closings history := by
  unfold closings endings taskDrops
  rw [List.filterMap_cons_none hend, List.filterMap_cons_none hdrop]

theorem closings_append {new : List Event} (history : List Event)
    (htask : ∀ e ∈ new, e.subject ≠ .task) (hasset : ∀ e ∈ new, e.subject ≠ .asset) :
    closings (new ++ history) = closings history := by
  have hdrops : new.filterMap Event.taskDrop? = [] := by
    refine List.filterMap_eq_nil_iff.2 fun e he => ?_
    have hsubject := hasset e he
    cases e <;> first | rfl | exact absurd rfl hsubject
  unfold closings taskDrops
  rw [endings_append htask, List.filterMap_append, hdrops, List.nil_append]

/-- Only moves of tasks and of references settle something. -/
theorem Records.closings_eq {subject : Subject} (h : Records subject m n) (htask : subject ≠ .task)
    (hasset : subject ≠ .asset) : closings n.state.history = closings m.state.history := by
  obtain ⟨new, hnew, hhistory⟩ := h
  rw [hhistory]
  exact closings_append _ (fun e he => hnew e he ▸ htask) fun e he => hnew e he ▸ hasset

theorem closings_referenced (s : State) (holder : Holder) (h : Handle) :
    closings (s.referenced holder h).history = closings s.history := by
  unfold State.referenced
  split <;> rfl

theorem unheld_cons {a : Activity} {h : Handle} (hmem : .holding .task h ∈ a :: u)
    (ha : ∀ h, a ≠ .holding .task h) : .holding .task h ∈ u :=
  (List.mem_cons.1 hmem).resolve_left fun heq => ha h heq.symm

/-- An activity of a task comes in place of another one. -/
theorem unheld_turn {a b : Activity} (hb : b.ofTasks = true) (h : Handle)
    (hmem : .holding .task h ∈ b :: u) : .holding .task h ∈ a :: u := by
  refine List.mem_cons_of_mem a (unheld_cons hmem fun k heq => ?_)
  rw [heq] at hb
  cases hb

theorem BodyMove.keepsSettled (h : BodyMove m n) : m.KeepsSettled n := by
  have hclosings := h.records.closings_eq (by decide) (by decide)
  refine ⟨?_, hclosings⟩
  cases h with
  | plan => exact fun h hmem => unheld_cons hmem nofun
  | forget => exact fun h hmem => List.mem_cons_of_mem _ hmem
  | estimate | write => exact fun h hmem => hmem
  | act | fail | failEnd | failSkip | free => exact fun h => unheld_turn rfl h
  | actEnd a b i onGpu ok hmay => exact fun h => unheld_turn (hmay.ofTasks ok).2.1 h
  | actSkip a b i onGpu hmay => exact fun h => unheld_turn (hmay.ofTasks false).2.1 h
  | freeEnd a b hmay | freeSkip a b hmay => exact fun h => unheld_turn hmay.ofTasks.2.1 h

theorem JobMove.keepsSettled (h : JobMove m n) : m.KeepsSettled n := by
  have hclosings := h.records.closings_eq (by decide) (by decide)
  have hpicked {j : JobId} {u v : List Activity} (hpick : Picks j u v) (h : Handle)
      (hmem : .holding .task h ∈ v) : .holding .task h ∈ u := by
    cases hpick with
    | next => exact List.mem_cons_of_mem _ (unheld_cons hmem nofun)
    | outOfTurn => exact hmem
  refine ⟨?_, hclosings⟩
  cases h with
  | make | submit => exact fun h hmem => hmem
  | drain => exact fun h hmem => unheld_cons hmem nofun
  | start j hpick => exact fun h hmem => hpicked hpick h (unheld_cons hmem nofun)
  | skip j hpick => exact hpicked hpick
  | work => exact fun h => unheld_turn rfl h
  | finish | drained => exact fun h hmem => List.mem_cons_of_mem _ hmem

theorem JobStride.keepsSettled (h : JobStride m n) : m.KeepsSettled n := by
  cases h with
  | submit => exact ⟨fun h hmem => hmem, rfl⟩
  | summon w =>
    refine ⟨fun h hmem => unheld_cons hmem nofun, ?_⟩
    unfold State.summoned
    split <;> rfl
  | move h => exact h.keepsSettled

theorem NoticeStride.keepsSettled {c d : Scene} (h : NoticeStride c d) :
    c.toMoment.KeepsSettled d.toMoment := by
  cases h with
  | takeUp | clear => exact ⟨fun h hmem => unheld_cons hmem nofun, rfl⟩
  | releaseNext =>
    exact ⟨fun h hmem => List.mem_cons_of_mem _ (unheld_cons (unheld_cons hmem nofun) nofun), rfl⟩
  | released => exact ⟨fun h hmem => List.mem_cons_of_mem _ hmem, rfl⟩
  | _ => exact ⟨fun h hmem => hmem, rfl⟩

theorem PlainStride.keepsSettled (h : PlainStride m n) : m.KeepsSettled n := by
  cases h with
  | note e he =>
    have hplain : e.endOf? = none ∧ e.taskDrop? = none := by
      cases e <;> first | exact ⟨rfl, rfl⟩ | exact he.elim
    exact ⟨fun h hmem => hmem, closings_cons hplain.1 hplain.2 _⟩
  | perform => exact ⟨fun h hmem => unheld_cons hmem nofun, rfl⟩
  | answer => exact ⟨fun h hmem => List.mem_cons_of_mem _ hmem, rfl⟩
  | _ => exact ⟨fun h hmem => hmem, rfl⟩

/-- A reference is dropped that is not one of a task. -/
theorem keepsSettled_dropped {holder : Holder} {h : Handle}
    (hunheld : ∀ k, .holding .task k ∉ gained holder h u) :
    Moment.KeepsSettled ⟨gained holder h u, s⟩ ⟨u, s.dropped holder h⟩ := by
  cases holder with
  | task => exact absurd List.mem_cons_self (hunheld h)
  | notice => exact ⟨fun k hmem => List.mem_cons_of_mem _ hmem, rfl⟩
  | client | dependency => exact ⟨fun k hmem => hmem, rfl⟩

theorem Falls.keepsSettled {h : Handle} (hfalls : Falls h m n)
    (hunheld : ∀ k, .holding .task k ∉ m.underWay) : m.KeepsSettled n := by
  cases hfalls with
  | last holder => exact keepsSettled_dropped hunheld
  | visited hs => exact ⟨fun k hmem => List.mem_cons_of_mem _ (unheld_cons hmem nofun), rfl⟩

theorem AssetStride.keepsSettled (h : AssetStride m n)
    (hunheld : ∀ k, .holding .task k ∉ m.underWay) : m.KeepsSettled n := by
  -- references come and go, but none of a task without an ending that accounts for it
  cases h with
  | take holder h => exact ⟨fun k hmem => hmem, closings_referenced _ holder h⟩
  | drop holder h => exact keepsSettled_dropped hunheld
  | defer r h =>
    refine ⟨fun k hmem => hmem, ?_⟩
    show closings (State.letGo _ r .client h).history = _
    rw [State.history_letGo]
    exact closings_cons rfl rfl _
  | expire h c hfalls =>
    obtain ⟨hheld, hclosings⟩ := hfalls.keepsSettled hunheld
    exact ⟨fun k hmem => hheld k (unheld_cons hmem nofun), hclosings⟩
  | again h hfalls =>
    obtain ⟨hheld, hclosings⟩ := hfalls.keepsSettled hunheld
    exact ⟨hheld, hclosings⟩
  | flush | newRegistry => exact ⟨fun h hmem => unheld_cons hmem nofun, rfl⟩
  | skip => exact ⟨fun k hmem => List.mem_cons_of_mem _ (unheld_cons hmem nofun), rfl⟩
  | flushed | leaveRegistry => exact ⟨fun k hmem => List.mem_cons_of_mem _ hmem, rfl⟩
  | @bury u s r h =>
    refine ⟨fun k hmem => List.mem_cons_of_mem _ hmem, ?_⟩
    show closings (s.unlinked r h).history = closings s.history
    unfold State.unlinked
    split
    · rfl
    · split
      · split <;> rfl
      · rfl
  | _ => exact ⟨fun k hmem => hmem, rfl⟩

/-- A move that keeps the tasks of the queue ends none. -/
theorem TaskMove.keepsSettled (h : TaskMove m n) (hkept : m.KeepsTasks n) : m.KeepsSettled n := by
  cases h with
  | accept => exact absurd hkept.total (Nat.succ_ne_self _)
  | acquire e queue hq =>
    obtain ⟨front, back, -, -, -, rfl⟩ := TaskQueue.acquire_eq_some hq
    exact ⟨fun h hmem => unheld_cons hmem nofun, rfl⟩
  | complete e => exact absurd rfl (hkept.held e.asset)
  | discard e => exact absurd rfl (hkept.held e.asset)
  | drain => exact absurd rfl (hkept.undrained _)
  | unshelve => exact ⟨fun h hmem => unheld_cons hmem nofun, rfl⟩
  | forget => exact ⟨fun h hmem => hmem, rfl⟩
  | exchange es e => exact ⟨fun h hmem => (mem_exchange es e _).1 hmem, rfl⟩
  | shelve | handOver | wait | proceed | discardEnd =>
    exact ⟨fun h hmem => List.mem_cons_of_mem _ hmem, rfl⟩
  | step | runOut | collect | reckon | succeed => exact ⟨fun h => unheld_turn rfl h, rfl⟩
  | discardNext =>
    exact ⟨fun h hmem => List.mem_cons_of_mem _ (unheld_cons (unheld_cons hmem nofun) nofun), rfl⟩

/-! ### Settling -/

namespace Settled

theorem start (p : Session) : Settled ⟨[], p.start⟩ := by
  unfold Session.start
  dsimp only
  split <;> exact ⟨fun h => List.not_mem_nil, .nil⟩

theorem keep (h : Settled m) (hext : m.state.Extends n.state) (hkeeps : m.KeepsSettled n) :
    Settled n := by
  have hclosings := hkeeps.closings
  unfold closings at hclosings
  obtain ⟨hended, hdropped⟩ := Prod.mk.inj hclosings
  refine ⟨fun k hmem => h.unheld k (hkeeps.unheld k hmem), ?_⟩
  rw [hended, hdropped]
  refine h.paired.imp ?_
  rintro p k ⟨b, data, haccepted⟩
  exact ⟨b, data, hext.mem haccepted⟩

/-- A task ends, and its reference is dropped. -/
theorem settle (h : Settled m) (hext : m.state.Extends n.state) {p : Nat × Bool} {k : Handle}
    (hunheld : ∀ h, .holding .task h ∈ n.underWay → .holding .task h ∈ m.underWay)
    (hclosings : closings n.state.history =
      (p :: endings m.state.history, k :: taskDrops m.state.history))
    (haccepted : m.state.AcceptedFor p.1 k) : Settled n := by
  have hmono {id : Nat} {h : Handle} (hold : m.state.AcceptedFor id h) :
      n.state.AcceptedFor id h := by
    obtain ⟨b, data, haccepted⟩ := hold
    exact ⟨b, data, hext.mem haccepted⟩
  obtain ⟨hended, hdropped⟩ := Prod.mk.inj hclosings
  refine ⟨fun k hmem => h.unheld k (hunheld k hmem), ?_⟩
  rw [hended, hdropped]
  exact .cons (hmono haccepted) (h.paired.imp fun _ _ => hmono)

theorem taskStride (h : Settled m) (htrusted : Trusted m) (hstride : TaskStride m n) : Settled n := by
  have hext := hstride.moves.extends
  have hended {a : Activity} {u : List Activity} {s : State} {e : Entry}
      (htrusted : Trusted ⟨a :: u, s⟩) (he : e.tag ∈ a.tags) : s.AcceptedFor e.id e.asset := by
    obtain ⟨data, haccepted⟩ := htrusted e.tag (Moment.mem_tags List.mem_cons_self he)
    exact ⟨e.body, data, haccepted⟩
  cases hstride with
  | @accept u s t =>
    refine h.keep hext ⟨fun h hmem => List.mem_cons_of_mem _ hmem, ?_⟩
    exact closings_referenced s .task t.asset
  | @complete u s e =>
    refine h.settle hext (fun h hmem => List.mem_cons_of_mem _ hmem) (p := (e.id, true))
      (k := e.asset) ?_ (hended htrusted List.mem_cons_self)
    -- staging the asset takes a reference for the notice and closes nothing of a task
    have hquiet : closings (if (s.asset e.asset).state.isLoaded then s.staged e.asset else s).history =
        closings s.history := by
      split
      · exact closings_referenced s .notice e.asset
      · rfl
    obtain ⟨hends, hdrops⟩ := Prod.mk.inj hquiet
    show closings ((s.taskCompleted e).letGo 0 .task e.asset).history = _
    rw [State.history_letGo, ← hends, ← hdrops]
    rfl
  | @discard u s e =>
    refine h.settle hext (fun h hmem => List.mem_cons_of_mem _ hmem) (p := (e.id, false))
      (k := e.asset) ?_ (hended htrusted List.mem_cons_self)
    show closings ((s.record (.discarded e.id)).letGo 0 .task e.asset).history = _
    rw [State.history_letGo]
    rfl
  | shutDown => exact h.keep hext ⟨fun h hmem => hmem, rfl⟩
  | drain => exact h.keep hext ⟨fun h hmem => unheld_cons hmem nofun, rfl⟩
  | move hmove hkept => exact h.keep hext (hmove.keepsSettled hkept)

theorem stride {c d : Scene} (h : Settled c.toMoment) (htrusted : Trusted c.toMoment)
    (hstride : Stride c d) : Settled d.toMoment := by
  have hext := hstride.moves.extends
  cases hstride with
  | asset hstride => exact h.keep hext (hstride.keepsSettled h.unheld)
  | body hmove => exact h.keep hext hmove.keepsSettled
  | job hstride => exact h.keep hext hstride.keepsSettled
  | task hstride => exact h.taskStride htrusted hstride
  | notice hstride => exact h.keep hext hstride.keepsSettled
  | plain hstride => exact h.keep hext hstride.keepsSettled

/-- As many references were dropped on behalf of tasks as tasks ended. -/
theorem length_eq (h : Settled m) :
    (taskDrops m.state.history).length = (endings m.state.history).length :=
  h.paired.length_eq.symm

end Settled

/-- In every scene the tasks that ended are settled. -/
theorem Occurs.settled {c : Scene} (hc : Occurs c) : Settled c.toMoment :=
  hc.invariant (P := fun c => Settled c.toMoment) Settled.start
    fun _ _ hc hstride h => h.stride hc.booked.trusted hstride

end Settling

end AssetLoading

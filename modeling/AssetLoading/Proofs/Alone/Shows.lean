import AssetLoading.Proofs.Alone.Course

/-! # States that show a point

  A state shows a point of a task if its asset is as the point says, and the same was
  told. What the scheduler still has to do is named beside it, so one law for each thing
  that code does says how the point moves and what is left to do.

  Everything here is code that returns, so the laws say that it does.
-/

namespace AssetLoading

/-! ### Code that returns -/

/-- Code returns, and its result and the state it leaves are right. -/
def Returns {α : Type} (x : Exec α) (s : State) (Q : α → State → Prop) : Prop :=
  ∃ a t, x s = .ok a t ∧ Q a t

namespace Returns

variable {α β : Type} {x : Exec α} {f : α → Exec β} {s t : State} {P : α → State → Prop}
  {Q : β → State → Prop}

theorem of_eq {a : α} (h : x s = .ok a t) (ha : P a t) : Returns x s P :=
  ⟨a, t, h, ha⟩

theorem pure {a : α} (ha : P a s) : Returns (Pure.pure a : Exec α) s P :=
  of_eq rfl ha

/-- Code whose first part is known. -/
theorem part {a : α} (h : x s = .ok a t) (hf : Returns (f a) t Q) : Returns (x >>= f) s Q := by
  obtain ⟨b, u, hrun, hb⟩ := hf
  refine ⟨b, u, ?_, hb⟩
  show EStateM.bind x f s = _
  rw [EStateM.bind, h]
  exact hrun

/-- Code that begins by looking at the state. -/
theorem look {g : State → Exec β} (hg : Returns (g s) s Q) : Returns (get >>= g) s Q :=
  part rfl hg

/-- Code whose first part returns. -/
theorem first (hx : Returns x s P) (hf : ∀ a t, P a t → Returns (f a) t Q) :
    Returns (x >>= f) s Q := by
  obtain ⟨a, t, hrun, ha⟩ := hx
  exact part hrun (hf a t ha)

/-- What holds of the outcome may be weakened. -/
theorem mono {R : α → State → Prop} (hx : Returns x s P) (h : ∀ a t, P a t → R a t) :
    Returns x s R := by
  obtain ⟨a, t, hrun, ha⟩ := hx
  exact ⟨a, t, hrun, h a t ha⟩

end Returns

/-- A reference on an asset that has some is taken, and that is all. -/
theorem addref_of_held {s : State} {h : Handle} (hheld : (s.asset h).IsHeld) (holder : Holder) :
    addref holder h s = .ok () (s.took holder h) := by
  have hwhole : ¬(s.asset h).destroyed = true := by simp [hheld.whole]
  have hsome : (s.asset h).refs ≠ 0 := Int.ne_of_gt hheld.refs
  rw [addref_run, if_neg hwhole]
  unfold State.referenced
  rw [if_neg hsome]

/-! ### What is left to do -/

/-- What the scheduler has to do. -/
structure Duty where
  /-- The tasks. -/
  queue : TaskQueue
  /-- The jobs. -/
  jobs : JobQueue
  /-- The loads to be delivered. -/
  staged : List Handle

/-- What the scheduler has to do in a state. -/
def State.duty (s : State) : Duty :=
  ⟨s.queue, s.jobs, s.notices.staged⟩

namespace Solo

variable {t : Solo} {g : Settings} {p : Point} {d : Duty} {s u : State} {e : Event}

/-! ### Points and states -/

/-- A state shows a point of a task, with something left to do. -/
structure Shows (t : Solo) (g : Settings) (p : Point) (d : Duty) (s : State) : Prop where
  made : t.handle < s.assets.size
  asset : s.asset t.handle = p.asset
  account : s.account = p.told
  duty : s.duty = d
  settings : s.settings = g
  label : s.client.labelOf t.handle = t.label
  keys : (s.notices.subscriptions.map Prod.fst).Nodup
  calls : s.notices.subscribers t.handle = t.calls

theorem account_record (s : State) (e : Event) :
    (s.record e).account = e.shared?.toList ++ s.account := by
  unfold State.account State.record
  cases h : e.shared? <;> simp [h]

namespace Shows

theorem record (hs : t.Shows g p d s) {e' : Event} (he : e.shared? = some e') :
    t.Shows g (p.tell e') d (s.record e) := by
  refine { hs with account := ?_ }
  rw [account_record, he, hs.account]
  rfl

/-- What is not told in every way of running a task does not move the point. -/
theorem record_hidden (hs : t.Shows g p d s) (he : e.shared? = none) :
    t.Shows g p d (s.record e) := by
  refine { hs with account := ?_ }
  rw [account_record, he, hs.account]
  rfl

theorem changed (hs : t.Shows g p d s) (f : Asset → Asset) :
    t.Shows g (p.changed f) d (s.modifyAsset t.handle f) := by
  refine { hs with made := ?_, asset := ?_ }
  · rw [State.size_modifyAsset]
    exact hs.made
  · rw [State.asset_modifyAsset, if_pos ⟨rfl, hs.made⟩, hs.asset]
    rfl

theorem modifyBody (hs : t.Shows g p d s) (b : BodyId) (f : TaskBody → TaskBody) :
    t.Shows g p d (s.modifyBody b f) :=
  { hs with }

theorem modifyQueue (hs : t.Shows g p d s) (f : TaskQueue → TaskQueue) :
    t.Shows g p { d with queue := f d.queue } (s.withQueue (f s.queue)) :=
  { hs with
    duty := by
      rw [← hs.duty]
      rfl }

theorem modifyJobs (hs : t.Shows g p d s) (f : JobQueue → JobQueue) :
    t.Shows g p { d with jobs := f d.jobs } (s.withJobs (f s.jobs)) :=
  { hs with
    duty := by
      rw [← hs.duty]
      rfl }

theorem queue_eq (hs : t.Shows g p d s) : s.queue = d.queue :=
  congrArg Duty.queue hs.duty

theorem jobs_eq (hs : t.Shows g p d s) : s.jobs = d.jobs :=
  congrArg Duty.jobs hs.duty

theorem staged_eq (hs : t.Shows g p d s) : s.notices.staged = d.staged :=
  congrArg Duty.staged hs.duty

/-- What is to be done is what the state says. -/
theorem own (hs : t.Shows g p d s) : t.Shows g p ⟨s.queue, s.jobs, d.staged⟩ s :=
  { hs with
    duty := by
      rw [← hs.staged_eq]
      rfl }

theorem held (hs : t.Shows g p d s) (hp : p.asset.IsHeld) : (s.asset t.handle).IsHeld := by
  rw [hs.asset]
  exact hp

theorem took (hs : t.Shows g p d s) (holder : Holder) :
    t.Shows g (t.took p holder) d (s.took holder t.handle) :=
  (hs.changed _).record rfl

theorem dropped (hs : t.Shows g p d s) (holder : Holder) :
    t.Shows g (t.dropped p holder) d (s.dropped holder t.handle) :=
  (hs.changed _).record rfl

/-- A reference is dropped, whether or not the asset is left to the main thread then. -/
theorem releaseDeferred (hs : t.Shows g p d s) (hsome : 0 < p.asset.refs) (r : RegistryId)
    (holder : Holder) :
    Returns (releaseDeferred r holder t.handle) s fun _ u =>
      t.Shows g (t.dropped p holder) d u := by
  have hrun := releaseDeferred_run r holder t.handle s
  rw [if_pos (hs.asset ▸ hsome)] at hrun
  refine .of_eq hrun ?_
  unfold State.letGo
  split
  · exact { hs.dropped holder with }
  · exact hs.dropped holder

theorem stage (hs : t.Shows g p d s) (hp : p.asset.IsHeld) :
    Returns (stage t.handle) s fun _ u =>
      t.Shows g (t.took p .notice) { d with staged := d.staged ++ [t.handle] } u := by
  refine .part (addref_of_held (hs.held hp) .notice) (.of_eq rfl { hs.took .notice with duty := ?_ })
  rw [← hs.duty]
  rfl

/-- Whatever spares the task leaves what is to be done. -/
theorem spared (hs : t.Shows g p d s) (hsu : s.Spares t.handle u) {q : Point}
    (hasset : u.asset t.handle = q.asset) (haccount : u.account = q.told) :
    t.Shows g q d u where
  made := Nat.lt_of_lt_of_le hs.made hsu.assets
  asset := hasset
  account := haccount
  duty := by
    rw [← hs.duty, State.duty, hsu.queue, hsu.jobs, hsu.notices]
    rfl
  settings := hsu.settings.trans hs.settings
  label := hsu.label.trans hs.label
  keys := hsu.notices ▸ hs.keys
  calls := hsu.notices ▸ hs.calls

theorem affected (hs : t.Shows g p d s) {b : Option BodyId} {e : Effect}
    (hsu : s.Affected t.handle b e u) : t.Shows g (p.affected e) d u := by
  refine hs.spared hsu.toSpares ?_ ?_
  · rw [hsu.asset, hs.asset]
    rfl
  · rw [hsu.account, hs.account]
    rfl

/-- Code that a reading explains does to the point what the reading says, if that leaves a
reference. -/
theorem runs (hs : t.Shows g p d s) (hp : p.asset.IsHeld) {call : Runner} {b : Option BodyId}
    {priority : Option Int32} {code : Script} {data : List Int}
    (hcode : t.meaning.Explains call t.handle b priority code) (thread : Thread)
    (hb : ∀ c ∈ b, c < s.bodies.size) (hdata : data = (b.map fun c => (s.body c).data).getD [])
    (hleft : (p.asset.affected (t.meaning.script code b priority p.asset data)).IsHeld) :
    ∃ v, call (.script { thread, asset := some t.handle, body := b, priority } code) s =
        .ok (t.meaning.script code b priority p.asset data).ran v ∧
      s.Affected t.handle b (t.meaning.script code b priority p.asset data) v := by
  have hrun := hcode s thread data hs.made (hs.held hp) hb hdata
  rw [hs.asset] at hrun
  exact hrun hleft

end Shows

/-! ### The body of the task -/

/-- The task is under way: its body holds the data and the cost estimates that were
reported and not taken in yet, and no asset is left to the main thread. -/
structure Carries (t : Solo) (data : List Int) (noted reported : Option Int32) (s : State) :
    Prop where
  made : t.body < s.bodies.size
  body : s.body t.body = { t.plan.body with data, noted, reported }
  doomed : (s.registry 0).doomed = []

namespace Carries

variable {data : List Int} {noted reported : Option Int32}

theorem of_eq (hs : t.Carries data noted reported s) (hbodies : u.bodies = s.bodies)
    (hregistries : u.registries = s.registries) : t.Carries data noted reported u := by
  have hbody : u.body t.body = s.body t.body := by
    unfold State.body
    rw [hbodies]
  have hregistry : u.registry 0 = s.registry 0 := by
    unfold State.registry
    rw [hregistries]
  exact ⟨hbodies ▸ hs.made, hbody.trans hs.body, hregistry ▸ hs.doomed⟩

theorem record (hs : t.Carries data noted reported s) (e : Event) :
    t.Carries data noted reported (s.record e) :=
  hs.of_eq rfl rfl

theorem modifyBody (hs : t.Carries data noted reported s) {data' : List Int}
    {noted' reported' : Option Int32} {f : TaskBody → TaskBody}
    (hf : f { t.plan.body with data, noted, reported } =
      { t.plan.body with data := data', noted := noted', reported := reported' }) :
    t.Carries data' noted' reported' (s.modifyBody t.body f) where
  made := by
    show t.body < (s.bodies.modify t.body f).size
    rw [Array.size_modify]
    exact hs.made
  body := by
    rw [State.body_modifyBody, if_pos ⟨rfl, hs.made⟩, hs.body, hf]
  doomed := hs.doomed

theorem affected (hs : t.Carries data noted reported s) {h : Handle} {e : Effect}
    (hsu : s.Affected h (some t.body) e u) :
    t.Carries e.data (e.noted.or noted) reported u where
  made := Nat.lt_of_lt_of_le hs.made hsu.bodies
  body := by
    rw [hsu.body _ rfl, hs.body]
    rfl
  doomed := hsu.doomed.trans hs.doomed

end Carries

end Solo

end AssetLoading

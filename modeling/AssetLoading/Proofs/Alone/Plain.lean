import AssetLoading.Proofs.Alone.Actions
import AssetLoading.Proofs.Run.Scripts

/-! # Plain scripts

  A script is plain if it keeps to its own asset and task: it sets the load state,
  reads and writes the contents, reports cost estimates and works on the data. What such
  a script does can be read off it, so tasks made of plain scripts depend on nothing but
  their asset, their data and their priority.
-/

namespace AssetLoading

/-! ### What plain operations do -/

/-- An operation keeps to the asset and the task of its code. -/
def Op.isPlain : Op → Bool
  | .setState .surrounding _ | .write .surrounding .. | .read .surrounding _ | .setComplexity _
  | .priority | .pushData _ | .clearData | .data => true
  | _ => false

namespace Effect

/-- Nothing was done yet. -/
def start (a : Asset) (data : List Int) : Effect where
  ran := true
  state := a.state
  contents := a.contents
  refs := 0
  data := data
  noted := none
  told := []

variable (h : Handle) (b : Option BodyId) (priority : Option Int32)

/-- One thing more is told. -/
def tell (e : Effect) (event : Event) : Effect :=
  { e with told := event :: e.told }

/-- What a plain operation does besides, and its answer. -/
def perform (e : Effect) : Op → Effect × Reply
  | .setState _ state => ({ e with state }.tell (.stateSet h state b), .nothing)
  | .write _ kind value =>
    match e.contents.filter (·.kind = kind) with
    | some c => ({ e with contents := some { c with value } }, .number c.value)
    | none => (e, .nothing)
  | .read _ kind =>
    match e.contents.filter (·.kind = kind) with
    | some c => (e, .number c.value)
    | none => (e, .nothing)
  | .setComplexity complexity =>
    (if priority.isSome && b.isSome then { e with noted := some complexity } else e, .nothing)
  | .priority =>
    match priority with
    | some priority => (e, .number priority.toInt)
    | none => (e, .nothing)
  | .pushData value => (if b.isSome then { e with data := e.data ++ [value] } else e, .nothing)
  | .clearData => (if b.isSome then { e with data := [] } else e, .nothing)
  | .data => (e, if b.isSome then .data e.data else .nothing)
  | _ => (e, .nothing)

/-- What the rest of a plain script does besides. -/
def performAll (e : Effect) : Script → Effect
  | [] => e
  | step :: rest =>
    let done := e.perform h b priority step.op
    let told := done.1.tell (.answered step.op done.2)
    if step.must && done.2.isFailure then { told with ran := false } else performAll told rest

end Effect

/-- The reading of plain scripts that work for an asset. -/
def Meaning.plain (h : Handle) : Meaning where
  script code b priority a data := (Effect.start a data).performAll h b priority code
  destructor c := [.destroyed h 0 c.tag c.kind.category c.value]

/-- Contents that hold no reference and have no code of their own. -/
structure Contents.IsBare (c : Contents) : Prop where
  dependencies : c.dependencies = []
  onDestroy : c.onDestroy = []

/-- The contents of the asset are bare. -/
def Asset.IsBare (a : Asset) : Prop :=
  ∀ c ∈ a.contents, c.IsBare

/-- Contents stay bare under plain operations. -/
theorem Effect.bare_perform {e : Effect} (he : ∀ c ∈ e.contents, c.IsBare) (h : Handle)
    (b : Option BodyId) (priority : Option Int32) (op : Op) :
    ∀ c ∈ (e.perform h b priority op).1.contents, c.IsBare := by
  unfold perform
  split
  case h_2 kind value =>
    -- only the value of the contents changes
    split
    next c hc =>
      obtain ⟨hmem, -⟩ := Option.filter_eq_some_iff.1 hc
      rintro _ ⟨rfl⟩
      exact ⟨(he c hmem).dependencies, (he c hmem).onDestroy⟩
    next => exact he
  all_goals first
    | exact he
    | (split <;> exact he)

theorem Effect.bare_performAll {e : Effect} (he : ∀ c ∈ e.contents, c.IsBare) (h : Handle)
    (b : Option BodyId) (priority : Option Int32) (code : Script) :
    ∀ c ∈ (e.performAll h b priority code).contents, c.IsBare := by
  induction code generalizing e with
  | nil => exact he
  | cons step rest ih =>
    have hstep := bare_perform he h b priority step.op
    unfold performAll
    dsimp only
    split
    · exact hstep
    · exact ih hstep

/-- A plain operation takes no reference and drops none. -/
theorem Effect.refs_perform (e : Effect) (h : Handle) (b : Option BodyId) (priority : Option Int32)
    (op : Op) : (e.perform h b priority op).1.refs = e.refs := by
  unfold perform
  split
  all_goals first
    | rfl
    | split <;> rfl

theorem Effect.refs_performAll (e : Effect) (h : Handle) (b : Option BodyId)
    (priority : Option Int32) (code : Script) : (e.performAll h b priority code).refs = e.refs := by
  induction code generalizing e with
  | nil => rfl
  | cons step rest ih =>
    have hstep := refs_perform e h b priority step.op
    unfold performAll
    dsimp only
    split
    · exact hstep
    · exact (ih _).trans hstep

/-! ### Affected states -/

namespace State.Affected

variable {s u : State} {h : Handle} {b : Option BodyId} {e : Effect}

theorem start (s : State) (h : Handle) {data : List Int}
    (hdata : ∀ c ∈ b, (s.body c).data = data) : s.Affected h b (.start (s.asset h) data) s where
  assets := Nat.le_refl _
  bodies := Nat.le_refl _
  queue := rfl
  jobs := rfl
  notices := rfl
  settings := rfl
  doomed := rfl
  label := rfl
  asset := by
    unfold Asset.affected Effect.start
    rw [Int.add_zero]
  body c hc := by
    unfold TaskBody.affected Effect.start
    rw [← hdata c hc]
    rfl
  account := rfl

theorem record (hu : s.Affected h b e u) (event : Event) (hevent : event.shared? = some event) :
    s.Affected h b (e.tell event) (u.record event) := by
  refine { hu with account := ?_ }
  show (u.record event).account = event :: e.told ++ s.account
  unfold State.account State.record
  rw [List.filterMap_cons_some hevent]
  exact congrArg (event :: ·) hu.account

theorem modifyAsset (hu : s.Affected h b e u) (hmade : h < s.assets.size) {f : Asset → Asset}
    {e' : Effect} (hf : f ((s.asset h).affected e) = (s.asset h).affected e')
    (hdata : e'.data = e.data) (hnoted : e'.noted = e.noted) (htold : e'.told = e.told) :
    s.Affected h b e' (u.modifyAsset h f) := by
  refine { hu with assets := ?_, asset := ?_, body := ?_, account := ?_ }
  · show s.assets.size ≤ (u.assets.modify h f).size
    rw [Array.size_modify]
    exact hu.assets
  · rw [State.asset_modifyAsset, if_pos ⟨rfl, Nat.lt_of_lt_of_le hmade hu.assets⟩, hu.asset, hf]
  · intro c hc
    unfold TaskBody.affected
    rw [hdata, hnoted]
    exact hu.body c hc
  · rw [htold]
    exact hu.account

theorem modifyBody {c : BodyId} (hu : s.Affected h (some c) e u) (hmade : c < s.bodies.size)
    {f : TaskBody → TaskBody} {e' : Effect} (hf : f ((s.body c).affected e) = (s.body c).affected e')
    (hasset : (s.asset h).affected e' = (s.asset h).affected e) (htold : e'.told = e.told) :
    s.Affected h (some c) e' (u.modifyBody c f) := by
  refine { hu with bodies := ?_, asset := ?_, body := ?_, account := ?_ }
  · show s.bodies.size ≤ (u.bodies.modify c f).size
    rw [Array.size_modify]
    exact hu.bodies
  · rw [hasset]
    exact hu.asset
  · intro k hk
    obtain rfl : c = k := Option.some.inj hk
    rw [State.body_modifyBody, if_pos ⟨rfl, Nat.lt_of_lt_of_le hmade hu.bodies⟩, hu.body c rfl, hf]
  · rw [htold]
    exact hu.account

end State.Affected

/-! ### Plain scripts run -/

section Running

variable {s u : State} {h : Handle} {b : Option BodyId} {e : Effect} {fuel : Nat} {call : Runner}
  {thread : Thread} {priority : Option Int32}

theorem ran_perform (e : Effect) (h : Handle) (b : Option BodyId) (priority : Option Int32) (op : Op) :
    (e.perform h b priority op).1.ran = e.ran := by
  unfold Effect.perform
  split
  all_goals first
    | rfl
    | split <;> rfl

/-- A plain operation does and answers what is read off it. -/
theorem execute_of_plain {op : Op} (hop : op.isPlain = true) (hmade : h < s.assets.size)
    (hbodied : ∀ c ∈ b, c < s.bodies.size) (hu : s.Affected h b e u) :
    Returns (execute fuel call { thread, asset := some h, body := b, priority } op) u fun reply v =>
      reply = (e.perform h b priority op).2 ∧ s.Affected h b (e.perform h b priority op).1 v := by
  have hcontents : (u.asset h).contents = e.contents := congrArg Asset.contents hu.asset
  -- the contents are those that the effect left so far, so a look at them answers alike
  unfold Op.isPlain at hop
  split at hop
  next state =>
    have hset : s.Affected h b { e with state } (u.modifyAsset h fun a => { a with state }) :=
      hu.modifyAsset hmade rfl rfl rfl rfl
    exact .look (.part rfl (.pure ⟨rfl, hset.record _ rfl⟩))
  next kind value =>
    have hkind : (u.asset h).contentsOf kind = e.contents.filter (·.kind = kind) :=
      congrArg (Option.filter _) hcontents
    have hrun := writeContents_run h kind (fun c => { c with value }) u
    rw [hkind] at hrun
    refine .look ?_
    cases hc : e.contents.filter (·.kind = kind) with
    | none =>
      rw [hc] at hrun
      simp only [Effect.perform, hc]
      exact .part hrun (.pure ⟨rfl, hu⟩)
    | some c =>
      rw [hc] at hrun
      simp only [Effect.perform, hc]
      exact .part hrun (.pure ⟨rfl, hu.modifyAsset hmade rfl rfl rfl rfl⟩)
  next kind =>
    have hkind : (u.asset h).contentsOf kind = e.contents.filter (·.kind = kind) :=
      congrArg (Option.filter _) hcontents
    refine .look (.part rfl ?_)
    rw [hkind]
    cases hc : e.contents.filter (·.kind = kind) with
    | none =>
      simp only [Effect.perform, hc]
      exact .pure ⟨rfl, hu⟩
    | some c =>
      simp only [Effect.perform, hc]
      exact .pure ⟨rfl, hu⟩
  next complexity =>
    cases priority with
    | none => exact .part rfl (.pure ⟨rfl, hu⟩)
    | some priority =>
      cases b with
      | none => exact .part rfl (.pure ⟨rfl, hu⟩)
      | some c => exact .part rfl (.pure ⟨rfl, hu.modifyBody (hbodied c rfl) rfl rfl rfl⟩)
  next =>
    cases priority with
    | none => exact .pure ⟨rfl, hu⟩
    | some priority => exact .pure ⟨rfl, hu⟩
  next value =>
    cases b with
    | none => exact .part rfl (.pure ⟨rfl, hu⟩)
    | some c => exact .part rfl (.pure ⟨rfl, hu.modifyBody (hbodied c rfl) rfl rfl rfl⟩)
  next =>
    cases b with
    | none => exact .part rfl (.pure ⟨rfl, hu⟩)
    | some c => exact .part rfl (.pure ⟨rfl, hu.modifyBody (hbodied c rfl) rfl rfl rfl⟩)
  next =>
    cases b with
    | none => exact .pure ⟨rfl, hu⟩
    | some c =>
      have hdata : (u.body c).data = e.data := congrArg TaskBody.data (hu.body c rfl)
      exact .look (.pure ⟨congrArg Reply.data hdata, hu⟩)
  next => cases hop

theorem runScript_of_plain {code : Script} (hcode : ∀ step ∈ code, step.op.isPlain = true)
    (hmade : h < s.assets.size) (hbodied : ∀ c ∈ b, c < s.bodies.size) (hran : e.ran = true)
    (hu : s.Affected h b e u) :
    Returns (runScript fuel call { thread, asset := some h, body := b, priority } code) u fun ran v =>
      ran = (e.performAll h b priority code).ran ∧
        s.Affected h b (e.performAll h b priority code) v := by
  induction code generalizing e u with
  | nil => exact .pure ⟨hran.symm, hu⟩
  | cons step rest ih =>
    obtain ⟨hstep, hrest⟩ := List.forall_mem_cons.1 hcode
    unfold runScript Effect.performAll
    refine (execute_of_plain hstep hmade hbodied hu).first fun reply v hv => ?_
    obtain ⟨rfl, hv⟩ := hv
    have htold := hv.record (.answered step.op (e.perform h b priority step.op).2) rfl
    refine .part rfl ?_
    dsimp only
    split
    next => exact .pure ⟨rfl, { htold with }⟩
    next => exact ih hrest ((ran_perform e h b priority step.op).trans hran) htold

/-- Plain scripts do what is read off them. -/
theorem explains_of_plain {code : Script} (hcode : ∀ step ∈ code, step.op.isPlain = true)
    (h : Handle) (b : Option BodyId) (priority : Option Int32) (fuel : Nat) :
    (Meaning.plain h).Explains (run (fuel + 1)) h b priority code := by
  intro s thread data hmade _ hbodied hdata _
  have hstart : s.Affected h b (.start (s.asset h) data) s := by
    refine .start s h ?_
    rintro c hc
    obtain rfl : b = some c := hc
    exact hdata.symm
  have hreturns : Returns
      (runScript fuel (run fuel) { thread, asset := some h, body := b, priority } code) s _ :=
    runScript_of_plain hcode hmade hbodied rfl hstart
  obtain ⟨ran, t, hrun, rfl, ht⟩ := hreturns
  exact ⟨t, hrun, ht⟩

/-- A destructor without code and references is told, and that is all. -/
theorem buries_of_bare {c : Contents} (hc : c.IsBare) (h : Handle) (fuel : Nat) :
    (Meaning.plain h).Buries (run (fuel + 1)) h c := by
  intro s hmade hgone hnone
  let t := s.record (.destroyed h (s.asset h).refs c.tag c.kind.category c.value)
  have hrun : run (fuel + 1) (.destructor { thread := .main } h c) s = .ok true t := by
    show (do
      record (.destroyed h (← getAsset h).refs c.tag c.kind.category c.value)
      let _ ← runScript fuel (run fuel) { thread := .main } c.onDestroy
      releaseDependencies (run fuel) { thread := .main } c.dependencies
      pure true : Exec Bool) s = _
    rw [hc.onDestroy, hc.dependencies]
    rfl
  refine ⟨true, t, hrun, ⟨Nat.le_refl _, Nat.le_refl _, rfl, rfl, rfl, rfl, rfl, rfl⟩, rfl, ?_⟩
  show (s.record _).account = _
  rw [hnone]
  rfl

end Running

/-! ### Tasks made of plain scripts -/

namespace Solo

variable {t : Solo} {p : Point}

section Plain

variable (hplain : t.meaning = Meaning.plain t.handle)
include hplain

theorem bare_of_passes (hbare : t.start.asset.IsBare) (hp : t.Passes p) : p.asset.IsBare := by
  refine hp.kept ?_ (fun _ ha => ha) hbare
  intro code b priority a data ha
  rw [hplain]
  exact Effect.bare_performAll (e := .start a data) ha _ _ _ _

theorem held_of_passes (hheld : t.start.asset.IsHeld) (hp : t.Passes p) : p.asset.IsHeld := by
  refine hp.kept ?_ (fun _ ha => ⟨ha.refs, ha.whole⟩) hheld
  intro code b priority a data ha
  rw [hplain]
  have hsame : ((Meaning.plain t.handle).script code b priority a data).refs = 0 :=
    Effect.refs_performAll _ _ _ _ _
  refine ⟨?_, ha.whole⟩
  show 0 < a.refs + _
  rw [hsame, Int.add_zero]
  exact ha.refs

end Plain

/-- Tasks made of plain scripts do what is read off them, whatever their actions are and
whoever waits for them. -/
theorem explained_of_plain (hplain : t.meaning = Meaning.plain t.handle)
    (hheld : t.start.asset.IsHeld) (hbare : t.start.asset.IsBare)
    (hactions : ∀ a ∈ t.plan.actions, ∀ step ∈ a.code, step.op.isPlain = true)
    (hfailure : ∀ code ∈ t.plan.onFailure, ∀ step ∈ code, step.op.isPlain = true)
    (hfree : ∀ code ∈ t.plan.onFree, ∀ step ∈ code, step.op.isPlain = true)
    (hcalls : ∀ sub ∈ t.calls, ∀ step ∈ sub.code, step.op.isPlain = true) (fuel : Nat) :
    t.Explained (run (fuel + 1)) where
  actions a ha := hplain ▸ explains_of_plain (hactions a ha) _ _ _ fuel
  onFailure code hcode := hplain ▸ explains_of_plain (hfailure code hcode) _ _ _ fuel
  onFree code hcode := hplain ▸ explains_of_plain (hfree code hcode) _ _ _ fuel
  calls sub hsub := hplain ▸ explains_of_plain (hcalls sub hsub) _ _ _ fuel
  held p hp := held_of_passes hplain hheld hp
  destructor n p hdone hloaded _ c hc := by
    have hcalled : t.Passes (t.calls.foldl t.notified p) :=
      .notified hdone hloaded (List.prefix_refl t.calls)
    rw [hplain]
    exact buries_of_bare (bare_of_passes hplain hbare hcalled c hc) _ fuel

end Solo

end AssetLoading

import AssetLoading.Proofs.Notices.Roll
import AssetLoading.Proofs.References.Demise

/-! # Load events with one flat list

  What subscribing, removing subscriptions, staging, delivering and clearing do is told
  with the roll of subscribers, for every runner of client code (`Notices.ReadsAs.rules`).
  Client code runs after the roll was changed, and after all calls were decided. So it may
  come back to load events: in a session it finds another desk, with the calls that are
  still to be made on its pile, and leaves the pile as it was (`load_events_read_flat`).
-/

namespace AssetLoading

/-! ### Code in a row -/

/-- Code that is run for one element after the other, and returns each time. -/
inductive Row {α : Type} (f : α → Exec Unit) : State → List α → State → Prop
  | done (s : State) : Row f s [] s
  | next {a : α} {as : List α} {s r t : State} (hfirst : f a s = .ok () r) (hrest : Row f r as t) :
      Row f s (a :: as) t

section Rows

variable {α : Type} {f : α → Exec Unit} {a : α} {as : List α} {s t : State}

theorem row_nil_iff : Row f s [] t ↔ t = s := by
  constructor
  · rintro ⟨⟩
    rfl
  · rintro rfl
    exact .done t

theorem row_cons_iff : Row f s (a :: as) t ↔ ∃ r, f a s = .ok () r ∧ Row f r as t := by
  constructor
  · rintro (_ | ⟨hfirst, hrest⟩)
    exact ⟨_, hfirst, hrest⟩
  · rintro ⟨r, hfirst, hrest⟩
    exact .next hfirst hrest

/-- Code for the first element, and then for the others, is code in a row. -/
theorem bind_row {xs : List α → Exec Unit} (hnil : xs [] = pure ())
    (hcons : ∀ a as, xs (a :: as) = f a >>= fun _ => xs as) :
    xs as s = .ok () t ↔ Row f s as t := by
  -- on the list: the first call leads to the state from which the others start
  induction as generalizing s with
  | nil =>
    rw [hnil, row_nil_iff]
    constructor
    · rintro ⟨⟩
      rfl
    · rintro rfl
      rfl
  | cons a as ih =>
    rw [hcons, row_cons_iff]
    constructor
    · intro hrun
      obtain ⟨_, r, hfirst, hrest⟩ := Exec.bind_eq_ok hrun
      exact ⟨r, hfirst, ih.1 hrest⟩
    · rintro ⟨r, hfirst, hrest⟩
      rw [Exec.bind_of_ok hfirst]
      exact ih.2 hrest

/-- Subscribers are called in a row, -/
theorem notifyAll_eq_ok_iff {call : Runner} {thread : Thread} {subs : List Subscription} :
    notifyAll call thread subs s = .ok () t ↔ Row (notify call thread) s subs t :=
  bind_row rfl fun _ _ => rfl

/-- and references are dropped in a row. -/
theorem releaseAll_eq_ok_iff {call : Runner} {scope : Scope} {holder : Holder} {hs : List Handle} :
    releaseAll call scope holder hs s = .ok () t ↔ Row (release call scope holder) s hs t :=
  bind_row rfl fun _ _ => rfl

end Rows

/-! ### The rules -/

/-- What the functions for load events do in a state with this roll. -/
structure Roll.Rules (r : Roll) (s : State) : Prop where
  /-- A subscription is appended under the next number. Then it is called, if its asset is
  loaded and not staged. -/
  subscribe : ∀ h label code, ∃ n : Notices, n.ReadsAs (r.added h label code) ∧
    ∀ call thread id t, AssetLoading.subscribe call thread h label code s = .ok id t ↔
      id = r.nextId ∧
        if (s.asset h).state.isLoaded = true ∧ h ∉ r.staged then
          notify call thread (r.subscription h label code) (s.withNotices n) = .ok () t
        else t = s.withNotices n
  /-- Those subscriptions are removed that are meant, and counted. -/
  unsubscribe : ∀ h id, ∃ n : Notices, n.ReadsAs (r.removed h id) ∧
    AssetLoading.unsubscribe h id s = .ok (r.listed.countP (·.isMeant h id)) (s.withNotices n)
  /-- An asset that is not destroyed is staged with a reference. -/
  stage : ∀ h, (s.staged h).notices.ReadsAs (r.staging (r.staged ++ [h])) ∧
    ∀ t, AssetLoading.stage h s = .ok () t ↔ (s.asset h).destroyed = false ∧ t = s.staged h
  /-- The subscriptions to destroyed assets are dropped and nothing stays staged. Then
  each subscription that a staged asset had at this moment is called, for one staged asset
  after the other, and then each staged asset is released. -/
  deliver : ∃ n : Notices, n.ReadsAs ((r.pruned s).staging []) ∧
    ∀ call thread k t, AssetLoading.deliver call thread s = .ok k t ↔
      k = (r.pruned s).calls.length ∧ ∃ m,
        Row (notify call thread) (s.withNotices n) (r.pruned s).calls m ∧
          Row (release call { thread } .notice) m r.staged t
  /-- Everything is dropped, and then each staged asset is released. -/
  clear : ∃ n : Notices, n.ReadsAs r.cleared ∧
    ∀ call thread t, clearNotices call thread s = .ok () t ↔
      Row (release call { thread } .notice) (s.withNotices n) r.staged t

section Rules

variable {s : State} {r : Roll}

theorem callsAtOnce_iff (s : State) (r : Roll) (h : Handle) :
    s.callsAtOnce r h = true ↔ (s.asset h).state.isLoaded = true ∧ h ∉ r.staged := by
  unfold State.callsAtOnce
  simp

/-- Subscribing changes the roll first. -/
theorem subscribe_eq (hn : s.notices.ReadsAs r) (call : Runner) (thread : Thread) (h : Handle)
    (label : String) (code : Script) :
    subscribe call thread h label code s =
      (if s.callsAtOnce r h then
        notify call thread (r.subscription h label code) >>= fun _ => pure r.nextId
      else pure r.nextId) (s.withNotices (s.notices.subscribe h label code).2) := by
  show (if (s.asset h).state.isLoaded && !s.notices.staged.contains h then
    notify call thread (s.notices.subscribe h label code).1 >>= fun _ =>
      pure (s.notices.subscribe h label code).1.id
    else pure (s.notices.subscribe h label code).1.id) _ = _
  rw [hn.subscription_eq, hn.staged]
  rfl

theorem subscribe_eq_ok_iff (hn : s.notices.ReadsAs r) {call : Runner} {thread : Thread} {h : Handle}
    {label : String} {code : Script} {id : Nat} {t : State} :
    subscribe call thread h label code s = .ok id t ↔ id = r.nextId ∧
      if (s.asset h).state.isLoaded = true ∧ h ∉ r.staged then
        notify call thread (r.subscription h label code)
          (s.withNotices (s.notices.subscribe h label code).2) = .ok () t
      else t = s.withNotices (s.notices.subscribe h label code).2 := by
  rw [subscribe_eq hn]
  by_cases hnow : s.callsAtOnce r h = true
  · rw [if_pos hnow, if_pos ((callsAtOnce_iff s r h).1 hnow)]
    constructor
    · intro hrun
      obtain ⟨_, q, hnotify, hpure⟩ := Exec.bind_eq_ok hrun
      cases hpure
      exact ⟨rfl, hnotify⟩
    · rintro ⟨rfl, hnotify⟩
      exact Exec.bind_of_ok hnotify
  · rw [if_neg hnow, if_neg fun hboth => hnow ((callsAtOnce_iff s r h).2 hboth)]
    constructor
    · rintro ⟨⟩
      exact ⟨rfl, rfl⟩
    · rintro ⟨rfl, rfl⟩
      rfl

/-- The subscriptions and staged loads that a delivery leaves while it makes its calls. -/
def State.takenNotices (s : State) : Notices :=
  { s.notices.prune fun sub => !(s.asset sub.asset).destroyed with staged := [] }

theorem deliver_eq_ok_iff (hn : s.notices.ReadsAs r) {call : Runner} {thread : Thread} {k : Nat}
    {t : State} : deliver call thread s = .ok k t ↔ k = (r.pruned s).calls.length ∧ ∃ m,
      Row (notify call thread) (s.withNotices s.takenNotices) (r.pruned s).calls m ∧
        Row (release call { thread } .notice) m r.staged t := by
  have hcalls : (s.notices.prune fun sub => !(s.asset sub.asset).destroyed).calls s.notices.staged =
      (r.pruned s).calls := (hn.prune _).calls_eq
  have heq : deliver call thread s =
      (notifyAll call thread (r.pruned s).calls >>= fun _ =>
        releaseAll call { thread } .notice r.staged >>= fun _ => pure (r.pruned s).calls.length)
        (s.withNotices s.takenNotices) := by
    rw [← hcalls, ← hn.staged]
    rfl
  rw [heq]
  -- both ways: the calls one after the other, then the references that were held
  constructor
  · intro hrun
    obtain ⟨_, m, hnotify, hrest⟩ := Exec.bind_eq_ok hrun
    obtain ⟨_, q, hrelease, hpure⟩ := Exec.bind_eq_ok hrest
    cases hpure
    exact ⟨rfl, m, notifyAll_eq_ok_iff.1 hnotify, releaseAll_eq_ok_iff.1 hrelease⟩
  · rintro ⟨rfl, m, hnotify, hrelease⟩
    rw [Exec.bind_of_ok (notifyAll_eq_ok_iff.2 hnotify),
      Exec.bind_of_ok (releaseAll_eq_ok_iff.2 hrelease)]
    rfl

theorem clearNotices_eq_ok_iff (hn : s.notices.ReadsAs r) {call : Runner} {thread : Thread}
    {t : State} : clearNotices call thread s = .ok () t ↔
      Row (release call { thread } .notice)
        (s.withNotices { s.notices with subscriptions := [], staged := [] }) r.staged t := by
  rw [← releaseAll_eq_ok_iff, ← hn.staged]
  rfl

theorem readsAs_staged (hn : s.notices.ReadsAs r) (h : Handle) :
    (s.staged h).notices.ReadsAs (r.staging (r.staged ++ [h])) := by
  rw [← hn.staged]
  exact hn.withStaged _

/-- All functions keep to the roll. -/
theorem Notices.ReadsAs.rules (hn : s.notices.ReadsAs r) : r.Rules s where
  subscribe h label code :=
    ⟨_, hn.subscribe h label code, fun _ _ _ _ => subscribe_eq_ok_iff hn⟩
  unsubscribe h id := by
    refine ⟨_, hn.unsubscribe h id, ?_⟩
    rw [← hn.count_unsubscribe]
    rfl
  stage h := by
    refine ⟨readsAs_staged hn h, fun t => ?_⟩
    rw [stage_run]
    cases (s.asset h).destroyed <;> simp [eq_comm]
  deliver := ⟨_, (hn.prune _).withStaged [], fun _ _ _ _ => deliver_eq_ok_iff hn⟩
  clear := ⟨_, hn.clear, fun _ _ _ => clearNotices_eq_ok_iff hn⟩

end Rules

/-! ### The law -/

/-- The desk when a delivery has decided its calls. -/
def Desk.delivering (d : Desk) (s : State) : Desk :=
  ⟨(d.roll.pruned s).staging [], (d.roll.pruned s).calls :: d.due, d.made⟩

/-- **Load events read flat.** Wherever client code may run, so also in a load callback and
in a destructor, the load events are those of one desk. The functions for load events do
what its roll says, whatever client code does that they call; nothing else changes the
desk, and no number is given out twice. A delivery that returns has made the calls that it
has put on the pile, and those that came on top of them. -/
theorem load_events_read_flat {c : Scene} (hc : Occurs c) : ∃ d : Desk, c.ReadsAs d ∧
    (∀ e, c.ReadsAs e → e = d) ∧ d.roll.Rules c.state ∧
    (∀ c', Stride c c' → ∃ e, c'.ReadsAs e ∧ (e = d ∨ d.Step c.state e)) ∧
    (∀ c', Strides c c' → ∃ e, c'.ReadsAs e ∧ d.Steps e ∧ d.roll.nextId ≤ e.roll.nextId) ∧
    ∀ fuel thread k t, deliver (run fuel) thread c.state = .ok k t →
      ∃ e, Scene.ReadsAs ⟨⟨c.underWay, t⟩, c.due⟩ e ∧ e.due = d.due ∧
        (d.delivering c.state).Steps e := by
  obtain ⟨d, hd⟩ := hc.readsAs
  refine ⟨d, hd, fun e he => he.unique hd, hd.notices.rules, fun c' h => h.readsAs hd, ?_, ?_⟩
  · intro c' h
    obtain ⟨e, he, hsteps⟩ := h.readsAs hd
    exact ⟨e, he, hsteps, hsteps.nextId_le⟩
  · intro fuel thread k t hrun
    have hpruned := hd.notices.prune fun sub => !(c.state.asset sub.asset).destroyed
    -- the roll is read as the delivery begins, when everything staged was taken up
    have htaken : c.takenUp.ReadsAs (d.delivering c.state) := by
      refine ⟨hpruned.withStaged [], ?_, hd.made⟩
      show _ :: c.due = (d.roll.pruned c.state).calls :: d.due
      rw [← hd.due]
      exact congrArg (· :: c.due) hpruned.calls_eq
    obtain ⟨e, he, hsteps⟩ := (strides_of_deliver hrun).readsAs htaken
    exact ⟨e, he, he.due.symm.trans hd.due, hsteps⟩

/-- A task that does no more than to leave its asset loaded. -/
def markPlan (label : String) : TaskPlan Script where
  name := "mark"
  asset := .labelled label
  priority := 0
  complexity := 0
  data := []
  actions := [⟨.worker, [Op.anyway (.setState .surrounding .loaded)], true⟩]
  onFailure := none
  onFree := none

/-- Two of three assets are loaded and staged, the first of them twice; the third is
destroyed. When the first subscriber is called it removes all subscriptions to its asset
and subscribes to the second asset. -/
@[irreducible]
def markedTwice : State :=
  (Session.bare .single).start.after 8
    ([.findOrCreate "first" (.standard .mesh) (.ofId ⟨1⟩),
      .findOrCreate "second" (.standard .mesh) (.ofId ⟨2⟩),
      .findOrCreate "third" (.standard .mesh) (.ofId ⟨3⟩),
      .onLoad (.labelled "first") "s"
        ([.onLoadRemove .surrounding none, .onLoad (.labelled "second") "late" []].map Op.anyway),
      .onLoad (.labelled "third") "t" [], .onLoad (.labelled "second") "u" [],
      .onLoad (.labelled "first") "v" [], .enqueue (markPlan "first"),
      .enqueue (markPlan "second"), .enqueue (markPlan "first"), .work, .work, .work,
      .release (.labelled "third")].map fun op => (.main, op))

/-- Five calls are decided, and all are made; each of the late subscriptions is called at
once in between, because nothing is staged any more. -/
theorem markedTwice_reads_flat : ∃ d : Desk, Scene.ReadsAs ⟨⟨[], markedTwice⟩, []⟩ d ∧
    d.roll.Rules markedTwice ∧ d.roll.staged = [0, 1, 0] ∧
    (d.roll.pruned markedTwice).calls.map Subscription.id = [0, 3, 2, 0, 3] ∧
    ∃ t, deliver (run 8) .main markedTwice = .ok 5 t ∧
      (calledIn t.history).reverse = [0, 4, 3, 2, 0, 5, 3] ∧ t.notices.staged = [] ∧
      (t.notices.subscribers 0).map Subscription.id = [] ∧
      (t.notices.subscribers 1).map Subscription.id = [2, 4, 5] := by
  have hc : Occurs ⟨⟨[], markedTwice⟩, []⟩ := by
    unfold markedTwice
    exact ((Reached.start _).after 8 _).occurs
  obtain ⟨d, hd, -, hrules, -⟩ := load_events_read_flat hc
  have hn : markedTwice.notices.ReadsAs d.roll := hd.notices
  have hcalls : (d.roll.pruned markedTwice).calls.map Subscription.id = [0, 3, 2, 0, 3] := by
    rw [Roll.pruned, ← (hn.prune _).calls_eq]
    decide +kernel
  obtain ⟨k, hrun⟩ := State.run_of_isOk (s := markedTwice) (x := deliver (run 8) .main)
    (by decide +kernel)
  obtain ⟨n, -, hdeliver⟩ := hrules.deliver
  have hk : k = 5 := by
    rw [((hdeliver (run 8) .main k _).1 hrun).1, ← List.length_map Subscription.id, hcalls]
    rfl
  rw [hk] at hrun
  refine ⟨d, hd, hrules, ?_, hcalls, _, hrun, ?_, ?_, ?_, ?_⟩
  · rw [← hn.staged]
    decide +kernel
  · decide +kernel
  · decide +kernel
  · decide +kernel
  · decide +kernel

end AssetLoading

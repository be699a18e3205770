import AssetLoading.Proofs.Run.TaskWork
import AssetLoading.Proofs.Tasks.Unfinished
import Mathlib.Algebra.Order.Group.Multiset

/-! # Who has a task

  From the moment it is made until its data is freed, a task is in one place: it
  waits, it is under a label of the client, or running code is busy with it. In
  the first two places, and with whoever has only just claimed it, it *rests*.
  No two places have the same task, and the data of a task that is in one of
  them has not been freed.
-/

namespace AssetLoading

/-! ### Places -/

/-- The tasks that an activity has and is not busy with. -/
def Activity.held : Activity → List Entry
  | claimed e | stepping e _ | discarding e => [e]
  | drained es => es
  | _ => []

/-- The bodies of the tasks that an activity is busy with. -/
def Activity.owns : Activity → List BodyId
  | concluding e _ | failing e | ending e => [e.body]
  | planned t => [t.body]
  | acting a _ _ => a.held.map (·.body)
  | _ => []

/-- An activity that is busy with a task or its job. -/
def Activity.isBusy : Activity → Bool
  | concluding _ _ | failing _ | ending _ | planned _ | acting _ _ _ | freeing _ _ | running _ _
  | ran _ _ _ => true
  | _ => false

/-- The tasks that rest. -/
def Moment.resting (m : Moment) : Multiset Entry :=
  ↑(m.underWay.flatMap Activity.held) +
    (↑m.state.queue.pending + ↑(m.state.client.claims.map Prod.snd))

/-- What is busy with tasks and jobs. -/
def Moment.busy (m : Moment) : List Activity :=
  m.underWay.filter Activity.isBusy

/-- The bodies of the tasks that are in some place. -/
def Moment.owned (m : Moment) : Multiset BodyId :=
  m.resting.map (·.body) + ↑(m.underWay.flatMap Activity.owns)

theorem Activity.held_eq_nil {a : Activity} (ha : a.ofTasks = false) : a.held = [] := by
  cases a <;> first | rfl | cases ha

theorem Activity.owns_eq_nil {a : Activity} (ha : a.isBusy = false) : a.owns = [] := by
  cases a <;> first | rfl | cases ha

theorem Activity.isBusy_eq_false {a : Activity} (ha : a.ofTasks = false) : a.isBusy = false := by
  cases a <;> first | rfl | cases ha

/-- What is read off the busy activities depends on them alone. -/
theorem Moment.flatMap_busy (m : Moment) {β : Type} {f : Activity → List β}
    (hf : ∀ a, a.isBusy = false → f a = []) : m.busy.flatMap f = m.underWay.flatMap f := by
  have hkept (u : List Activity) : (u.filter Activity.isBusy).flatMap f = u.flatMap f := by
    induction u with
    | nil => rfl
    | cons a u ih =>
      cases ha : a.isBusy with
      | true => rw [List.filter_cons_of_pos ha, List.flatMap_cons, List.flatMap_cons, ih]
      | false => rw [List.filter_cons_of_neg (by simp [ha]), List.flatMap_cons, hf a ha, ih]; rfl
  exact hkept m.underWay

/-! ### Moves that leave tasks at rest -/

/-- Tasks change hands or get lost where they rest, and nothing else happens with
them. -/
structure Moment.Passes (m n : Moment) : Prop where
  resting : n.resting ≤ m.resting
  busy : n.busy = m.busy
  size : n.state.bodies.size = m.state.bodies.size
  body : ∀ b, (n.state.body b).outline = (m.state.body b).outline ∧
    (n.state.body b).taken = (m.state.body b).taken
  jobs : n.state.jobs.jobs = m.state.jobs.jobs
  told : ∀ b, told b n.state.history = told b m.state.history

section Passing

variable {m n : Moment}

theorem Moment.Passes.owns (h : m.Passes n) :
    n.underWay.flatMap Activity.owns = m.underWay.flatMap Activity.owns := by
  rw [← m.flatMap_busy fun _ => Activity.owns_eq_nil, ← h.busy]
  exact (n.flatMap_busy fun _ => Activity.owns_eq_nil).symm

theorem Moment.Passes.job (h : m.Passes n) (j : JobId) : n.state.jobs.job j = m.state.jobs.job j := by
  unfold JobQueue.job
  rw [h.jobs]

theorem Moment.SameWork.passes (h : m.SameWork n) : m.Passes n where
  resting := by
    unfold Moment.resting
    rw [h.flatMap_eq fun _ => Activity.held_eq_nil, h.pending, h.claims]
  busy := by
    have hfilter (u : List Activity) :
        u.filter Activity.isBusy = (u.filter Activity.ofTasks).filter Activity.isBusy := by
      rw [List.filter_filter]
      refine List.filter_congr fun a _ => ?_
      cases ha : a.ofTasks with
      | true => simp
      | false => simp [Activity.isBusy_eq_false ha]
    have hwork : n.underWay.filter Activity.ofTasks = m.underWay.filter Activity.ofTasks := h.work
    unfold Moment.busy
    rw [hfilter, hwork, ← hfilter]
  size := by rw [h.bodies]
  body b := by rw [h.body]; exact ⟨rfl, rfl⟩
  jobs := h.jobs
  told := h.told

/-- The state of all tasks, bodies and jobs is the same, and no task comes to rest. -/
theorem TaskMove.passes (h : TaskMove m n) (hresting : n.resting ≤ m.resting)
    (hbusy : n.busy = m.busy) (hjobs : n.state.jobs.jobs = m.state.jobs.jobs) : m.Passes n where
  resting := hresting
  busy := hbusy
  size := by cases h <;> rfl
  body b := by cases h <;> exact ⟨rfl, rfl⟩
  jobs := hjobs
  told := h.records.told_eq (by decide)

theorem resting_cons (a : Activity) (u : List Activity) (s : State) :
    (⟨a :: u, s⟩ : Moment).resting = ↑a.held + (⟨u, s⟩ : Moment).resting := by
  unfold Moment.resting
  rw [List.flatMap_cons, ← Multiset.coe_add, add_assoc]

theorem resting_cons_of_held {a : Activity} {e : Entry} (ha : a.held = [e]) (u : List Activity)
    (s : State) : (⟨a :: u, s⟩ : Moment).resting = e ::ₘ (⟨u, s⟩ : Moment).resting := by
  rw [resting_cons, ha, Multiset.coe_singleton, Multiset.singleton_add]

/-- An activity that has no task comes in place of another one. -/
theorem resting_le_of_held {a b : Activity} {u : List Activity} {s t : State} (hb : b.held = [])
    (hpending : t.queue.pending = s.queue.pending) (hclaims : t.client.claims = s.client.claims) :
    (⟨b :: u, t⟩ : Moment).resting ≤ (⟨a :: u, s⟩ : Moment).resting := by
  have hrest : (⟨u, t⟩ : Moment).resting = (⟨u, s⟩ : Moment).resting := by
    unfold Moment.resting
    rw [hpending, hclaims]
  rw [resting_cons, resting_cons, hb, hrest]
  exact add_le_add (Multiset.zero_le _) le_rfl

/-- A task is put back or taken in. -/
theorem resting_of_perm {u v : List Activity} {s t : State} {e : Entry}
    (hpending : t.queue.pending.Perm (e :: s.queue.pending))
    (hclaims : t.client.claims = s.client.claims)
    (hu : v.flatMap Activity.held = u.flatMap Activity.held) :
    (⟨v, t⟩ : Moment).resting = e ::ₘ (⟨u, s⟩ : Moment).resting := by
  have hcoe : (t.queue.pending : Multiset Entry) = e ::ₘ ↑s.queue.pending :=
    Multiset.coe_eq_coe.2 hpending
  unfold Moment.resting
  rw [hu, hclaims, hcoe, Multiset.cons_add, Multiset.add_cons]

theorem resting_acquire {u : List Activity} {s : State} {e : Entry} {queue : TaskQueue}
    (hq : s.queue.acquire s.runnable = some (e, queue)) :
    (⟨.claimed e :: u, s.withQueue queue⟩ : Moment).resting = (⟨u, s⟩ : Moment).resting := by
  obtain ⟨front, back, hpending, -, -, hqueue⟩ := TaskQueue.acquire_eq_some hq
  have hperm : s.queue.pending.Perm (e :: (s.withQueue queue).queue.pending) := by
    rw [hpending, hqueue]
    exact List.perm_middle
  rw [resting_cons_of_held rfl]
  exact (resting_of_perm hperm rfl rfl).symm

theorem resting_shelve (u : List Activity) (s : State) (e : Entry) (label : String) :
    (⟨u, s.withClient { s.client with claims := s.client.claims.put label e }⟩ : Moment).resting ≤
      (⟨.claimed e :: u, s⟩ : Moment).resting := by
  have hkept : ((s.client.claims.remove label).map Prod.snd).Sublist (s.client.claims.map Prod.snd) :=
    List.filter_sublist.map _
  have hput : (↑((s.client.claims.put label e).map Prod.snd) : Multiset Entry) ≤
      e ::ₘ ↑(s.client.claims.map Prod.snd) :=
    Multiset.coe_le.2 (hkept.cons_cons e).subperm
  rw [resting_cons_of_held rfl]
  show _ + (_ + (↑((s.client.claims.put label e).map Prod.snd) : Multiset Entry)) ≤ e ::ₘ (_ + (_ + _))
  rw [← Multiset.add_cons, ← Multiset.add_cons]
  exact add_le_add le_rfl (add_le_add le_rfl hput)

theorem resting_unshelve {u : List Activity} {s : State} {e : Entry} {label : String}
    (he : s.client.claims.lookup label = some e) :
    (⟨.claimed e :: u, s.withClient { s.client with claims := s.client.claims.remove label }⟩ :
      Moment).resting ≤ (⟨u, s⟩ : Moment).resting := by
  have hremove : e ::ₘ (↑((s.client.claims.remove label).map Prod.snd) : Multiset Entry) ≤
      ↑(s.client.claims.map Prod.snd) :=
    Multiset.coe_le.2 (Table.subperm_of_lookup id he)
  rw [resting_cons_of_held rfl]
  show e ::ₘ (_ + (_ + (↑((s.client.claims.remove label).map Prod.snd) : Multiset Entry))) ≤ _ + (_ + _)
  rw [← Multiset.add_cons, ← Multiset.add_cons]
  exact add_le_add le_rfl (add_le_add le_rfl hremove)

theorem resting_forget (u : List Activity) (s : State) :
    (⟨u, s.withClient { s.client with claims := [] }⟩ : Moment).resting ≤
      (⟨u, s⟩ : Moment).resting :=
  add_le_add le_rfl (add_le_add le_rfl (Multiset.zero_le _))

theorem resting_exchange (es : List Entry) (e : Entry) (u : List Activity) (s : State) :
    (⟨.claimed e :: (es.map .claimed ++ u), s⟩ : Moment).resting =
      (⟨es.map .claimed ++ .claimed e :: u, s⟩ : Moment).resting := by
  have hperm := (perm_exchange es e u).flatMap_right Activity.held
  unfold Moment.resting
  dsimp only
  rw [Multiset.coe_eq_coe.2 hperm]

theorem resting_drain (u : List Activity) (s : State) :
    (⟨.drained s.queue.pending :: u, s.withQueue s.queue.drain.2⟩ : Moment).resting =
      (⟨u, s⟩ : Moment).resting := by
  rw [resting_cons]
  show (↑s.queue.pending : Multiset Entry) + (_ + (0 + _)) = _ + (_ + _)
  rw [zero_add]
  exact add_left_comm _ _ _

theorem resting_giveBack {u : List Activity} {s t : State} {e : Entry}
    (hqueue : t.queue = s.queue.giveBack e) (hclaims : t.client.claims = s.client.claims) :
    (⟨u, t⟩ : Moment).resting = e ::ₘ (⟨u, s⟩ : Moment).resting := by
  refine resting_of_perm ?_ hclaims rfl
  rw [hqueue]
  exact .refl _

theorem resting_accept {u : List Activity} {s t : State} {task : Task}
    (hqueue : t.queue = (s.queue.push task).2) (hclaims : t.client.claims = s.client.claims) :
    (⟨u, t⟩ : Moment).resting = (s.queue.push task).1 ::ₘ (⟨u, s⟩ : Moment).resting := by
  obtain ⟨front, back, hpending, -, hpush⟩ := s.queue.push_pending task
  refine resting_of_perm ?_ hclaims rfl
  rw [hqueue, hpush, hpending]
  exact List.perm_middle

end Passing

/-! ### Ownership -/

/-- The bodies of the tasks that an activity has. -/
def Activity.bodies (a : Activity) : List BodyId :=
  a.held.map (·.body) ++ a.owns

theorem owned_cons (a : Activity) (u : List Activity) (s : State) :
    (⟨a :: u, s⟩ : Moment).owned = ↑a.bodies + (⟨u, s⟩ : Moment).owned := by
  unfold Moment.owned Activity.bodies
  rw [resting_cons, List.flatMap_cons, Multiset.map_add, ← Multiset.coe_add, ← Multiset.coe_add,
    Multiset.map_coe]
  exact add_add_add_comm _ _ _ _

theorem owned_cons_of_bodies {a : Activity} {b : BodyId} (ha : a.bodies = [b]) (u : List Activity)
    (s : State) : (⟨a :: u, s⟩ : Moment).owned = b ::ₘ (⟨u, s⟩ : Moment).owned := by
  rw [owned_cons, ha, Multiset.coe_singleton, Multiset.singleton_add]

theorem owned_of_resting {u : List Activity} {s t : State} {e : Entry}
    (h : (⟨u, t⟩ : Moment).resting = e ::ₘ (⟨u, s⟩ : Moment).resting) :
    (⟨u, t⟩ : Moment).owned = e.body ::ₘ (⟨u, s⟩ : Moment).owned := by
  unfold Moment.owned
  rw [h, Multiset.map_cons, Multiset.cons_add]

theorem owned_eq {u v : List Activity} {s t : State}
    (hpending : t.queue.pending = s.queue.pending) (hclaims : t.client.claims = s.client.claims)
    (hheld : v.flatMap Activity.held = u.flatMap Activity.held)
    (howns : v.flatMap Activity.owns = u.flatMap Activity.owns) :
    (⟨v, t⟩ : Moment).owned = (⟨u, s⟩ : Moment).owned := by
  unfold Moment.owned Moment.resting
  rw [hpending, hclaims, hheld, howns]

/-- What was busy with a task, or had only just claimed it, gives it back. -/
theorem owned_giveBack {a : Activity} {u : List Activity} {s t : State} {e : Entry}
    (ha : a.bodies = [e.body]) (hqueue : t.queue = s.queue.giveBack e)
    (hclaims : t.client.claims = s.client.claims) :
    (⟨u, t⟩ : Moment).owned = (⟨a :: u, s⟩ : Moment).owned := by
  rw [owned_of_resting (resting_giveBack hqueue hclaims), owned_cons_of_bodies ha]

/-- An activity has the same tasks as another one. -/
theorem owned_cons_congr {a b : Activity} (hab : b.bodies = a.bodies) (u : List Activity)
    (s : State) : (⟨b :: u, s⟩ : Moment).owned = (⟨a :: u, s⟩ : Moment).owned := by
  rw [owned_cons, owned_cons, hab]

theorem Activity.MayAct.bodies {a : Activity} {b : BodyId} {i : Nat} {onGpu : Bool}
    (h : a.MayAct b i onGpu) (ok : Bool) :
    (Activity.acting a b i).bodies = a.bodies ∧ (a.concluded ok).bodies = a.bodies := by
  cases a <;> first | exact h.elim | exact ⟨rfl, rfl⟩

theorem Activity.MayAct.held_concluded {a : Activity} {b : BodyId} {i : Nat} {onGpu : Bool}
    (h : a.MayAct b i onGpu) (ok : Bool) : (a.concluded ok).held = [] := by
  cases a <;> first | exact h.elim | rfl

theorem Activity.MayFree.held_freed {a : Activity} {b : BodyId} (h : a.MayFree b) :
    a.freed.held = [] := by
  cases a <;> first | exact h.elim | rfl

theorem Activity.MayFree.bodies {a : Activity} {b : BodyId} (h : a.MayFree b) :
    a.bodies = [b] ∧ a.freed.bodies = [] := by
  cases a <;> first | exact h.elim | (have hb : _ = b := h; rw [← hb]; exact ⟨rfl, rfl⟩)

theorem Moment.mem_owned_of_resting {m : Moment} {e : Entry} (he : e ∈ m.resting) :
    e.body ∈ m.owned :=
  Multiset.mem_add.2 (.inl (Multiset.mem_map_of_mem _ he))

/-- No two places have the same task, and no data has been freed of a task that is in
some place. -/
structure Owned (m : Moment) : Prop where
  single : m.owned.Nodup
  untaken : ∀ b ∈ m.owned, (m.state.body b).taken = false

namespace Owned

variable {m n : Moment}

theorem start (p : Session) : Owned ⟨[], p.start⟩ := by
  have hnone : (⟨[], p.start⟩ : Moment).owned = 0 := by
    unfold Session.start
    dsimp only
    split <;> rfl
  constructor
  · rw [hnone]
    exact Multiset.nodup_zero
  · intro b hb
    rw [hnone] at hb
    exact absurd hb (Multiset.notMem_zero b)

/-- Tasks may get lost. -/
theorem mono (h : Owned m) (howned : n.owned ≤ m.owned)
    (htaken : ∀ b ∈ n.owned, (n.state.body b).taken = (m.state.body b).taken) : Owned n where
  single := Multiset.nodup_of_le howned h.single
  untaken b hb := by
    rw [htaken b hb]
    exact h.untaken b (Multiset.mem_of_le howned hb)

theorem passes (h : Owned m) (hmn : m.Passes n) : Owned n := by
  refine h.mono ?_ fun b _ => (hmn.body b).2
  unfold Moment.owned
  rw [hmn.owns]
  exact add_le_add (Multiset.map_le_map hmn.resting) le_rfl

theorem same (h : Owned m) (howned : n.owned = m.owned) (hbodies : n.state.bodies = m.state.bodies) :
    Owned n :=
  h.mono howned.le fun b _ => by rw [State.body_congr hbodies]

/-- The data of a task is freed. -/
theorem free {u v : List Activity} {s t : State} {b : BodyId} (h : Owned ⟨u, s⟩)
    (howned : (⟨u, s⟩ : Moment).owned = b ::ₘ (⟨v, t⟩ : Moment).owned)
    (hbodies : t.bodies = (s.bodyTaken b).bodies) : Owned ⟨v, t⟩ := by
  have hsingle := h.single
  rw [howned, Multiset.nodup_cons] at hsingle
  refine h.mono (howned ▸ Multiset.le_cons_self _ b) fun c hc => ?_
  have hne : b ≠ c := by
    intro heq
    rw [heq] at hsingle
    exact hsingle.1 hc
  rw [State.body_congr hbodies, State.bodyTaken, State.body_modifyBody, if_neg fun hbc => hne hbc.1]

theorem plan {u : List Activity} {s : State} (h : Owned ⟨u, s⟩) {t : Task} {body : TaskBody}
    (hbody : t.body = s.bodies.size) (htaken : body.taken = false) :
    Owned ⟨.planned t :: u, { s with bodies := s.bodies.push body }⟩ := by
  have howned : (⟨.planned t :: u, { s with bodies := s.bodies.push body }⟩ : Moment).owned =
      s.bodies.size ::ₘ (⟨u, s⟩ : Moment).owned := by
    rw [← hbody]
    exact owned_cons_of_bodies rfl _ _
  have hlt (b : BodyId) (hb : b ∈ (⟨u, s⟩ : Moment).owned) : b < s.bodies.size :=
    State.lt_size_of_untaken (h.untaken b hb)
  constructor
  · rw [howned, Multiset.nodup_cons]
    exact ⟨fun hmem => Nat.lt_irrefl _ (hlt _ hmem), h.single⟩
  · intro b hb
    rw [howned, Multiset.mem_cons] at hb
    rw [State.body_push]
    rcases hb with rfl | hb
    · rw [if_pos rfl]
      exact htaken
    · rw [if_neg (Nat.ne_of_lt (hlt b hb))]
      exact h.untaken b hb

theorem bodyMove (h : Owned m) (hmove : BodyMove m n) : Owned n := by
  -- planning adds an owner and freeing takes one away; otherwise the same activity owns on
  cases hmove with
  | plan t body hbody htaken => exact h.plan hbody htaken
  | forget t => exact h.same rfl rfl
  | @estimate u s b f hf =>
    refine h.mono le_rfl fun c _ => ?_
    rw [State.body_modifyBody]
    split
    next => obtain ⟨noted, reported, hbody⟩ := hf (s.body c); rw [hbody]
    next => rfl
  | @write u s b f hruns hf =>
    refine h.mono le_rfl fun c _ => ?_
    rw [State.body_modifyBody]
    split
    next => obtain ⟨data, hbody⟩ := hf (s.body c); rw [hbody]
    next => rfl
  | act a b i onGpu hmay =>
    exact h.same (owned_cons_congr (hmay.bodies true).1 _ _) rfl
  | actEnd a b i onGpu ok hmay =>
    exact h.same (owned_cons_congr ((hmay.bodies ok).2.trans (hmay.bodies ok).1.symm) _ _) rfl
  | actSkip a b i onGpu hmay =>
    exact h.same (owned_cons_congr (hmay.bodies false).2 _ _) rfl
  | fail e => exact h.same rfl rfl
  | failEnd e => exact h.same rfl rfl
  | failSkip e => exact h.same rfl rfl
  | free a b asset hmay =>
    refine h.free (b := b) ?_ rfl
    rw [owned_cons_of_bodies hmay.bodies.1, owned_cons]
    exact congrArg _ (zero_add _).symm
  | freeEnd a b hmay =>
    exact h.same (owned_cons_congr hmay.bodies.2 _ _) rfl
  | freeSkip a b hmay =>
    refine h.free (b := b) ?_ rfl
    rw [owned_cons_of_bodies hmay.bodies.1, owned_cons, hmay.bodies.2]
    exact congrArg _ (zero_add _).symm

theorem jobMove (h : Owned m) (hmove : JobMove m n) : Owned n := by
  cases hmove with
  | start j hpick =>
    exact h.same (owned_eq rfl rfl (hpick.flatMap_eq fun _ => rfl) (hpick.flatMap_eq fun _ => rfl)) rfl
  | skip j hpick =>
    exact h.same (owned_eq rfl rfl (hpick.flatMap_eq fun _ => rfl) (hpick.flatMap_eq fun _ => rfl)) rfl
  | _ => exact h.same rfl rfl

theorem taskMove (h : Owned m) (hmove : TaskMove m n) : Owned n := by
  have hpasses := hmove.passes
  -- entries pass between queue, client and activities, and each carries its body along
  cases hmove with
  | @accept u s t =>
    refine h.same ?_ rfl
    have hresting := resting_accept (u := u) (s := s) (t := (s.withQueue (s.queue.push t).2).record
      (.accepted (s.queue.push t).1.id t.body t.asset (s.body t.body).data)) rfl rfl
    rw [owned_of_resting hresting, owned_cons, owned_cons_of_bodies rfl]
    exact (zero_add _).symm
  | acquire e queue hq => exact h.passes (hpasses (resting_acquire hq).le rfl rfl)
  | shelve e label => exact h.passes (hpasses (resting_shelve _ _ e label) rfl rfl)
  | unshelve e label he => exact h.passes (hpasses (resting_unshelve he) rfl rfl)
  | forget => exact h.passes (hpasses (resting_forget _ _) rfl rfl)
  | exchange es e =>
    exact h.passes (hpasses (resting_exchange es e _ _).le (filter_exchange es e _ fun _ => rfl) rfl)
  | step e onGpu => exact h.passes (hpasses le_rfl rfl rfl)
  | runOut e onGpu he =>
    exact h.same (owned_cons_congr (a := .stepping e onGpu) (b := .ending e) rfl _ _) rfl
  | @handOver u s e he hjob =>
    exact h.same (owned_giveBack (e := e.handedOver s.jobs.jobs.size) rfl rfl rfl) rfl
  | wait e j he hjob hj => exact h.same (owned_giveBack rfl rfl rfl) rfl
  | collect e j complexity he hjob hj =>
    exact h.same (owned_cons_congr (a := .stepping e false)
      (b := .concluding (e.collected complexity) _) rfl _ _) rfl
  | reckon e ok complexity => exact h.same rfl rfl
  | proceed e he => exact h.same (owned_giveBack (e := e.advanced) rfl rfl rfl) rfl
  | succeed e he => exact h.same rfl rfl
  | complete e => exact h.passes (hpasses le_rfl rfl rfl)
  | drain hu => exact h.passes (hpasses (resting_drain _ _).le rfl rfl)
  | discardNext e es => exact h.passes (hpasses le_rfl rfl rfl)
  | discard e => exact h.passes (hpasses le_rfl rfl rfl)
  | discardEnd => exact h.passes (hpasses le_rfl rfl rfl)

theorem move (h : Owned m) (hmove : Move m n) : Owned n := by
  rcases hmove.work_or_same with (hbody | hjob | htask) | hsame
  · exact h.bodyMove hbody
  · exact h.jobMove hjob
  · exact h.taskMove htask
  · exact h.passes hsame.passes

end Owned

end AssetLoading

import AssetLoading.Proofs.Tasks.Turns

/-! # Progress in turn

  In an orderly run no task has two turns, and what was told of a task agrees with
  the stage of its turn. So the callbacks of a task start only where the story of
  the task goes on, whoever comes to run them.
-/

namespace AssetLoading

/-! ### Turns of tasks that there are -/

section Knowing

variable {s : State} {a : Activity} {b : BodyId} {i : Nat} {onGpu : Bool}

/-- Whoever is about to run an action has the turn of the task, which is at that
action. -/
theorem Activity.Agrees.turns (h : a.Agrees s) (hmay : a.MayAct b i onGpu) :
    a.turns s.jobs = {(b, .rest (.ready i))} := by
  cases a with
  | stepping e honGpu =>
    rw [Activity.turns_of_held rfl rfl, Entry.turn_of_job_eq_none (h.job_eq_none hmay)]
    obtain ⟨hb, hi, -⟩ := hmay
    rw [hb, hi]
  | running j w =>
    cases w with
    | action c k =>
      obtain ⟨rfl, rfl⟩ := hmay
      rfl
    | _ => exact hmay.elim
  | _ => exact hmay.elim

theorem Activity.turns_acting (a : Activity) (b : BodyId) (i : Nat) (q : JobQueue) :
    (Activity.acting a b i).turns q = {(b, .acting i)} :=
  Activity.turns_of_held_eq_nil rfl

theorem Activity.MayAct.turns_concluded (hmay : a.MayAct b i onGpu) (ok : Bool) (q : JobQueue) :
    (a.concluded ok).turns q = {(b, .rest (.after i ok))} := by
  rw [Activity.turns_of_held_eq_nil (hmay.held_concluded ok)]
  cases a with
  | stepping e honGpu =>
    obtain ⟨rfl, rfl, -⟩ := hmay
    rfl
  | running j w =>
    cases w with
    | action c k =>
      obtain ⟨rfl, rfl⟩ := hmay
      rfl
    | _ => exact hmay.elim
  | _ => exact hmay.elim

/-- Once the data is freed the task has no turn. -/
theorem Activity.MayFree.turns_freed (hmay : a.MayFree b) (q : JobQueue) :
    a.freed.turns q = 0 := by
  cases a <;> first | exact hmay.elim | rfl

/-- The action that is about to run is one of the actions of its task. -/
theorem Activity.Agrees.lt_count (h : a.Agrees s)
    (hjobs : ∀ j, j < s.jobs.jobs.size → (s.jobs.job j).work.Exists s)
    (hmay : a.MayAct b i onGpu) : b < s.bodies.size ∧ i < (s.body b).outline.count := by
  cases a with
  | stepping e honGpu =>
    obtain ⟨rfl, rfl, -, affinity, haffinity, -⟩ := hmay
    refine ⟨h.1.known, ?_⟩
    rw [Outline.count, ← h.1.affinities]
    exact (List.getElem?_eq_some_iff.1 haffinity).1
  | running j w =>
    have hexists := hjobs j h.1
    rw [← h.2.1] at hexists
    cases w with
    | action c k =>
      obtain ⟨rfl, rfl⟩ := hmay
      exact hexists
    | _ => exact hmay.elim
  | _ => exact hmay.elim

theorem Activity.Agrees.lt_of_mayFree (h : a.Agrees s) (hmay : a.MayFree b) :
    b < s.bodies.size := by
  cases a with
  | ending e => exact hmay ▸ h.1.known
  | discarding e => exact hmay ▸ Entry.Agrees.known h
  | planned t => exact hmay ▸ h.1
  | _ => exact hmay.elim

theorem Activity.Agrees.lt_of_mem_turn (h : a.Agrees s)
    (hjobs : ∀ j, j < s.jobs.jobs.size → (s.jobs.job j).work.Exists s) {t : Turn} (ht : t ∈ a.turn) :
    t.1 < s.bodies.size := by
  cases a with
  | concluding e => exact List.mem_singleton.1 ht ▸ h.1.known
  | failing e => exact List.mem_singleton.1 ht ▸ h.1.known
  | ending e => exact List.mem_singleton.1 ht ▸ h.1.known
  | planned task => exact List.mem_singleton.1 ht ▸ h.1
  | acting a c k =>
    obtain ⟨g, hmay⟩ := h.2
    exact List.mem_singleton.1 ht ▸ (h.1.lt_count hjobs hmay).1
  | freeing a c => exact List.mem_singleton.1 ht ▸ h.1.lt_of_mayFree h.2
  | running j w =>
    have hexists := hjobs j h.1
    rw [← h.2.1] at hexists
    cases w with
    | action => exact List.mem_singleton.1 ht ▸ hexists.1
    | _ => cases ht
  | ran j w =>
    have hexists := hjobs j h.1
    rw [← h.2.1] at hexists
    cases w with
    | action => exact List.mem_singleton.1 ht ▸ hexists.1
    | _ => cases ht
  | _ => cases ht

/-- Every turn is that of a task that there is. -/
theorem Consistent.known {m : Moment} (h : Consistent m) {t : Turn} (ht : t ∈ m.allTurns) :
    t.1 < m.state.bodies.size := by
  rcases Multiset.mem_add.1 ht with ht | ht
  · rcases Multiset.mem_add.1 ht with ht | ht
    · obtain ⟨e, he, ht⟩ := Multiset.mem_bind.1 ht
      rw [Entry.fst_of_mem_turn ht]
      exact (h.entries e he).known
    · obtain ⟨a, ha, ht⟩ := List.mem_flatMap.1 (Multiset.mem_coe.1 ht)
      exact (h.work a ha).lt_of_mem_turn h.jobs ht
  · obtain ⟨j, hj, ht⟩ := JobQueue.mem_turns.1 ht
    have hexists := h.jobs j hj
    unfold Job.turn at ht
    split at ht
    next b i asset priority _ hwork =>
      rw [hwork] at hexists
      rw [Multiset.mem_singleton.1 ht]
      exact hexists.1
    next => exact absurd ht (Multiset.notMem_zero t)

end Knowing

/-! ### One turn for each task -/

/-- No task has two turns, and every turn agrees with what was told of its task. -/
structure InTurn (m : Moment) : Prop where
  single : (m.turns.map Prod.fst).Nodup
  fits : ∀ t ∈ m.turns, m.state.Fits t.1 t.2
  fresh : ∀ b, m.state.bodies.size ≤ b → told b m.state.history = []

theorem State.Extends.size_le {s t : State} (h : s.Extends t) : s.bodies.size ≤ t.bodies.size := by
  refine Nat.le_of_not_lt fun hlt => ?_
  exact Nat.lt_irrefl _ (h.body _ hlt).1

namespace InTurn

variable {m n : Moment} {b : BodyId} {x y : Stage} {k : Multiset Turn}

theorem start (p : Session) : InTurn ⟨[], p.start⟩ := by
  have hnone : (⟨[], p.start⟩ : Moment).turns = 0 := by
    unfold Session.start
    dsimp only
    split <;> rfl
  have htold (b : BodyId) : told b p.start.history = [] := by
    unfold Session.start
    dsimp only
    split <;> rfl
  constructor
  · rw [hnone]
    exact Multiset.nodup_zero
  · intro t ht
    rw [hnone] at ht
    exact absurd ht (Multiset.notMem_zero t)
  · exact fun b _ => htold b

/-- A task with a turn has no other turn. -/
theorem eq_of_mem (h : InTurn m) {t u : Turn} (ht : t ∈ m.turns) (hu : u ∈ m.turns)
    (htu : t.1 = u.1) : t = u :=
  Multiset.inj_on_of_nodup_map h.single t ht u hu htu

/-- Turns may get lost. -/
theorem mono (h : InTurn m) (hext : m.state.Extends n.state) (hle : n.turns ≤ m.turns)
    (htold : ∀ b, told b n.state.history = told b m.state.history) : InTurn n where
  single := Multiset.nodup_of_le (Multiset.map_le_map hle) h.single
  fits t ht := (h.fits t (Multiset.mem_of_le hle ht)).extends hext (htold t.1)
  fresh b hb := by
    rw [htold b]
    exact h.fresh b (hext.size_le.trans hb)

/-- One task gets a y turn in place of those it had. -/
theorem update (h : InTurn m) (hext : m.state.Extends n.state)
    (hle : n.turns ≤ (b, y) ::ₘ m.turns.filter fun t => t.1 ≠ b)
    (hfit : (b, y) ∈ n.turns → n.state.Fits b y) (hb : b < n.state.bodies.size)
    (htold : ∀ c, c ≠ b → told c n.state.history = told c m.state.history) : InTurn n where
  single := by
    refine Multiset.nodup_of_le (Multiset.map_le_map hle) ?_
    rw [Multiset.map_cons, Multiset.nodup_cons]
    constructor
    · intro hmem
      obtain ⟨t, ht, heq⟩ := Multiset.mem_map.1 hmem
      exact (Multiset.mem_filter.1 ht).2 heq
    · exact Multiset.nodup_of_le (Multiset.map_le_map (Multiset.filter_le _ _)) h.single
  fits t ht := by
    rcases Multiset.mem_cons.1 (Multiset.mem_of_le hle ht) with heq | hold
    · rw [heq] at ht ⊢
      exact hfit ht
    · obtain ⟨hmem, hne⟩ := Multiset.mem_filter.1 hold
      exact (h.fits t hmem).extends hext (htold t.1 hne)
  fresh c hc := by
    rw [htold c fun heq => Nat.lt_irrefl b (Nat.lt_of_lt_of_le hb (heq ▸ hc))]
    exact h.fresh c (hext.size_le.trans hc)

/-- What is left of turns that were there before is no more than it was. -/
theorem filter_isOpen_le (hc : Consistent m) (hext : m.state.Extends n.state) (hle : k ≤ m.allTurns) :
    (k.filter fun t => n.state.isOpen t = true) ≤ m.turns := by
  refine Multiset.le_filter.2 ⟨(Multiset.filter_le _ _).trans hle, fun t ht => ?_⟩
  obtain ⟨hmem, hopen⟩ := Multiset.mem_filter.1 ht
  exact hext.isOpen (hc.known (Multiset.mem_of_le hle hmem)) hopen

/-- No turn is new. -/
theorem lose (h : InTurn m) (hc : Consistent m) (hext : m.state.Extends n.state)
    (hle : n.allTurns ≤ m.allTurns)
    (htold : ∀ b, told b n.state.history = told b m.state.history) : InTurn n :=
  h.mono hext (filter_isOpen_le hc hext hle) htold

/-- The turns but one are those of other tasks. -/
theorem filter_isOpen_le_of_cons (h : InTurn m) (hc : Consistent m)
    (hext : m.state.Extends n.state) (hm : m.allTurns = (b, x) ::ₘ k)
    (hopen : m.state.isOpen (b, x) = true) :
    (k.filter fun t => n.state.isOpen t = true) ≤ m.turns.filter fun t => t.1 ≠ b := by
  have hturns : m.turns = (b, x) ::ₘ k.filter fun t => m.state.isOpen t = true := by
    unfold Moment.turns
    rw [hm, Multiset.filter_cons_of_pos (p := fun t => m.state.isOpen t = true) _ hopen]
  have hsingle := h.single
  rw [hturns, Multiset.map_cons, Multiset.nodup_cons] at hsingle
  have hrest : k ≤ m.allTurns := hm ▸ Multiset.le_cons_self _ _
  refine Multiset.le_filter.2 ⟨filter_isOpen_le hc hext hrest, fun t ht heq => hsingle.1 ?_⟩
  obtain ⟨hmem, hopen⟩ := Multiset.mem_filter.1 ht
  refine Multiset.mem_map.2 ⟨t, Multiset.mem_filter.2 ⟨hmem, ?_⟩, heq⟩
  exact hext.isOpen (hc.known (Multiset.mem_of_le hrest hmem)) hopen

/-- A turn changes its stage. -/
theorem replace (h : InTurn m) (hc : Consistent m) (hext : m.state.Extends n.state)
    (hm : m.allTurns = (b, x) ::ₘ k) (hn : n.allTurns ≤ (b, y) ::ₘ k)
    (hopen : n.state.isOpen (b, y) = true → m.state.isOpen (b, x) = true)
    (hfit : m.state.isOpen (b, x) = true → m.state.Fits b x → n.state.Fits b y)
    (htold : ∀ c, c ≠ b ∨ m.state.isOpen (b, x) = false →
      told c n.state.history = told c m.state.history) : InTurn n := by
  -- a turn that was closed stays closed; an open one is replaced by the new turn
  cases hold : m.state.isOpen (b, x) with
  | true =>
    have hmem : (b, x) ∈ m.turns := by
      refine Multiset.mem_filter.2 ⟨?_, hold⟩
      rw [hm]
      exact Multiset.mem_cons_self _ _
    have hknown := hc.known (Multiset.mem_of_le (Multiset.filter_le _ _) hmem)
    refine h.update (b := b) (y := y) hext ?_ (fun _ => hfit hold (h.fits _ hmem))
      (hext.body _ hknown).1 fun c hne => htold c (.inl hne)
    refine (Multiset.filter_le_filter _ hn).trans ?_
    rw [Multiset.filter_cons, ← Multiset.singleton_add]
    refine add_le_add ?_ (filter_isOpen_le_of_cons h hc hext hm hold)
    split
    · exact le_rfl
    · exact Multiset.zero_le _
  | false =>
    have hnew : ¬ n.state.isOpen (b, y) = true := fun hnew => by
      rw [hopen hnew] at hold
      cases hold
    refine h.mono hext ?_ fun c => htold c (.inr hold)
    refine (Multiset.filter_le_filter _ hn).trans ?_
    rw [Multiset.filter_cons_of_neg (p := fun t => n.state.isOpen t = true) _ hnew]
    exact filter_isOpen_le hc hext (hm ▸ Multiset.le_cons_self _ _)

/-- A turn comes to its end. -/
theorem close (h : InTurn m) (hc : Consistent m) (hext : m.state.Extends n.state)
    (hm : m.allTurns = (b, x) ::ₘ k) (hn : n.allTurns ≤ k)
    (hopen : m.state.isOpen (b, x) = true)
    (htold : ∀ c, c ≠ b → told c n.state.history = told c m.state.history) : InTurn n := by
  have hle : n.turns ≤ m.turns.filter fun t => t.1 ≠ b :=
    (Multiset.filter_le_filter _ hn).trans (filter_isOpen_le_of_cons h hc hext hm hopen)
  have hknown : b < m.state.bodies.size := hc.known (hm ▸ Multiset.mem_cons_self (b, x) k)
  refine h.update (b := b) (y := x) hext (hle.trans (Multiset.le_cons_self _ _)) ?_
    (hext.body _ hknown).1 htold
  exact fun hmem => absurd rfl (Multiset.mem_filter.1 (Multiset.mem_of_le hle hmem)).2

/-- What is busy with a task, or has it at rest, goes on with it. -/
theorem goOn {a c : Activity} {u : List Activity} {s t : State} (h : InTurn ⟨a :: u, s⟩)
    (hc : Consistent ⟨a :: u, s⟩) (hext : s.Extends t) (hqueue : t.queue = s.queue)
    (hclient : t.client = s.client) (hjobs : t.jobs = s.jobs) (ha : a.turns s.jobs = {(b, x)})
    (hturn : c.turns s.jobs = {(b, y)})
    (hopen : t.isOpen (b, y) = true → s.isOpen (b, x) = true)
    (hfit : s.isOpen (b, x) = true → s.Fits b x → t.Fits b y)
    (htold : ∀ d, d ≠ b ∨ s.isOpen (b, x) = false → told d t.history = told d s.history) :
    InTurn ⟨c :: u, t⟩ := by
  refine h.replace hc hext (k := (⟨u, s⟩ : Moment).allTurns) ?_ ?_ hopen hfit htold
  · rw [allTurns_cons, ha, Multiset.singleton_add]
  · rw [allTurns_cons, hjobs, hturn, Multiset.singleton_add,
      allTurns_of_same (s := s) (t := t) u (by rw [hqueue]) (by rw [hclient]) (by rw [hjobs])]

end InTurn

/-! ### Callbacks -/

section Callbacks

variable {s t : State} {b : BodyId} {x y : Stage}

/-- One more thing was told of a task. -/
theorem State.Fits.tell (h : s.Fits b x) (hext : s.Extends t) {beat : Beat}
    (htold : told b t.history = told b s.history ++ [beat])
    (hnext : ∀ p : Phase, p.Of (t.body b).outline → x.Allows s b p →
      ∃ q : Phase, q.Of (t.body b).outline ∧ q.trace = p.trace ++ [beat] ∧ y.Allows t b q) :
    t.Fits b y := by
  obtain ⟨p, hp, htrace, hallows⟩ := h.phase
  have hgrown := hext.body b h.known
  rw [← hgrown.2.outline] at hp
  obtain ⟨q, hq, hqtrace, hqallows⟩ := hnext p hp hallows
  refine ⟨hgrown.1, q, hq, ?_, hqallows⟩
  rw [htold, htrace, hqtrace]

/-- An event of a task tells nothing of the others. -/
theorem told_record_of_ne {s : State} {e : Event} {c : BodyId} (he : e.beat? c = none) :
    told c (s.record e).history = told c s.history := by
  show told c (e :: s.history) = _
  rw [told_cons, he]
  exact List.append_nil _

theorem told_record_of_eq {s : State} {e : Event} {beat : Beat} (he : e.beat? b = some beat) :
    told b (s.record e).history = told b s.history ++ [beat] := by
  show told b (e :: s.history) = _
  rw [told_cons, he]
  rfl

theorem State.extends_record (s : State) (e : Event) : s.Extends (s.record e) :=
  .of_same (List.suffix_cons e _) rfl rfl

theorem State.Fits.act {i : Nat} {onGpu : Bool} {name : String} {data : List Int}
    (h : s.Fits b (.rest (.ready i))) (hi : i < (s.body b).outline.count) :
    (s.record (.acted b name i onGpu data)).Fits b (.acting i) := by
  refine h.tell (s.extends_record _) (told_record_of_eq (if_pos rfl)) fun p hp hallows => ?_
  obtain rfl : p = .rest (.ready i) := hallows
  exact ⟨.acting i, hi, rfl, rfl⟩

theorem State.Fits.actEnd {i : Nat} {ok : Bool} {data : List Int} (h : s.Fits b (.acting i)) :
    (s.record (.actionEnded b i ok data)).Fits b (.rest (.after i ok)) := by
  refine h.tell (s.extends_record _) (told_record_of_eq (if_pos rfl)) fun p hp hallows => ?_
  obtain rfl : p = .acting i := hallows
  exact ⟨.rest (.after i ok), Rest.of_after hp ok, Rest.trace_after i ok, rfl⟩

theorem State.Fits.fail {i : Nat} {name : String} {state : LoadState} {data : List Int}
    (h : s.Fits b (.rest (.after i false))) (hhook : (s.body b).onFailure.isSome) :
    (s.record (.failed b name state data)).Fits b (.failing i) := by
  refine h.tell (s.extends_record _) (told_record_of_eq (if_pos rfl)) fun p hp hallows => ?_
  obtain rfl : p = .rest (.failed i) := hallows
  exact ⟨.failing i, ⟨hp, hhook⟩, rfl, rfl⟩

theorem State.Fits.failEnd {i : Nat} {data : List Int} (h : s.Fits b (.failing i)) :
    (s.record (.hookEnded b data)).Fits b .closing := by
  refine h.tell (s.extends_record _) (told_record_of_eq (if_pos rfl)) fun p hp hallows => ?_
  obtain rfl : p = .failing i := hallows
  refine ⟨.rest (.handled i), hp, ?_, .handled i, rfl, trivial⟩
  simp [Phase.trace, Rest.trace]

/-- Where there is no failure hook, a failure leaves nothing to do. -/
theorem State.Fits.failSkip {i : Nat} (h : s.Fits b (.rest (.after i false)))
    (hhook : (s.body b).onFailure = none) : s.Fits b .closing := by
  obtain ⟨p, hp, htrace, hallows⟩ := h.phase
  have hhandles : (s.body b).outline.handles = false := by
    show (s.body b).onFailure.isSome = false
    rw [hhook]
    rfl
  exact ⟨h.known, p, hp, htrace, _, hallows, hhandles⟩

/-- The data of a task is freed in the end. -/
theorem State.Fits.freeInTheEnd {name : String} {state : LoadState} {data : List Int}
    (h : s.Fits b .closing) (hhook : (s.body b).onFree.isSome)
    (hext : s.Extends ((s.bodyTaken b).record (.freed b name state data))) :
    ((s.bodyTaken b).record (.freed b name state data)).Fits b (.freeing true) := by
  have houtline := (hext.body b h.known).2.outline
  refine h.tell hext (told_record_of_eq (if_pos rfl)) fun p hp hallows => ?_
  obtain ⟨r, rfl, hlast⟩ := hallows
  refine ⟨.freeing r, ⟨hp, ?_⟩, rfl, r, rfl, ?_⟩
  · rw [houtline]
    exact hhook
  · rw [houtline]
    exact hlast

/-- The data of a task is freed before its time. -/
theorem State.Fits.freeBefore {r : Rest} {name : String} {state : LoadState} {data : List Int}
    (h : s.Fits b (.rest r)) (hcut : r.IsCut s b) (hhook : (s.body b).onFree.isSome)
    (hext : s.Extends ((s.bodyTaken b).record (.freed b name state data))) :
    ((s.bodyTaken b).record (.freed b name state data)).Fits b (.freeing false) := by
  have houtline := (hext.body b h.known).2.outline
  refine h.tell hext (told_record_of_eq (if_pos rfl)) fun p hp hallows => ?_
  obtain rfl : p = .rest r := hallows
  refine ⟨.freeing r, ⟨hp, ?_⟩, rfl, r, rfl, hcut.extends hext⟩
  rw [houtline]
  exact hhook

end Callbacks

namespace InTurn

variable {m n : Moment}

theorem plan {u : List Activity} {s : State} {t : Task} {body : TaskBody} (h : InTurn ⟨u, s⟩)
    (hc : Consistent ⟨u, s⟩) (hext : s.Extends { s with bodies := s.bodies.push body })
    (hbody : t.body = s.bodies.size) :
    InTurn ⟨.planned t :: u, { s with bodies := s.bodies.push body }⟩ := by
  have hsize : ({ s with bodies := s.bodies.push body } : State).bodies.size = s.bodies.size + 1 :=
    Array.size_push _
  have hall : (⟨.planned t :: u, { s with bodies := s.bodies.push body }⟩ : Moment).allTurns =
      (t.body, .rest (.ready 0)) ::ₘ (⟨u, s⟩ : Moment).allTurns :=
    (allTurns_cons _ _ _).trans (Multiset.singleton_add _ _)
  have hknown : t.body < ({ s with bodies := s.bodies.push body } : State).bodies.size := by
    rw [hsize, hbody]
    exact Nat.lt_succ_self _
  refine h.update (b := t.body) (y := .rest (.ready 0)) hext ?_ (fun _ => ⟨hknown, ?_⟩) hknown
    fun _ _ => rfl
  · rw [Moment.turns, hall, Multiset.filter_cons, ← Multiset.singleton_add]
    refine add_le_add ?_ (Multiset.le_filter.2 ⟨filter_isOpen_le hc hext le_rfl, fun r hr heq => ?_⟩)
    · split
      · exact le_rfl
      · exact Multiset.zero_le _
    · -- a turn that there was is that of an older task
      have hlt := hc.known (Multiset.mem_of_le (Multiset.filter_le _ _) hr)
      rw [heq, hbody] at hlt
      exact Nat.lt_irrefl _ hlt
  · refine ⟨.rest (.ready 0), Nat.zero_le _, ?_, rfl⟩
    exact h.fresh t.body (Nat.le_of_eq hbody.symm)

/-- An action starts. -/
theorem act {a : Activity} {u : List Activity} {s : State} {b : BodyId} {i : Nat} {onGpu : Bool}
    {name : String} {data : List Int} (h : InTurn ⟨a :: u, s⟩) (hc : Consistent ⟨a :: u, s⟩)
    (hmay : a.MayAct b i onGpu) (htaken : (s.body b).taken = false) :
    InTurn ⟨.acting a b i :: u, s.record (.acted b name i onGpu data)⟩ := by
  have hagrees := hc.work a List.mem_cons_self
  have hopen : s.isOpen (b, .rest (.ready i)) = true := by
    rw [State.isOpen_rest, htaken]
    rfl
  refine h.goOn hc (s.extends_record _) rfl rfl rfl (hagrees.turns hmay)
    (Activity.turns_acting a b i _) (fun _ => hopen) ?_ ?_
  · exact fun _ hfits => hfits.act (hagrees.lt_count hc.jobs hmay).2
  · rintro c (hne | hclosed)
    · exact told_record_of_ne (if_neg hne.symm)
    · rw [hopen] at hclosed
      cases hclosed

/-- An action returns. -/
theorem actEnd {a : Activity} {u : List Activity} {s : State} {b : BodyId} {i : Nat}
    {onGpu ok : Bool} {data : List Int} (h : InTurn ⟨.acting a b i :: u, s⟩)
    (hc : Consistent ⟨.acting a b i :: u, s⟩) (hmay : a.MayAct b i onGpu) :
    InTurn ⟨a.concluded ok :: u, s.record (.actionEnded b i ok data)⟩ := by
  refine h.goOn hc (s.extends_record _) rfl rfl rfl (Activity.turns_acting a b i _)
    (hmay.turns_concluded ok _) (fun _ => rfl) (fun _ hfits => hfits.actEnd) ?_
  rintro c (hne | hclosed)
  · exact told_record_of_ne (if_neg hne.symm)
  · cases hclosed

/-- An action cannot run: its task was discarded. -/
theorem actSkip {a : Activity} {u : List Activity} {s : State} {b : BodyId} {i : Nat}
    {onGpu : Bool} (h : InTurn ⟨a :: u, s⟩) (hc : Consistent ⟨a :: u, s⟩)
    (hmay : a.MayAct b i onGpu)
    (hgone : (s.body b).taken = true ∨ (s.body b).actions.length ≤ i) :
    InTurn ⟨a.concluded false :: u, s⟩ := by
  have hagrees := hc.work a List.mem_cons_self
  refine h.goOn hc (.refl s) rfl rfl rfl (hagrees.turns hmay) (hmay.turns_concluded false _) id ?_
    fun _ _ => rfl
  intro hopen _
  rw [State.isOpen_rest] at hopen
  rcases hgone with htaken | hlength
  · rw [htaken] at hopen
    cases hopen
  · have hlt := (hagrees.lt_count hc.jobs hmay).2
    rw [Outline.count, TaskBody.length_affinities] at hlt
    exact absurd hlt (Nat.not_lt_of_le hlength)

/-- The failure hook starts. -/
theorem fail {u : List Activity} {s : State} {e : Entry} {name : String} {state : LoadState}
    {data : List Int} (h : InTurn ⟨.concluding e false :: u, s⟩)
    (hc : Consistent ⟨.concluding e false :: u, s⟩) (htaken : (s.body e.body).taken = false)
    (hhook : (s.body e.body).onFailure.isSome) :
    InTurn ⟨.failing e :: u, s.record (.failed e.body name state data)⟩ := by
  have hopen : s.isOpen (e.body, .rest (.after e.cursor false)) = true := by
    rw [State.isOpen_rest, htaken]
    rfl
  refine h.goOn hc (s.extends_record _) rfl rfl rfl (Activity.turns_of_held_eq_nil rfl)
    (Activity.turns_of_held_eq_nil rfl) (fun _ => hopen) (fun _ hfits => hfits.fail hhook) ?_
  · rintro c (hne | hclosed)
    · exact told_record_of_ne (if_neg hne.symm)
    · rw [hopen] at hclosed
      cases hclosed

/-- The failure hook returns. -/
theorem failEnd {u : List Activity} {s : State} {e : Entry} {data : List Int}
    (h : InTurn ⟨.failing e :: u, s⟩) (hc : Consistent ⟨.failing e :: u, s⟩) :
    InTurn ⟨.ending e.abort :: u, s.record (.hookEnded e.body data)⟩ := by
  refine h.goOn hc (s.extends_record _) rfl rfl rfl (Activity.turns_of_held_eq_nil rfl)
    (Activity.turns_of_held_eq_nil rfl) (fun _ => rfl) (fun _ hfits => hfits.failEnd) ?_
  rintro c (hne | hclosed)
  · exact told_record_of_ne (if_neg hne.symm)
  · cases hclosed

/-- There is no failure hook to run. -/
theorem failSkip {u : List Activity} {s : State} {e : Entry}
    (h : InTurn ⟨.concluding e false :: u, s⟩) (hc : Consistent ⟨.concluding e false :: u, s⟩)
    (hgone : (s.body e.body).taken = true ∨ (s.body e.body).onFailure = none) :
    InTurn ⟨.ending e.abort :: u, s⟩ := by
  refine h.goOn hc (.refl s) rfl rfl rfl (Activity.turns_of_held_eq_nil rfl)
    (Activity.turns_of_held_eq_nil rfl) id ?_ fun _ _ => rfl
  intro hopen hfits
  rw [State.isOpen_rest] at hopen
  rcases hgone with htaken | hhook
  · rw [htaken] at hopen
    cases hopen
  · exact hfits.failSkip hhook

/-! ### Freeing the data -/

/-- Where the data is freed, some turn of the task comes before: the one of the task
itself, or the one of its job that nobody has started. -/
theorem exists_rest {u : List Activity} {s : State} {e : Entry}
    (hc : Consistent ⟨.discarding e :: u, s⟩) (hf : InFlight ⟨.discarding e :: u, s⟩)
    (hd : DiscardsAlone ⟨.discarding e :: u, s⟩) :
    ∃ r : Rest, (e.body, .rest r) ∈ (⟨.discarding e :: u, s⟩ : Moment).allTurns ∧ r.IsCut s e.body := by
  have he : e.Agrees s := hc.work (.discarding e) List.mem_cons_self
  have hentry {r : Rest} (hturn : e.turn s.jobs = {(e.body, .rest r)}) :
      (e.body, .rest r) ∈ (⟨.discarding e :: u, s⟩ : Moment).allTurns := by
    rw [allTurns_cons, Activity.turns_of_held rfl rfl, hturn]
    exact Multiset.mem_add.2 (.inl (Multiset.mem_singleton_self _))
  cases hjob : e.job with
  | none => exact ⟨_, hentry (Entry.turn_of_job_eq_none hjob), trivial⟩
  | some j =>
    have hhanded := he.job j hjob
    obtain ⟨asset, priority, hwork⟩ := hhanded.work
    cases hfinished : (s.jobs.job j).finished with
    | true =>
      refine ⟨_, hentry (Entry.turn_of_finished hjob hfinished), ?_⟩
      cases (s.jobs.job j).success with
      | true => trivial
      | false => exact ⟨j, asset, priority, hhanded.known, hwork, hfinished⟩
    | false =>
      -- the job is not in flight
      have hstarted : (s.jobs.job j).started = false := by
        cases hstarted : (s.jobs.job j).started with
        | false => rfl
        | true =>
          have hmem := hf j hhanded.known hstarted hfinished
          rw [List.flatMap_cons, hd.jobs_eq_nil] at hmem
          cases hmem
      refine ⟨.ready e.cursor, Multiset.mem_add.2 (.inr ?_), trivial⟩
      refine JobQueue.mem_turns.2 ⟨j, hhanded.known, ?_⟩
      rw [Job.turn_of_action hwork hstarted]
      exact Multiset.mem_singleton_self _

theorem bodyTaken_extends (s : State) (b : BodyId) : s.Extends (s.bodyTaken b) := by
  refine .of_bodies List.suffix_rfl rfl fun c hc => ?_
  exact ⟨Nat.lt_of_lt_of_eq hc Array.size_modify.symm,
    s.growsTo_modifyBody (f := fun body => { body with taken := true }) (fun _ => ⟨rfl, fun _ => rfl⟩) c⟩

theorem taken_bodyTaken (s : State) {b : BodyId} (hb : b < s.bodies.size) :
    ((s.bodyTaken b).body b).taken = true := by
  rw [State.bodyTaken, State.body_modifyBody, if_pos ⟨rfl, hb⟩]

/-- The hook starts that frees the data. -/
theorem free {a : Activity} {u : List Activity} {s : State} {b : BodyId} {name : String}
    {state : LoadState} {data : List Int} (h : InTurn ⟨a :: u, s⟩) (hc : Consistent ⟨a :: u, s⟩)
    (hf : InFlight ⟨a :: u, s⟩) (hd : DiscardsAlone ⟨a :: u, s⟩) (hmay : a.MayFree b)
    (htaken : (s.body b).taken = false) (hhook : (s.body b).onFree.isSome)
    (hext : s.Extends ((s.bodyTaken b).record (.freed b name state data))) :
    InTurn ⟨.freeing a b :: u, (s.bodyTaken b).record (.freed b name state data)⟩ := by
  have hopen (r : Rest) : s.isOpen (b, .rest r) = true := by
    rw [State.isOpen_rest, htaken]
    rfl
  have hother (c : BodyId) (hne : c ≠ b) :
      told c ((s.bodyTaken b).record (.freed b name state data)).history = told c s.history :=
    told_record_of_ne (if_neg hne.symm)
  cases a with
  | ending e =>
    obtain rfl : e.body = b := hmay
    refine h.goOn hc hext rfl rfl rfl (Activity.turns_of_held_eq_nil rfl)
      (Activity.turns_of_held_eq_nil rfl) (fun _ => hopen (.ready 0))
      (fun _ hfits => hfits.freeInTheEnd hhook hext) ?_
    · rintro c (hne | hclosed)
      · exact hother c hne
      · cases (hopen (.ready 0)).symm.trans hclosed
  | planned t =>
    obtain rfl : t.body = b := hmay
    refine h.goOn hc hext rfl rfl rfl (Activity.turns_of_held_eq_nil rfl)
      (Activity.turns_of_held_eq_nil rfl) (fun _ => hopen (.ready 0))
      (fun _ hfits => hfits.freeBefore trivial hhook hext) ?_
    · rintro c (hne | hclosed)
      · exact hother c hne
      · cases (hopen (.ready 0)).symm.trans hclosed
  | discarding e =>
    obtain rfl : e.body = b := hmay
    have hknown : e.body < s.bodies.size := State.lt_size_of_untaken htaken
    obtain ⟨r, hr, hcut⟩ := exists_rest hc hf hd
    have hmem : (e.body, .rest r) ∈ (⟨.discarding e :: u, s⟩ : Moment).turns :=
      Multiset.mem_filter.2 ⟨hr, hopen r⟩
    have hrest : (⟨u, s⟩ : Moment).allTurns ≤ (⟨.discarding e :: u, s⟩ : Moment).allTurns := by
      rw [allTurns_cons]
      exact Multiset.le_add_left _ _
    refine h.update (b := e.body) (y := .freeing false) hext ?_ ?_ (hext.body _ hknown).1 hother
    · rw [Moment.turns, allTurns_cons, Activity.turns_of_held_eq_nil rfl,
        allTurns_of_same (s := s) (t := (s.bodyTaken e.body).record _) u rfl rfl rfl,
        Multiset.filter_add, ← Multiset.singleton_add]
      refine add_le_add (Multiset.filter_le _ _) (Multiset.le_filter.2 ⟨?_, ?_⟩)
      · exact filter_isOpen_le (n := ⟨u, (s.bodyTaken e.body).record (.freed e.body name state data)⟩)
          hc hext hrest
      · -- any other turn of the task would be open too
        intro t ht heq
        have hold := Multiset.mem_of_le
          (filter_isOpen_le (n := ⟨u, (s.bodyTaken e.body).record (.freed e.body name state data)⟩)
            hc hext hrest) ht
        have hsame := h.eq_of_mem hold hmem heq
        have hclosed := (Multiset.mem_filter.1 ht).2
        rw [hsame, State.isOpen_rest] at hclosed
        have htaken := taken_bodyTaken s hknown
        replace hclosed : (!((s.bodyTaken e.body).body e.body).taken) = true := hclosed
        rw [htaken] at hclosed
        cases hclosed
    · exact fun _ => (h.fits _ hmem).freeBefore hcut hhook hext
  | _ => exact hmay.elim

/-- The hook that frees the data returns. -/
theorem freeEnd {a : Activity} {u : List Activity} {s : State} {b : BodyId} {data : List Int}
    (h : InTurn ⟨.freeing a b :: u, s⟩) (hc : Consistent ⟨.freeing a b :: u, s⟩)
    (hmay : a.MayFree b) (hext : s.Extends (s.record (.hookEnded b data))) :
    InTurn ⟨a.freed :: u, s.record (.hookEnded b data)⟩ := by
  refine h.close hc hext (b := b) (x := .freeing a.isEnding) (k := (⟨u, s⟩ : Moment).allTurns)
    ?_ ?_ rfl fun c hne => told_record_of_ne (if_neg hne.symm)
  · rw [allTurns_cons, Activity.turns_of_held_eq_nil rfl]
    exact Multiset.singleton_add _ _
  · rw [allTurns_cons, hmay.turns_freed, zero_add]
    exact (allTurns_of_same (s := s) (t := s.record _) u rfl rfl rfl).le

theorem bodyMove (h : InTurn m) (hc : Consistent m) (hf : InFlight m) (hd : DiscardsAlone m)
    (hmove : BodyMove m n) : InTurn n := by
  have hext := hmove.extends
  cases hmove with
  | plan t body hbody => exact h.plan hc hext hbody
  | forget t => exact h.lose hc hext (by rw [allTurns_cons]; exact Multiset.le_add_left _ _) fun _ => rfl
  | @estimate u s b f =>
    exact h.lose hc hext
      (allTurns_of_same (s := s) (t := s.modifyBody b f) u rfl rfl rfl).le fun _ => rfl
  | @write u s b f =>
    exact h.lose hc hext
      (allTurns_of_same (s := s) (t := s.modifyBody b f) u rfl rfl rfl).le fun _ => rfl
  | act a b i onGpu hmay htaken => exact h.act hc hmay htaken
  | actEnd a b i onGpu ok hmay => exact h.actEnd hc hmay
  | actSkip a b i onGpu hmay hgone => exact h.actSkip hc hmay hgone
  | fail e htaken hhook => exact h.fail hc htaken hhook
  | failEnd e => exact h.failEnd hc
  | failSkip e hgone => exact h.failSkip hc hgone
  | free a b asset hmay htaken hhook => exact h.free hc hf hd hmay htaken hhook hext
  | freeEnd a b hmay => exact h.freeEnd hc hmay hext
  | @freeSkip u s a b hmay =>
    refine h.lose hc hext ?_ fun _ => rfl
    rw [allTurns_cons, hmay.turns_freed, zero_add, allTurns_cons,
      allTurns_of_same (s := s) (t := s.bodyTaken b) u rfl rfl rfl]
    exact Multiset.le_add_left _ _

/-! ### Jobs -/

/-- Tasks at rest have the turns that they had, as far as their jobs have not
changed. -/
theorem bind_turn_eq (hc : Consistent m) {r : JobQueue}
    (hsame : ∀ j, j < m.state.jobs.jobs.size → (r.job j).finished = (m.state.jobs.job j).finished ∧
      (r.job j).success = (m.state.jobs.job j).success) :
    m.resting.bind (Entry.turn r) = m.resting.bind (Entry.turn m.state.jobs) :=
  Multiset.bind_congr fun e he =>
    Entry.turn_congr fun j hj => hsame j (((hc.entries e he).job j hj).known)

/-- A task whose job finishes gets the turn of that job. -/
theorem bind_turn_finish (hc : Consistent m) (ho : Owned m) {j : JobId} (hj : j < m.state.jobs.jobs.size)
    (ok : Bool) :
    m.resting.bind (Entry.turn (m.state.jobs.modify j fun job =>
        { job with success := ok, finished := true })) ≤
      ↑(Activity.ran j (m.state.jobs.job j).work ok).turn +
        m.resting.bind (Entry.turn m.state.jobs) := by
  have hmodified (k : JobId) := JobQueue.job_modify m.state.jobs j k fun job =>
    { job with success := ok, finished := true }
  have hkept {e : Entry} (he : e.job ≠ some j) :
      e.turn (m.state.jobs.modify j fun job => { job with success := ok, finished := true }) =
        e.turn m.state.jobs := by
    refine Entry.turn_congr fun k hk => ?_
    rw [hmodified, if_neg]
    · exact ⟨rfl, rfl⟩
    · rintro ⟨rfl, -⟩
      exact he hk
  by_cases hmem : ∃ e ∈ m.resting, e.job = some j
  · obtain ⟨e, he, hjob⟩ := hmem
    obtain ⟨others, hsplit⟩ := Multiset.exists_cons_of_mem he
    obtain ⟨asset, priority, hwork⟩ := ((hc.entries e he).job j hjob).work
    have hothers : ∀ d ∈ others, d.job ≠ some j := by
      intro d hd hdjob
      have hdmem : d ∈ m.resting := hsplit ▸ Multiset.mem_cons_of_mem hd
      obtain ⟨asset', priority', hwork'⟩ := ((hc.entries d hdmem).job j hdjob).work
      rw [hwork, Work.action.injEq] at hwork'
      have hsingle := ho.single
      unfold Moment.owned at hsingle
      rw [hsplit, Multiset.map_cons, Multiset.cons_add, Multiset.nodup_cons] at hsingle
      refine hsingle.1 (Multiset.mem_add.2 (.inl ?_))
      rw [hwork'.1]
      exact Multiset.mem_map_of_mem _ hd
    have hturn : e.turn (m.state.jobs.modify j fun job => { job with success := ok, finished := true }) =
        ↑(Activity.ran j (m.state.jobs.job j).work ok).turn := by
      have hjob' := hmodified j
      rw [if_pos ⟨rfl, hj⟩] at hjob'
      rw [Entry.turn_of_finished hjob (by rw [hjob']), hjob', hwork]
      rfl
    rw [hsplit, Multiset.cons_bind, Multiset.cons_bind, hturn,
      Multiset.bind_congr fun d hd => hkept (hothers d hd)]
    exact add_le_add le_rfl (Multiset.le_add_left _ _)
  · rw [Multiset.bind_congr fun d hd => hkept fun hjob => hmem ⟨d, hd, hjob⟩]
    exact Multiset.le_add_left _ _

/-- A job is made, and the turns of all tasks stay as they are. -/
theorem allTurns_make {u : List Activity} {s : State} {w : Work} (hc : Consistent ⟨u, s⟩)
    (hw : w.IsForeign) :
    (⟨u, s.withJobs (s.jobs.make w).2⟩ : Moment).allTurns = (⟨u, s⟩ : Moment).allTurns := by
  have hbind := bind_turn_eq (m := ⟨u, s⟩) hc (r := (s.jobs.make w).2) fun j hj => by
    rw [JobQueue.job_make, if_neg (Nat.ne_of_lt hj)]
    exact ⟨rfl, rfl⟩
  have hturns : (s.jobs.make w).2.turns = s.jobs.turns := by
    rw [JobQueue.turns_of_push (x := { work := w }) rfl, hw.turn_eq rfl, zero_add]
  show (⟨u, s⟩ : Moment).resting.bind (Entry.turn (s.jobs.make w).2) + _ + (s.jobs.make w).2.turns = _
  rw [hbind, hturns]
  rfl

/-- Whatever is done with jobs, no turn is new. -/
theorem allTurns_jobMove (hc : Consistent m) (ho : Owned m) (hmove : JobMove m n) :
    n.allTurns ≤ m.allTurns := by
  cases hmove with
  | make w hw => exact (allTurns_make hc hw).le
  | @submit u s j => exact (allTurns_of_same (s := s) (t := s.withJobs (s.jobs.submit j)) u rfl rfl rfl).le
  | @drain u s =>
    have hsame := allTurns_of_same (s := s) (t := s.withJobs { s.jobs with waiting := [] }) u rfl rfl rfl
    rw [allTurns_cons, hsame]
    exact (zero_add _).le
  | @start u v s j hpick hnew =>
    have hj : j < s.jobs.jobs.size := by
      refine Nat.lt_of_not_le fun hge => ?_
      have hstarted : (s.jobs.job j).started = true := by
        simp [JobQueue.job, Array.getElem?_eq_none hge]
      rw [hnew] at hstarted
      cases hstarted
    -- the turn passes from the job in the line to the activity that runs it
    have hbind := bind_turn_eq (m := ⟨u, s⟩) hc
      (r := s.jobs.modify j fun job => { job with started := true }) fun k _ => by
        rw [JobQueue.job_modify]
        split <;> exact ⟨rfl, rfl⟩
    obtain ⟨others, hbefore, hafter⟩ :=
      s.jobs.turns_modify hj fun job => { job with started := true }
    rw [Job.turn_of_started rfl, zero_add] at hafter
    rw [Job.turn_eq_running hnew j] at hbefore
    refine le_of_eq ?_
    have hresting : (⟨v, s.jobStarted j⟩ : Moment).resting = (⟨u, s⟩ : Moment).resting := by
      unfold Moment.resting
      rw [← hpick.flatMap_eq fun _ => rfl]
      rfl
    have hbusy : v.flatMap Activity.turn = u.flatMap Activity.turn := hpick.flatMap_eq fun _ => rfl
    rw [allTurns_cons, Activity.turns_of_held_eq_nil rfl]
    show _ + ((⟨v, s.jobStarted j⟩ : Moment).resting.bind (Entry.turn (s.jobs.modify j _)) +
      ↑(v.flatMap Activity.turn) + (s.jobs.modify j _).turns) = _ + _ + s.jobs.turns
    rw [hresting, hbusy, hbind, hafter, hbefore]
    exact add_left_comm _ _ _
  | @skip u v s j hpick =>
    refine le_of_eq ?_
    unfold Moment.allTurns Moment.resting
    rw [← hpick.flatMap_eq fun _ => rfl, ← hpick.flatMap_eq fun _ => rfl]
  | @work u s j w hw ok =>
    rw [allTurns_cons, allTurns_cons, Activity.turns_of_held_eq_nil rfl]
    cases w with
    | action => exact hw.elim
    | call => exact le_rfl
    | custom => exact le_rfl
  | @finish u s j w ok =>
    -- the turn goes back to the entry that waits for the job, or is lost with it
    obtain ⟨hj, hw, hstarted⟩ := hc.work (.ran j w ok) List.mem_cons_self
    obtain ⟨others, hbefore, hafter⟩ :=
      s.jobs.turns_modify hj fun job => { job with success := ok, finished := true }
    rw [Job.turn_of_started hstarted, zero_add] at hbefore
    rw [Job.turn_of_started (x := { s.jobs.job j with success := ok, finished := true }) hstarted,
      zero_add] at hafter
    have hbind := bind_turn_finish (m := ⟨.ran j w ok :: u, s⟩) hc ho hj ok
    rw [allTurns_cons, Activity.turns_of_held_eq_nil rfl]
    have hresting : (⟨.ran j w ok :: u, s⟩ : Moment).resting = (⟨u, s⟩ : Moment).resting :=
      (resting_cons _ _ _).trans (zero_add _)
    rw [hresting, ← hw] at hbind
    show (⟨u, s⟩ : Moment).resting.bind (Entry.turn (s.jobs.modify j _)) + ↑(u.flatMap Activity.turn) +
      (s.jobs.modify j _).turns ≤ _ + (_ + _ + s.jobs.turns)
    rw [hafter, hbefore, ← add_assoc, ← add_assoc]
    exact add_le_add (add_le_add hbind le_rfl) le_rfl
  | drained =>
    rw [allTurns_cons]
    exact Multiset.le_add_left _ _

theorem jobMove (h : InTurn m) (hc : Consistent m) (ho : Owned m) (hmove : JobMove m n) :
    InTurn n :=
  h.lose hc hmove.extends (allTurns_jobMove hc ho hmove) (hmove.records.told_eq (by decide))

/-! ### The task queue -/

/-- A task that is ready for an action that there is not has no action left. -/
theorem closing_of_ready {s : State} {e : Entry} (he : e.Agrees s) {i : Nat}
    (hi : e.actionCount ≤ i) (hfits : s.Fits e.body (.rest (.ready i))) : s.Fits e.body .closing := by
  obtain ⟨p, hp, htrace, hallows⟩ := hfits.phase
  have hcount : e.actionCount = (s.body e.body).outline.count := by
    rw [Outline.count, ← he.affinities]
    rfl
  refine ⟨hfits.known, p, hp, htrace, .ready i, hallows, ?_⟩
  rw [show p = .rest (.ready i) from hallows] at hp
  exact Nat.le_antisymm hp (hcount ▸ hi)

/-- The action at the cursor is handed over, and with it the turn of the task. -/
theorem allTurns_handOver {u : List Activity} {s t : State} {e : Entry}
    (hc : Consistent ⟨.stepping e false :: u, s⟩) (hjob : e.job = none)
    (hjobs : t.jobs = (s.jobs.make (.action e.body e.cursor e.asset e.priority)).2.submit
      s.jobs.jobs.size)
    (hqueue : t.queue = s.queue.giveBack (e.handedOver s.jobs.jobs.size))
    (hclaims : t.client.claims = s.client.claims) :
    (⟨u, t⟩ : Moment).allTurns = (⟨.stepping e false :: u, s⟩ : Moment).allTurns := by
  have hnew (j : JobId) : t.jobs.job j = if j = s.jobs.jobs.size then
      { work := .action e.body e.cursor e.asset e.priority } else s.jobs.job j := by
    rw [hjobs]
    exact JobQueue.job_make _ _ j
  have hbind := bind_turn_eq hc (r := t.jobs) fun j hj => by
    rw [hnew, if_neg (Nat.ne_of_lt hj)]
    exact ⟨rfl, rfl⟩
  -- the entry has no turn while its job is unfinished; the job has the turn instead
  have hunfinished : (e.handedOver s.jobs.jobs.size).turn t.jobs = 0 :=
    Entry.turn_of_unfinished rfl (by rw [hnew, if_pos rfl])
  have hturns : t.jobs.turns = {(e.body, .rest (.ready e.cursor))} + s.jobs.turns := by
    rw [hjobs]
    exact JobQueue.turns_of_push (q := s.jobs)
      (x := { work := .action e.body e.cursor e.asset e.priority }) rfl
  rw [resting_cons_of_held rfl, Multiset.cons_bind, Multiset.cons_bind,
    Entry.turn_of_job_eq_none hjob, Entry.turn_of_job_eq_none hjob] at hbind
  rw [allTurns_cons, Activity.turns_of_held rfl rfl, Entry.turn_of_job_eq_none hjob]
  unfold Moment.allTurns
  dsimp only
  rw [resting_giveBack hqueue hclaims, Multiset.cons_bind, hunfinished, zero_add, hturns,
    add_left_cancel hbind]
  exact add_left_comm _ _ _

/-- Whatever the task queue does, no turn is new, or a task that was ready has no action
left. -/
theorem allTurns_taskMove (hc : Consistent m) (hn : Consistent n) (hmove : TaskMove m n) :
    n.allTurns ≤ m.allTurns ∨ n.state = m.state ∧ ∃ b i k,
      m.allTurns = (b, .rest (.ready i)) ::ₘ k ∧ n.allTurns = (b, .closing) ::ₘ k ∧
        (m.state.Fits b (.rest (.ready i)) → m.state.Fits b .closing) := by
  have hpasses := hmove.passes
  have hsame {a c : Activity} {u : List Activity} {s : State} (hturns : c.turns s.jobs = a.turns s.jobs) :
      (⟨c :: u, s⟩ : Moment).allTurns ≤ (⟨a :: u, s⟩ : Moment).allTurns := by
    rw [allTurns_cons, allTurns_cons, hturns]
  cases hmove with
  | @accept u s t =>
    have hresting := resting_accept (u := u) (s := s) (t := (s.withQueue (s.queue.push t).2).record
      (.accepted (s.queue.push t).1.id t.body t.asset (s.body t.body).data)) rfl rfl
    refine .inl (le_of_eq ?_)
    rw [allTurns_of_resting hresting rfl, allTurns_cons, allTurns_cons,
      Activity.turns_of_held_eq_nil rfl, Activity.turns_of_held_eq_nil rfl]
    exact (zero_add _).symm
  | acquire e queue hq => exact .inl (hpasses (resting_acquire hq).le rfl rfl).allTurns_le
  | shelve e label => exact .inl (hpasses (resting_shelve _ _ e label) rfl rfl).allTurns_le
  | unshelve e label he => exact .inl (hpasses (resting_unshelve he) rfl rfl).allTurns_le
  | forget => exact .inl (hpasses (resting_forget _ _) rfl rfl).allTurns_le
  | exchange es e =>
    exact .inl (hpasses (resting_exchange es e _ _).le (filter_exchange es e _ fun _ => rfl)
      rfl).allTurns_le
  | step e onGpu => exact .inl (hpasses le_rfl rfl rfl).allTurns_le
  | @runOut u s e onGpu he =>
    -- out of actions: ready for the next one becomes closing
    have hending := hn.work (.ending e) List.mem_cons_self
    refine .inr ⟨rfl, e.body, e.cursor, (⟨u, s⟩ : Moment).allTurns, ?_, ?_, ?_⟩
    · rw [allTurns_cons, Activity.turns_of_held rfl rfl, Entry.turn_of_job_eq_none hending.2]
      exact Multiset.singleton_add _ _
    · rw [allTurns_cons, Activity.turns_of_held_eq_nil rfl]
      exact Multiset.singleton_add _ _
    · exact fun hfits => closing_of_ready hending.1 (List.getElem?_eq_none_iff.1 he) hfits
  | @handOver u s e he hjob =>
    refine .inl (le_of_eq ?_)
    exact allTurns_handOver hc hjob (t := (s.withJobs ((s.jobs.make (.action e.body e.cursor e.asset
      e.priority)).2.submit s.jobs.jobs.size)).withQueue (s.queue.giveBack (e.handedOver
      s.jobs.jobs.size))) rfl rfl rfl
  | @wait u s e j =>
    have hback := resting_giveBack (u := u) (s := s) (t := s.withQueue (s.queue.giveBack e)) rfl rfl
    refine .inl (le_of_eq ?_)
    rw [allTurns_of_resting hback rfl, allTurns_cons, Activity.turns_of_held rfl rfl]
  | @collect u s e j complexity he hjob hj =>
    refine .inl (hsame ?_)
    rw [Activity.turns_of_held_eq_nil rfl, Activity.turns_of_held rfl rfl]
    exact (Entry.turn_of_finished hjob hj).symm
  | reckon e ok complexity =>
    refine .inl (hsame ?_)
    rw [Activity.turns_of_held_eq_nil rfl, Activity.turns_of_held_eq_nil rfl]
    rfl
  | @proceed u s e he =>
    have hjob : e.job = none := (hc.work (.concluding e true) List.mem_cons_self).2
    have hback := resting_giveBack (u := u) (s := s) (t := s.withQueue (s.queue.giveBack e.advanced))
      rfl rfl
    refine .inl (le_of_eq ?_)
    rw [allTurns_of_resting hback rfl, allTurns_cons, Activity.turns_of_held_eq_nil rfl,
      Entry.turn_of_job_eq_none (e := e.advanced) hjob]
    rfl
  | @succeed u s e he =>
    -- the last action succeeded: likewise
    have hconcluding := hc.work (.concluding e true) List.mem_cons_self
    refine .inr ⟨rfl, e.body, e.cursor + 1, (⟨u, s⟩ : Moment).allTurns, ?_, ?_, ?_⟩
    · rw [allTurns_cons, Activity.turns_of_held_eq_nil rfl]
      exact Multiset.singleton_add _ _
    · rw [allTurns_cons, Activity.turns_of_held_eq_nil rfl]
      exact Multiset.singleton_add _ _
    · exact fun hfits => closing_of_ready hconcluding.1 (of_decide_eq_true he) hfits
  | complete e => exact .inl (hpasses le_rfl rfl rfl).allTurns_le
  | drain hu => exact .inl (hpasses (resting_drain _ _).le rfl rfl).allTurns_le
  | discardNext e es => exact .inl (hpasses le_rfl rfl rfl).allTurns_le
  | discard e => exact .inl (hpasses le_rfl rfl rfl).allTurns_le
  | discardEnd => exact .inl (hpasses le_rfl rfl rfl).allTurns_le

theorem taskMove (h : InTurn m) (hc : Consistent m) (hn : Consistent n) (hmove : TaskMove m n) :
    InTurn n := by
  have htold := hmove.records.told_eq (by decide)
  rcases allTurns_taskMove hc hn hmove with hle | ⟨hstate, b, i, k, hm, hafter, hfits⟩
  · exact h.lose hc hmove.extends hle htold
  · refine h.replace hc hmove.extends hm hafter.le ?_ ?_ fun c _ => htold c
    · rw [hstate]
      exact id
    · rw [hstate]
      exact fun _ => hfits

end InTurn

/-! ### Orderly runs -/

/-- What holds at every moment of an orderly run. -/
structure InOrder (m : Moment) : Prop where
  owned : Owned m
  consistent : Consistent m
  inFlight : InFlight m
  alone : DiscardsAlone m
  inTurn : InTurn m

namespace InOrder

variable {m n : Moment}

theorem start (p : Session) : InOrder ⟨[], p.start⟩ where
  owned := .start p
  consistent := .start p
  inFlight := .start p
  alone := .start p
  inTurn := .start p

theorem move (h : InOrder m) (hmove : OrderlyMove m n) : InOrder n where
  owned := h.owned.move hmove.move
  consistent := h.consistent.move hmove
  inFlight := h.inFlight.move hmove.move
  alone := h.alone.move hmove
  inTurn := by
    rcases hmove.move.work_or_same with (hbody | hjob | htask) | hsame
    · exact h.inTurn.bodyMove h.consistent h.inFlight h.alone hbody
    · exact h.inTurn.jobMove h.consistent h.owned hjob
    · exact h.inTurn.taskMove h.consistent (h.consistent.move hmove) htask
    · exact h.inTurn.lose h.consistent hsame.extends hsame.passes.allTurns_le hsame.told

end InOrder

end AssetLoading

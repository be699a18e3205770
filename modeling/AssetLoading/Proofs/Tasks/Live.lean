import AssetLoading.Proofs.Tasks.Accounts
import AssetLoading.Proofs.Tasks.Stranding

/-! # Live tasks

  A callback may shut the scheduler down, and this frees the data of tasks that wait, even
  of one whose job is under way. A task is *live* until its data is freed before its end,
  or the hook has returned that frees it in the end. Whoever shuts the scheduler down, a
  live task has no more than one turn, and what was told of it agrees with that turn. After
  an action that failed nothing happens to the task, nor to its data, until the failure is
  taken in.
-/

namespace AssetLoading

/-! ### After a failure -/

/-- An action was the last to run and has failed, and the data is as it was left. -/
def State.JustFailed (s : State) (b : BodyId) (i : Nat) : Prop :=
  ∃ since past, s.history = since ++ .actionEnded b i false (s.body b).data :: past ∧
    ∀ e ∈ since, e.beat? b = none

/-- What is known of a live task at a stage. -/
structure State.Suits (s : State) (b : BodyId) (stage : Stage) : Prop where
  fits : s.Fits b stage
  failed : ∀ i, stage = .rest (.failed i) → s.JustFailed b i

section Suiting

variable {s t : State} {b : BodyId} {stage : Stage}

/-- Where nothing more was told of a task, no event was about it. -/
theorem beat?_eq_none_of_told {new history : List Event}
    (htold : told b (new ++ history) = told b history) : ∀ e ∈ new, e.beat? b = none := by
  unfold told at htold
  rw [List.filterMap_append, List.reverse_inj] at htold
  exact List.filterMap_eq_nil_iff.1 (List.append_left_eq_self.1 htold)

theorem State.JustFailed.extends {i : Nat} (h : s.JustFailed b i) (hst : s.Extends t)
    (htold : told b t.history = told b s.history) (hdata : (t.body b).data = (s.body b).data) :
    t.JustFailed b i := by
  obtain ⟨since, past, hhistory, hsince⟩ := h
  obtain ⟨new, hnew⟩ := hst.history
  rw [← hnew] at htold
  refine ⟨new ++ since, past, ?_, fun e he => ?_⟩
  · rw [← hnew, hhistory, hdata, List.append_assoc]
  · rcases List.mem_append.1 he with he | he
    · exact beat?_eq_none_of_told htold e he
    · exact hsince e he

theorem State.Suits.of_fits (h : s.Fits b stage) (hne : ∀ i, stage ≠ .rest (.failed i)) :
    s.Suits b stage :=
  ⟨h, fun i hi => absurd hi (hne i)⟩

theorem State.Suits.extends (h : s.Suits b stage) (hst : s.Extends t)
    (htold : told b t.history = told b s.history)
    (hdata : (∃ i, stage = .rest (.failed i)) → (t.body b).data = (s.body b).data) :
    t.Suits b stage :=
  ⟨h.fits.extends hst htold, fun i hi => (h.failed i hi).extends hst htold (hdata ⟨i, hi⟩)⟩

end Suiting

/-- The data of a task changes only while a callback of it runs. -/
theorem Move.data_eq {m n : Moment} (h : Move m n) {b : BodyId} (hb : b < m.state.bodies.size)
    (hidle : ∀ a ∈ m.underWay, ¬ a.Runs b) : (n.state.body b).data = (m.state.body b).data := by
  have htaken (s : State) (c : BodyId) : ((s.bodyTaken c).body b).data = (s.body b).data := by
    rw [State.bodyTaken, State.body_modifyBody]
    split <;> rfl
  rcases h.work_or_same with (hbody | hjob | htask) | hsame
  · cases hbody with
    | @plan u s t body hbody => rw [State.body_push, if_neg (Nat.ne_of_lt hb)]
    | @estimate u s c f hf =>
      rw [State.body_modifyBody]
      split
      next => obtain ⟨noted, reported, hbody⟩ := hf (s.body b); rw [hbody]
      next => rfl
    | @write u s c f hruns hf =>
      obtain ⟨a, ha, hc⟩ := hruns
      rw [State.body_modifyBody, if_neg]
      rintro ⟨rfl, -⟩
      exact hidle a ha hc
    | free a c => exact htaken _ c
    | freeSkip a c => exact htaken _ c
    | _ => rfl
  · cases hjob <;> rfl
  · cases htask <;> rfl
  · rw [hsame.body]

/-! ### The turns of one task -/

/-- The turns that a task has. -/
def Moment.turnsOf (m : Moment) (b : BodyId) : Multiset Turn :=
  m.allTurns.filter fun t => t.1 = b

/-- The data of a task was not freed, or that is being done in the end. -/
def Moment.Live (m : Moment) (b : BodyId) : Prop :=
  (m.state.body b).taken = false ∨ (b, .freeing true) ∈ m.allTurns

/-- A task has one turn at most, and what is known of the task suits that turn. -/
structure Moment.Paced (m : Moment) (b : BodyId) : Prop where
  single : (m.turnsOf b).card ≤ 1
  suits : ∀ stage, (b, stage) ∈ m.allTurns → m.state.Suits b stage

section Turning

variable {m n : Moment} {b : BodyId} {x y : Stage} {k : Multiset Turn}

theorem mem_turnsOf : (b, x) ∈ m.turnsOf b ↔ (b, x) ∈ m.allTurns := by
  unfold Moment.turnsOf
  rw [Multiset.mem_filter]
  exact and_iff_left rfl

/-- Only code that frees the data of a task is about to. -/
theorem freeing_of_mem {inTheEnd : Bool} (h : (b, .freeing inTheEnd) ∈ m.allTurns) :
    ∃ a, .freeing a b ∈ m.underWay ∧ a.isEnding = inTheEnd := by
  rcases Multiset.mem_add.1 h with h | h
  · rcases Multiset.mem_add.1 h with h | h
    · obtain ⟨e, -, he⟩ := Multiset.mem_bind.1 h
      unfold Entry.turn at he
      split at he
      · cases Multiset.mem_singleton.1 he
      · split at he
        · cases Multiset.mem_singleton.1 he
        · exact absurd he (Multiset.notMem_zero _)
    · obtain ⟨a, ha, hturn⟩ := List.mem_flatMap.1 (Multiset.mem_coe.1 h)
      unfold Activity.turn at hturn
      split at hturn
      case h_6 c d =>
        cases List.mem_singleton.1 hturn
        exact ⟨_, ha, rfl⟩
      all_goals first | cases List.mem_singleton.1 hturn | cases hturn
  · obtain ⟨j, -, hj⟩ := JobQueue.mem_turns.1 h
    unfold Job.turn at hj
    split at hj
    · cases Multiset.mem_singleton.1 hj
    · exact absurd hj (Multiset.notMem_zero _)

namespace Moment.Paced

theorem eq_of_mem (h : m.Paced b) (hx : (b, x) ∈ m.allTurns) (hy : (b, y) ∈ m.allTurns) : x = y := by
  obtain ⟨k, hk⟩ := Multiset.exists_cons_of_mem (mem_turnsOf.2 hx)
  have hsingle := h.single
  rw [hk, Multiset.card_cons] at hsingle
  have hnone : k = 0 := Multiset.card_eq_zero.1 (Nat.le_zero.1 (Nat.le_of_succ_le_succ hsingle))
  have hmem := mem_turnsOf.2 hy
  rw [hk, hnone] at hmem
  exact (congrArg Prod.snd (Multiset.mem_singleton.1 hmem)).symm

/-- A task at rest has no callback that runs. -/
theorem not_runs (h : m.Paced b) (hturn : (b, x) ∈ m.allTurns) (hidle : x.isBusy = false) :
    ∀ a ∈ m.underWay, ¬ a.Runs b := by
  intro a ha hruns
  obtain ⟨y, hbusy, hy⟩ := hruns.exists_turn
  obtain rfl := h.eq_of_mem hturn (mem_allTurns_of_turn ha hy)
  rw [hidle] at hbusy
  cases hbusy

/-- A task keeps the turn that it has, or loses it. -/
theorem kept (h : m.Paced b) (hmove : Move m n) (hle : n.turnsOf b ≤ m.turnsOf b)
    (htold : told b n.state.history = told b m.state.history) : n.Paced b where
  single := (Multiset.card_le_card hle).trans h.single
  suits stage hstage := by
    have hturn := mem_turnsOf.1 (Multiset.mem_of_le hle (mem_turnsOf.2 hstage))
    have hsuits := h.suits stage hturn
    refine hsuits.extends hmove.extends htold ?_
    rintro ⟨i, rfl⟩
    exact hmove.data_eq hsuits.fits.known (h.not_runs hturn rfl)

theorem of_turnsOf_le (hle : m.turnsOf b ≤ {(b, x)}) (hx : m.state.Suits b x) : m.Paced b where
  single := Multiset.card_le_card hle
  suits stage hstage := by
    have hmem := Multiset.mem_of_le hle (mem_turnsOf.2 hstage)
    cases Multiset.mem_singleton.1 hmem
    exact hx

/-- With the turn that is there the task has no other. -/
theorem turnsOf_rest (h : m.Paced b) (hm : m.allTurns = (b, x) ::ₘ k) :
    k.filter (fun t => t.1 = b) = 0 := by
  have hsingle := h.single
  unfold Moment.turnsOf at hsingle
  rw [hm, Multiset.filter_cons_of_pos (p := fun t : Turn => t.1 = b) _ rfl, Multiset.card_cons] at hsingle
  exact Multiset.card_eq_zero.1 (by omega)

end Moment.Paced

end Turning

/-! ### All live tasks -/

/-- All live tasks have one turn at most, and what is known of them suits it. -/
structure AllPaced (m : Moment) : Prop where
  paced : ∀ b, m.Live b → m.Paced b
  fresh : ∀ b, m.state.bodies.size ≤ b → told b m.state.history = []

namespace AllPaced

variable {m n : Moment} {b : BodyId} {x y : Stage} {k : Multiset Turn}

theorem start (p : Session) : AllPaced ⟨[], p.start⟩ := by
  have hnone : (⟨[], p.start⟩ : Moment).allTurns = 0 := by
    unfold Session.start
    dsimp only
    split <;> rfl
  refine ⟨fun b _ => ⟨?_, fun stage hstage => ?_⟩, fun b _ => ?_⟩
  · rw [Moment.turnsOf, hnone]
    exact Nat.zero_le _
  · rw [hnone] at hstage
    exact absurd hstage (Multiset.notMem_zero _)
  · unfold Session.start
    dsimp only
    split <;> rfl

/-- A live task keeps the turn that it has, or loses it. -/
theorem kept (h : AllPaced m) (hc : Consistent m) (hmove : Move m n) (hlive : n.Live b)
    (hle : n.turnsOf b ≤ m.turnsOf b) (htold : told b n.state.history = told b m.state.history) :
    n.Paced b := by
  by_cases hnone : m.turnsOf b = 0
  · rw [hnone] at hle
    have hzero := Multiset.le_zero.1 hle
    refine ⟨by rw [hzero]; exact Nat.zero_le _, fun stage hstage => ?_⟩
    rw [← mem_turnsOf, hzero] at hstage
    exact absurd hstage (Multiset.notMem_zero _)
  · obtain ⟨t, ht⟩ := Multiset.exists_mem_of_ne_zero hnone
    obtain ⟨hmem, rfl⟩ := Multiset.mem_filter.1 ht
    have hknown := hc.known hmem
    refine (h.paced t.1 ?_).kept hmove hle htold
    rcases hlive with huntaken | hfreeing
    · left
      cases htaken : (m.state.body t.1).taken with
      | false => rfl
      | true =>
        rw [(hmove.extends.body _ hknown).2.taken htaken] at huntaken
        cases huntaken
    · exact .inr (mem_turnsOf.1 (Multiset.mem_of_le hle (mem_turnsOf.2 hfreeing)))

/-- No turn is new. -/
theorem lose (h : AllPaced m) (hc : Consistent m) (hmove : Move m n) (hle : n.allTurns ≤ m.allTurns)
    (htold : ∀ b, told b n.state.history = told b m.state.history) : AllPaced n where
  paced b hlive := h.kept hc hmove hlive (Multiset.filter_le_filter _ hle) (htold b)
  fresh b hb := by
    rw [htold b]
    exact h.fresh b (hmove.extends.size_le.trans hb)

/-- Only one task gets on. -/
theorem step (h : AllPaced m) (hc : Consistent m) (hmove : Move m n) (hb : b < n.state.bodies.size)
    (hthis : n.Live b → n.Paced b) (hothers : ∀ c, c ≠ b → n.turnsOf c ≤ m.turnsOf c)
    (htold : ∀ c, c ≠ b → told c n.state.history = told c m.state.history) : AllPaced n where
  paced c hlive := by
    by_cases hcb : c = b
    · subst hcb
      exact hthis hlive
    · exact h.kept hc hmove hlive (hothers c hcb) (htold c hcb)
  fresh c hc := by
    rw [htold c fun heq => Nat.lt_irrefl b (Nat.lt_of_lt_of_le hb (heq ▸ hc))]
    exact h.fresh c (hmove.extends.size_le.trans hc)

theorem turnsOf_le_of_cons (hm : m.allTurns = (b, x) ::ₘ k) (hn : n.allTurns ≤ (b, y) ::ₘ k)
    {c : BodyId} (hc : c ≠ b) : n.turnsOf c ≤ m.turnsOf c := by
  have hskip (stage : Stage) : ((b, stage) ::ₘ k).filter (fun t : Turn => t.1 = c) =
      k.filter fun t => t.1 = c :=
    Multiset.filter_cons_of_neg (p := fun t : Turn => t.1 = c) _ hc.symm
  unfold Moment.turnsOf
  rw [hm, hskip, ← hskip y]
  exact Multiset.filter_le_filter _ hn

/-- A turn changes its stage. -/
theorem replace (h : AllPaced m) (hc : Consistent m) (hmove : Move m n)
    (hm : m.allTurns = (b, x) ::ₘ k) (hn : n.allTurns ≤ (b, y) ::ₘ k)
    (hfree : y = .freeing true → (m.state.body b).taken = false)
    (hsuits : (m.state.body b).taken = false ∨ x = .freeing true →
      m.state.Suits b x → n.state.Suits b y)
    (htold : ∀ c, c ≠ b → told c n.state.history = told c m.state.history) : AllPaced n := by
  have hx : (b, x) ∈ m.allTurns := hm ▸ Multiset.mem_cons_self _ _
  have hknown := hc.known hx
  refine h.step hc hmove (hmove.extends.body _ hknown).1 (fun hlive => ?_)
    (fun c hne => turnsOf_le_of_cons hm hn hne) htold
  -- what is live now was live before
  have hbefore : (m.state.body b).taken = false ∨ (b, .freeing true) ∈ m.allTurns := by
    rcases hlive with huntaken | hfreeing
    · left
      cases htaken : (m.state.body b).taken with
      | false => rfl
      | true =>
        rw [(hmove.extends.body _ hknown).2.taken htaken] at huntaken
        cases huntaken
    · rcases Multiset.mem_cons.1 (Multiset.mem_of_le hn hfreeing) with heq | hk
      · exact .inl (hfree (congrArg Prod.snd heq).symm)
      · exact .inr (hm ▸ Multiset.mem_cons_of_mem hk)
  have hpaced := h.paced b hbefore
  have hstage : (m.state.body b).taken = false ∨ x = .freeing true :=
    hbefore.imp_right fun hfreeing => hpaced.eq_of_mem hx hfreeing
  refine .of_turnsOf_le (x := y) ?_ (hsuits hstage (hpaced.suits x hx))
  refine (Multiset.filter_le_filter _ hn).trans ?_
  rw [Multiset.filter_cons_of_pos (p := fun t : Turn => t.1 = b) _ rfl, hpaced.turnsOf_rest hm]
  exact le_rfl

/-- What is busy with a task, or has it at rest, goes on with it. -/
theorem goOn {a c : Activity} {u : List Activity} {s t : State} (h : AllPaced ⟨a :: u, s⟩)
    (hc : Consistent ⟨a :: u, s⟩) (hmove : Move ⟨a :: u, s⟩ ⟨c :: u, t⟩)
    (hpending : t.queue.pending = s.queue.pending) (hclaims : t.client.claims = s.client.claims)
    (hjobs : t.jobs = s.jobs) (ha : a.turns s.jobs = {(b, x)}) (hturn : c.turns s.jobs = {(b, y)})
    (hfree : y = .freeing true → (s.body b).taken = false)
    (hsuits : (s.body b).taken = false ∨ x = .freeing true → s.Suits b x → t.Suits b y)
    (htold : ∀ d, d ≠ b → told d t.history = told d s.history) : AllPaced ⟨c :: u, t⟩ := by
  refine h.replace hc hmove (k := (⟨u, s⟩ : Moment).allTurns) ?_ ?_ hfree hsuits htold
  · rw [allTurns_cons, ha, Multiset.singleton_add]
  · rw [allTurns_cons, hjobs, hturn, Multiset.singleton_add,
      allTurns_of_same (s := s) (t := t) u hpending hclaims (by rw [hjobs])]

/-! ### Callbacks -/

section Callbacks

variable {a : Activity} {u : List Activity} {s t : State}

/-- A task is made. -/
theorem plan {task : Task} {body : TaskBody} (h : AllPaced ⟨u, s⟩) (hc : Consistent ⟨u, s⟩)
    (hmove : Move ⟨u, s⟩ ⟨.planned task :: u, { s with bodies := s.bodies.push body }⟩)
    (hbody : task.body = s.bodies.size) :
    AllPaced ⟨.planned task :: u, { s with bodies := s.bodies.push body }⟩ := by
  have hall : (⟨.planned task :: u, { s with bodies := s.bodies.push body }⟩ : Moment).allTurns =
      (task.body, .rest (.ready 0)) ::ₘ (⟨u, s⟩ : Moment).allTurns :=
    (allTurns_cons _ _ _).trans (Multiset.singleton_add _ _)
  have hsize : ({ s with bodies := s.bodies.push body } : State).bodies.size = s.bodies.size + 1 :=
    Array.size_push _
  have hknown : task.body < ({ s with bodies := s.bodies.push body } : State).bodies.size := by
    rw [hsize, hbody]
    exact Nat.lt_succ_self _
  refine h.step hc hmove (b := task.body) hknown (fun _ => ?_) (fun c hne => ?_) fun _ _ => rfl
  · refine .of_turnsOf_le (x := .rest (.ready 0)) ?_ (.of_fits ⟨hknown, ?_⟩ nofun)
    · -- any turn that there was is that of an older task
      have hnone : (⟨u, s⟩ : Moment).allTurns.filter (fun t => t.1 = task.body) = 0 := by
        refine Multiset.filter_eq_nil.2 fun t ht heq => ?_
        have hlt := hc.known ht
        rw [heq, hbody] at hlt
        exact Nat.lt_irrefl _ hlt
      rw [Moment.turnsOf, hall, Multiset.filter_cons_of_pos (p := fun t : Turn => t.1 = task.body) _ rfl,
        hnone]
      exact le_rfl
    · refine ⟨.rest (.ready 0), Nat.zero_le _, ?_, rfl⟩
      exact h.fresh task.body (Nat.le_of_eq hbody.symm)
  · unfold Moment.turnsOf
    rw [hall, Multiset.filter_cons_of_neg (p := fun t : Turn => t.1 = c) _ hne.symm]

/-- An action starts. -/
theorem act {i : Nat} {onGpu : Bool} {name : String} {data : List Int} (h : AllPaced ⟨a :: u, s⟩)
    (hc : Consistent ⟨a :: u, s⟩)
    (hmove : Move ⟨a :: u, s⟩ ⟨.acting a b i :: u, s.record (.acted b name i onGpu data)⟩)
    (hmay : a.MayAct b i onGpu) : AllPaced ⟨.acting a b i :: u, s.record (.acted b name i onGpu data)⟩ := by
  have hagrees := hc.work a List.mem_cons_self
  refine h.goOn hc hmove rfl rfl rfl (hagrees.turns hmay) (Activity.turns_acting a b i _)
    Stage.noConfusion (fun _ hsuits => ?_) fun c hne => told_record_of_ne (if_neg hne.symm)
  exact .of_fits (hsuits.fits.act (hagrees.lt_count hc.jobs hmay).2) fun _ => Stage.noConfusion

/-- An action returns. -/
theorem actEnd {i : Nat} {onGpu ok : Bool} (h : AllPaced ⟨.acting a b i :: u, s⟩)
    (hc : Consistent ⟨.acting a b i :: u, s⟩)
    (hmove : Move ⟨.acting a b i :: u, s⟩
      ⟨a.concluded ok :: u, s.record (.actionEnded b i ok (s.body b).data)⟩)
    (hmay : a.MayAct b i onGpu) :
    AllPaced ⟨a.concluded ok :: u, s.record (.actionEnded b i ok (s.body b).data)⟩ := by
  refine h.goOn hc hmove rfl rfl rfl (Activity.turns_acting a b i _) (hmay.turns_concluded ok _)
    Stage.noConfusion (fun _ hsuits => ⟨hsuits.fits.actEnd, fun k hk => ?_⟩)
    fun c hne => told_record_of_ne (if_neg hne.symm)
  cases ok with
  | true => cases hk
  | false =>
    cases hk
    exact ⟨[], s.history, rfl, fun _ he => absurd he List.not_mem_nil⟩

/-- An action cannot run: the task is not live any more. -/
theorem actSkip {i : Nat} {onGpu : Bool} (h : AllPaced ⟨a :: u, s⟩) (hc : Consistent ⟨a :: u, s⟩)
    (hmove : Move ⟨a :: u, s⟩ ⟨a.concluded false :: u, s⟩) (hmay : a.MayAct b i onGpu)
    (hgone : (s.body b).taken = true ∨ (s.body b).actions.length ≤ i) :
    AllPaced ⟨a.concluded false :: u, s⟩ := by
  have hagrees := hc.work a List.mem_cons_self
  refine h.goOn hc hmove rfl rfl rfl (hagrees.turns hmay) (hmay.turns_concluded false _)
    Stage.noConfusion (fun hopen _ => ?_) fun _ _ => rfl
  rcases hopen with huntaken | hfreeing
  · rcases hgone with htaken | hlength
    · rw [huntaken] at htaken
      cases htaken
    · have hlt := (hagrees.lt_count hc.jobs hmay).2
      rw [Outline.count, TaskBody.length_affinities] at hlt
      exact absurd hlt (Nat.not_lt_of_le hlength)
  · cases hfreeing

/-- The failure hook starts. -/
theorem fail {e : Entry} {name : String} {state : LoadState} {data : List Int}
    (h : AllPaced ⟨.concluding e false :: u, s⟩) (hc : Consistent ⟨.concluding e false :: u, s⟩)
    (hmove : Move ⟨.concluding e false :: u, s⟩
      ⟨.failing e :: u, s.record (.failed e.body name state data)⟩)
    (hhook : (s.body e.body).onFailure.isSome) :
    AllPaced ⟨.failing e :: u, s.record (.failed e.body name state data)⟩ := by
  refine h.goOn hc hmove rfl rfl rfl (Activity.turns_of_held_eq_nil rfl)
    (Activity.turns_of_held_eq_nil rfl) Stage.noConfusion (fun _ hsuits => ?_)
    fun c hne => told_record_of_ne (if_neg hne.symm)
  exact .of_fits (hsuits.fits.fail hhook) fun _ => Stage.noConfusion

/-- The failure hook returns. -/
theorem failEnd {e : Entry} {data : List Int} (h : AllPaced ⟨.failing e :: u, s⟩)
    (hc : Consistent ⟨.failing e :: u, s⟩)
    (hmove : Move ⟨.failing e :: u, s⟩ ⟨.ending e.abort :: u, s.record (.hookEnded e.body data)⟩) :
    AllPaced ⟨.ending e.abort :: u, s.record (.hookEnded e.body data)⟩ := by
  refine h.goOn hc hmove rfl rfl rfl (Activity.turns_of_held_eq_nil rfl)
    (Activity.turns_of_held_eq_nil rfl) Stage.noConfusion (fun _ hsuits => ?_)
    fun c hne => told_record_of_ne (if_neg hne.symm)
  exact .of_fits hsuits.fits.failEnd fun _ => Stage.noConfusion

/-- There is no failure hook to run. -/
theorem failSkip {e : Entry} (h : AllPaced ⟨.concluding e false :: u, s⟩)
    (hc : Consistent ⟨.concluding e false :: u, s⟩)
    (hmove : Move ⟨.concluding e false :: u, s⟩ ⟨.ending e.abort :: u, s⟩)
    (hgone : (s.body e.body).taken = true ∨ (s.body e.body).onFailure = none) :
    AllPaced ⟨.ending e.abort :: u, s⟩ := by
  refine h.goOn hc hmove rfl rfl rfl (Activity.turns_of_held_eq_nil rfl)
    (Activity.turns_of_held_eq_nil rfl) Stage.noConfusion (fun hopen hsuits => ?_) fun _ _ => rfl
  refine .of_fits ?_ fun _ => Stage.noConfusion
  rcases hopen with huntaken | hfreeing
  · rcases hgone with htaken | hhook
    · rw [huntaken] at htaken
      cases htaken
    · exact hsuits.fits.failSkip hhook
  · cases hfreeing

/-- The data of a task is freed before its end, and the task is not live any more. -/
theorem discard {e : Entry} (h : AllPaced ⟨.discarding e :: u, s⟩)
    (hc : Consistent ⟨.discarding e :: u, s⟩) (hfrees : FreesTaken ⟨.discarding e :: u, s⟩)
    (hmove : Move ⟨.discarding e :: u, s⟩ ⟨.freeing (.discarding e) e.body :: u, t⟩)
    (hqueue : t.queue = s.queue) (hclient : t.client = s.client) (hjobs : t.jobs = s.jobs)
    (huntaken : (s.body e.body).taken = false) (htaken : (t.body e.body).taken = true)
    (htold : ∀ c, c ≠ e.body → told c t.history = told c s.history) :
    AllPaced ⟨.freeing (.discarding e) e.body :: u, t⟩ := by
  have hknown : e.body < s.bodies.size := State.lt_size_of_untaken huntaken
  have hrest : (⟨u, t⟩ : Moment).allTurns = (⟨u, s⟩ : Moment).allTurns :=
    allTurns_of_same u (by rw [hqueue]) (by rw [hclient]) (by rw [hjobs])
  -- the turn to free is all that is added, and only the turns of this body are lost
  have hafter : (⟨.freeing (.discarding e) e.body :: u, t⟩ : Moment).allTurns =
      (e.body, .freeing false) ::ₘ (⟨u, s⟩ : Moment).allTurns := by
    rw [allTurns_cons, hrest, Activity.turns_of_held_eq_nil rfl]
    exact Multiset.singleton_add _ _
  have hle : (⟨u, s⟩ : Moment).allTurns ≤ (⟨.discarding e :: u, s⟩ : Moment).allTurns := by
    rw [allTurns_cons]
    exact Multiset.le_add_left _ _
  refine h.step hc hmove (hmove.extends.body _ hknown).1 (fun hlive => ?_) (fun c hne => ?_) htold
  · rcases hlive with hfalse | hfreeing
    · rw [show (t.body e.body).taken = false from hfalse] at htaken
      cases htaken
    · rw [hafter] at hfreeing
      rcases Multiset.mem_cons.1 hfreeing with heq | hold
      · cases heq
      · obtain ⟨a, ha, -⟩ := freeing_of_mem (Multiset.mem_of_le hle hold)
        have hgone : (s.body e.body).taken = true := (hfrees a _ ha).2
        rw [huntaken] at hgone
        cases hgone
  · unfold Moment.turnsOf
    rw [hafter, Multiset.filter_cons_of_neg (p := fun t : Turn => t.1 = c) _ hne.symm]
    exact Multiset.filter_le_filter _ hle

/-- The hook starts that frees the data. -/
theorem free {name : String} {state : LoadState} {data : List Int} (h : AllPaced ⟨a :: u, s⟩)
    (hc : Consistent ⟨a :: u, s⟩) (hfrees : FreesTaken ⟨a :: u, s⟩)
    (hmove : Move ⟨a :: u, s⟩
      ⟨.freeing a b :: u, (s.bodyTaken b).record (.freed b name state data)⟩)
    (hmay : a.MayFree b) (htaken : (s.body b).taken = false) (hhook : (s.body b).onFree.isSome) :
    AllPaced ⟨.freeing a b :: u, (s.bodyTaken b).record (.freed b name state data)⟩ := by
  have hother (c : BodyId) (hne : c ≠ b) :
      told c ((s.bodyTaken b).record (.freed b name state data)).history = told c s.history :=
    told_record_of_ne (if_neg hne.symm)
  cases a with
  | ending e =>
    obtain rfl : e.body = b := hmay
    refine h.goOn hc hmove rfl rfl rfl (Activity.turns_of_held_eq_nil rfl)
      (Activity.turns_of_held_eq_nil rfl) (fun _ => htaken) (fun _ hsuits => ?_) hother
    exact .of_fits (hsuits.fits.freeInTheEnd hhook hmove.extends) fun _ => Stage.noConfusion
  | planned t =>
    obtain rfl : t.body = b := hmay
    refine h.goOn hc hmove rfl rfl rfl (Activity.turns_of_held_eq_nil rfl)
      (Activity.turns_of_held_eq_nil rfl) (fun _ => htaken) (fun _ hsuits => ?_) hother
    exact .of_fits (hsuits.fits.freeBefore trivial hhook hmove.extends) fun _ => Stage.noConfusion
  | discarding e =>
    obtain rfl : e.body = b := hmay
    exact h.discard hc hfrees hmove rfl rfl rfl htaken
      (InTurn.taken_bodyTaken s (State.lt_size_of_untaken htaken)) hother
  | _ => exact hmay.elim

/-- The hook that frees the data returns. -/
theorem freeEnd {data : List Int} (h : AllPaced ⟨.freeing a b :: u, s⟩)
    (hc : Consistent ⟨.freeing a b :: u, s⟩) (hfrees : FreesTaken ⟨.freeing a b :: u, s⟩)
    (hmove : Move ⟨.freeing a b :: u, s⟩ ⟨a.freed :: u, s.record (.hookEnded b data)⟩)
    (hmay : a.MayFree b) : AllPaced ⟨a.freed :: u, s.record (.hookEnded b data)⟩ := by
  have hm : (⟨.freeing a b :: u, s⟩ : Moment).allTurns =
      (b, .freeing a.isEnding) ::ₘ (⟨u, s⟩ : Moment).allTurns := by
    rw [allTurns_cons, Activity.turns_of_held_eq_nil rfl]
    exact Multiset.singleton_add _ _
  have hn : (⟨a.freed :: u, s.record (.hookEnded b data)⟩ : Moment).allTurns =
      (⟨u, s⟩ : Moment).allTurns := by
    rw [allTurns_cons, hmay.turns_freed, zero_add]
    exact allTurns_of_same (s := s) (t := s.record _) u rfl rfl rfl
  have htaken : (s.body b).taken = true := (hfrees a b List.mem_cons_self).2
  refine h.step hc hmove (b := b) (hc.known (hm ▸ Multiset.mem_cons_self _ _)) (fun hlive => ?_)
    (fun c hne => ?_) fun c hne => told_record_of_ne (if_neg hne.symm)
  · -- it had the turn of this hook, and no other
    rcases hlive with hfalse | hfreeing
    · rw [show (s.body b).taken = false from hfalse] at htaken
      cases htaken
    · rw [hn] at hfreeing
      have hpaced := h.paced b (.inr (hm ▸ Multiset.mem_cons_of_mem hfreeing))
      have hnone := hpaced.turnsOf_rest hm
      have hmem : (b, Stage.freeing true) ∈ (⟨u, s⟩ : Moment).allTurns.filter fun t => t.1 = b :=
        Multiset.mem_filter.2 ⟨hfreeing, rfl⟩
      rw [hnone] at hmem
      exact absurd hmem (Multiset.notMem_zero _)
  · exact turnsOf_le_of_cons hm (y := .closing) (hn ▸ Multiset.le_cons_self _ _) hne

end Callbacks

theorem bodyMove (h : AllPaced m) (hc : Consistent m) (hfrees : FreesTaken m)
    (hbody : BodyMove m n) : AllPaced n := by
  have hmove : Move m n := .body hbody
  -- what a body knows of its costs and what it holds have no part in whose turn it is
  cases hbody with
  | plan t body hbody => exact h.plan hc hmove hbody
  | forget t =>
    exact h.lose hc hmove (by rw [allTurns_cons]; exact Multiset.le_add_left _ _) fun _ => rfl
  | @estimate u s b f =>
    exact h.lose hc hmove
      (allTurns_of_same (s := s) (t := s.modifyBody b f) u rfl rfl rfl).le fun _ => rfl
  | @write u s b f =>
    exact h.lose hc hmove
      (allTurns_of_same (s := s) (t := s.modifyBody b f) u rfl rfl rfl).le fun _ => rfl
  | act a b i onGpu hmay => exact h.act hc hmove hmay
  | actEnd a b i onGpu ok hmay => exact h.actEnd hc hmove hmay
  | actSkip a b i onGpu hmay hgone => exact h.actSkip hc hmove hmay hgone
  | fail e htaken hhook => exact h.fail hc hmove hhook
  | failEnd e => exact h.failEnd hc hmove
  | failSkip e hgone => exact h.failSkip hc hmove hgone
  | free a b asset hmay htaken hhook => exact h.free hc hfrees hmove hmay htaken hhook
  | freeEnd a b hmay => exact h.freeEnd hc hfrees hmove hmay
  | @freeSkip u s a b hmay =>
    refine h.lose hc hmove ?_ fun _ => rfl
    rw [allTurns_cons, hmay.turns_freed, zero_add, allTurns_cons,
      allTurns_of_same (s := s) (t := s.bodyTaken b) u rfl rfl rfl]
    exact Multiset.le_add_left _ _

theorem taskMove (h : AllPaced m) (hc : Consistent m) (hn : Consistent n) (htask : TaskMove m n) :
    AllPaced n := by
  have hmove : Move m n := .task htask
  have htold := htask.records.told_eq (by decide)
  rcases InTurn.allTurns_taskMove hc hn htask with hle | ⟨hstate, b, i, k, hm, hafter, hfits⟩
  · exact h.lose hc hmove hle htold
  · refine h.replace hc hmove hm hafter.le nofun (fun _ hsuits => ?_) fun c _ => htold c
    rw [hstate]
    exact .of_fits (hfits hsuits.fits) nofun

theorem move (h : AllPaced m) (hc : Consistent m) (hn : Consistent n) (ho : Owned m)
    (hfrees : FreesTaken m) (hmove : Move m n) : AllPaced n := by
  rcases hmove.work_or_same with (hbody | hjob | htask) | hsame
  · exact h.bodyMove hc hfrees hbody
  · exact h.lose hc hmove (InTurn.allTurns_jobMove hc ho hjob) (hjob.records.told_eq (by decide))
  · exact h.taskMove hc hn htask
  · exact h.lose hc hmove hsame.passes.allTurns_le hsame.told

end AllPaced

/-- As long as tasks keep to their thread, all live tasks are paced. -/
theorem Occurs.allPaced {c : Scene} (hc : Occurs c) (hkeeps : KeepsToThread c.state.history) :
    AllPaced c.toMoment := by
  refine (hc.moves_invariant (P := fun m => Booked m ∧ (KeepsToThread m.state.history →
    Consistent m ∧ AllPaced m)) (fun p => ⟨.start p, fun _ => ⟨.start p, .start p⟩⟩) ?_).2 hkeeps |>.2
  intro m n hmove ⟨hbooked, hm⟩
  refine ⟨hbooked.move hmove, fun hkeeps => ?_⟩
  obtain ⟨hconsistent, hpaced⟩ := hm (hkeeps.of_suffix hmove.extends.history)
  have hn := hconsistent.move_of_keeps hmove hkeeps
  exact ⟨hn, hpaced.move hconsistent hn hbooked.owned hbooked.spent.freesTaken hmove⟩

end AssetLoading

import AssetLoading.Proofs.Tasks.Endings

/-! # Accepted tasks

  A task that is accepted gets a number of its own, and no other number later: its
  body is made for it, and from then on nobody plans another task with it.
-/

namespace AssetLoading

/-- This activity is about to queue a task with this body, or refuses to. -/
def Activity.Plans : Activity → BodyId → Prop
  | planned t, b => t.body = b
  | freeing a _, b => a.Plans b
  | _, _ => False

/-- A task with this number and this body was accepted. -/
def State.Accepts (s : State) (id : Nat) (b : BodyId) : Prop :=
  ∃ asset data, .accepted id b asset data ∈ s.history

/-- The number and the body of a task that was accepted. -/
def Event.acceptance? : Event → Option (Nat × BodyId)
  | .accepted id b _ _ => some (id, b)
  | _ => none

theorem State.accepts_iff {s : State} {id : Nat} {b : BodyId} :
    s.Accepts id b ↔ (id, b) ∈ s.history.filterMap Event.acceptance? := by
  rw [List.mem_filterMap]
  constructor
  · rintro ⟨asset, data, h⟩
    exact ⟨_, h, rfl⟩
  · rintro ⟨e, he, hid⟩
    cases e <;> simp_all [Event.acceptance?]
    exact ⟨_, _, he⟩

theorem Activity.Plans.ofTasks {a : Activity} {b : BodyId} (h : a.Plans b) : a.ofTasks = true := by
  cases a <;> first | rfl | exact h.elim

/-- Whoever runs the hook that frees a task has taken its body away for that. -/
def FreesTaken (m : Moment) : Prop :=
  ∀ a b, .freeing a b ∈ m.underWay → a.MayFree b ∧ (m.state.body b).taken = true

theorem Endings.freesTaken {m : Moment} (he : Endings m) (hm : InOrder m) : FreesTaken m := by
  intro a b hmem
  have hagrees : a.Agrees m.state ∧ a.MayFree b := hm.consistent.work _ hmem
  exact ⟨hagrees.2, he.work _ hmem⟩

/-- Numbers and bodies of accepted tasks belong together. -/
structure Enrolled (m : Moment) : Prop where
  numbered : ∀ id b, m.state.Accepts id b → id ≤ m.state.queue.lastId
  known : ∀ id b, m.state.Accepts id b → b < m.state.bodies.size
  single : ∀ id b id' b', m.state.Accepts id b → m.state.Accepts id' b' → (id = id' ↔ b = b')
  planned : ∀ a ∈ m.underWay, ∀ b, a.Plans b → ∀ id, ¬ m.state.Accepts id b

namespace Enrolled

variable {m n : Moment}

theorem start (p : Session) : Enrolled ⟨[], p.start⟩ := by
  have hnone (id : Nat) (b : BodyId) : ¬ p.start.Accepts id b := by
    rintro ⟨asset, data, h⟩
    unfold Session.start at h
    dsimp only at h
    split at h <;> simp [State.record] at h
  constructor
  · exact fun id b h => absurd h (hnone id b)
  · exact fun id b h => absurd h (hnone id b)
  · exact fun id b _ _ h => absurd h (hnone id b)
  · exact fun a ha => absurd ha List.not_mem_nil

/-- No task is accepted and none is planned. -/
theorem keep (h : Enrolled m) (hmove : Move m n)
    (haccepts : ∀ id b, n.state.Accepts id b → m.state.Accepts id b)
    (hlast : n.state.queue.lastId = m.state.queue.lastId)
    (hplans : ∀ a ∈ n.underWay, ∀ b, a.Plans b → ∃ c ∈ m.underWay, c.Plans b) : Enrolled n where
  numbered id b hb := by
    rw [hlast]
    exact h.numbered id b (haccepts id b hb)
  known id b hb := (hmove.extends.body b (h.known id b (haccepts id b hb))).1
  single id b id' b' hb hb' := h.single id b id' b' (haccepts id b hb) (haccepts id' b' hb')
  planned a ha b hb id hid := by
    obtain ⟨c, hc, hplans⟩ := hplans a ha b hb
    exact h.planned c hc b hplans id (haccepts id b hid)

/-- Only a move of the task queue accepts a task. -/
theorem accepts_of_records {subject : Subject} (h : Records subject m n) (hne : subject ≠ .task)
    (id : Nat) (b : BodyId) : n.state.Accepts id b → m.state.Accepts id b := by
  rintro ⟨asset, data, haccepted⟩
  exact ⟨asset, data, h.mem_of_subject_ne haccepted fun heq => hne heq.symm⟩

theorem bodyMove (h : Enrolled m) (hmove : BodyMove m n) : Enrolled n := by
  have haccepts := accepts_of_records hmove.records (by decide)
  have hkeep (hlast : n.state.queue.lastId = m.state.queue.lastId)
      (hplans : ∀ a ∈ n.underWay, ∀ b, a.Plans b → ∃ c ∈ m.underWay, c.Plans b) : Enrolled n :=
    h.keep (.body hmove) haccepts hlast hplans
  cases hmove with
  | @plan u s t body hbody =>
    have hsize : (s.bodies.push body).size = s.bodies.size + 1 := Array.size_push _
    refine ⟨h.numbered, fun id b hb => ?_, h.single, fun a ha b hb id hid => ?_⟩
    · exact Nat.lt_of_lt_of_eq (Nat.lt_succ_of_lt (h.known id b hb)) hsize.symm
    · rcases List.mem_cons.1 ha with rfl | hu
      · -- the body was just made, and no accepted task has one beyond the last
        obtain rfl : t.body = b := hb
        exact Nat.ne_of_lt (h.known id _ hid) hbody
      · exact h.planned a hu b hb id hid
  | actEnd a b i onGpu ok hmay | actSkip a b i onGpu hmay | freeEnd a b hmay | freeSkip a b hmay =>
    -- what goes on after code was run has a task already, so it plans none
    refine hkeep rfl fun c hc d hd => ?_
    rcases List.mem_cons.1 hc with rfl | hu
    · cases a <;> first | exact hmay.elim | exact hd.elim
    · exact ⟨c, List.mem_cons_of_mem _ hu, hd⟩
  | _ => exact hkeep rfl (by grind [Activity.Plans])

theorem jobMove (h : Enrolled m) (hmove : JobMove m n) : Enrolled n := by
  refine h.keep (.job hmove) (accepts_of_records hmove.records (by decide)) (by cases hmove <;> rfl) ?_
  cases hmove with
  | start j hpick => cases hpick <;> grind [Activity.Plans]
  | skip j hpick => cases hpick <;> grind [Activity.Plans]
  | _ => grind [Activity.Plans]

/-- A task is accepted under the next number. -/
theorem accept {u : List Activity} {s t : State} {task : Task}
    (howned : Owned ⟨.holding .task task.asset :: .planned task :: u, s⟩)
    (hfrees : FreesTaken ⟨.holding .task task.asset :: .planned task :: u, s⟩)
    (h : Enrolled ⟨.holding .task task.asset :: .planned task :: u, s⟩)
    (hlast : t.queue.lastId = s.queue.lastId + 1) (hbodies : t.bodies = s.bodies)
    (haccepts : ∀ id b, t.Accepts id b ↔
      (id = s.queue.lastId + 1 ∧ b = task.body) ∨ s.Accepts id b) : Enrolled ⟨u, t⟩ := by
  have hplanned := h.planned (.planned task) (by simp) task.body rfl
  have hall : (⟨.holding .task task.asset :: .planned task :: u, s⟩ : Moment).owned =
      task.body ::ₘ (⟨u, s⟩ : Moment).owned := by
    rw [owned_cons, owned_cons_of_bodies rfl]
    exact zero_add _
  have huntaken : (s.body task.body).taken = false :=
    howned.untaken _ (hall ▸ Multiset.mem_cons_self _ _)
  refine ⟨fun id b hb => ?_, fun id b hb => ?_, fun id b id' b' hb hb' => ?_, fun a ha b hb id hid => ?_⟩
  · show id ≤ t.queue.lastId
    rcases (haccepts id b).1 hb with ⟨rfl, -⟩ | hold
    · exact hlast.ge
    · exact hlast ▸ Nat.le_succ_of_le (h.numbered id b hold)
  · show b < t.bodies.size
    rw [hbodies]
    rcases (haccepts id b).1 hb with ⟨-, rfl⟩ | hold
    · exact State.lt_size_of_untaken huntaken
    · exact h.known id b hold
  · rcases (haccepts id b).1 hb with ⟨rfl, rfl⟩ | hold <;>
      rcases (haccepts id' b').1 hb' with ⟨rfl, rfl⟩ | hold'
    · exact ⟨fun _ => rfl, fun _ => rfl⟩
    · constructor
      · rintro rfl
        exact absurd (h.numbered _ b' hold') (Nat.not_succ_le_self _)
      · rintro rfl
        exact absurd hold' (hplanned _)
    · constructor
      · rintro rfl
        exact absurd (h.numbered _ b hold) (Nat.not_succ_le_self _)
      · rintro rfl
        exact absurd hold (hplanned _)
    · exact h.single id b id' b' hold hold'
  · rcases (haccepts id b).1 hid with ⟨-, rfl⟩ | hold
    · -- nobody else plans a task with this body
      have hmem : a ∈ (⟨.holding .task task.asset :: .planned task :: u, s⟩ : Moment).underWay :=
        List.mem_cons_of_mem _ (List.mem_cons_of_mem _ ha)
      cases a with
      | planned other =>
        have hsingle := howned.single
        rw [hall, Multiset.nodup_cons] at hsingle
        refine hsingle.1 (Multiset.mem_add.2 (.inr (Multiset.mem_coe.2 ?_)))
        exact List.mem_flatMap.2 ⟨.planned other, ha, List.mem_singleton.2 (Eq.symm hb)⟩
      | freeing c d =>
        obtain ⟨hmay, htaken⟩ : c.MayFree d ∧ (s.body d).taken = true := hfrees c d hmem
        cases c with
        | planned other =>
          obtain rfl : other.body = d := hmay
          rw [show other.body = task.body from hb, huntaken] at htaken
          cases htaken
        | freeing => exact hmay.elim
        | _ => exact hb.elim
      | _ => exact hb.elim
    · exact h.planned a (List.mem_cons_of_mem _ (List.mem_cons_of_mem _ ha)) b hb id hold

theorem taskMove (h : Enrolled m) (howned : Owned m) (hfrees : FreesTaken m)
    (hmove : TaskMove m n) : Enrolled n := by
  have hkept := hmove
  cases hmove with
  | @accept u s t =>
    refine h.accept howned hfrees rfl rfl fun id b => ?_
    constructor
    · rintro ⟨asset, data, hmem⟩
      rcases List.mem_cons.1 hmem with heq | hold
      · cases heq
        exact .inl ⟨rfl, rfl⟩
      · exact .inr ⟨asset, data, hold⟩
    · rintro (⟨rfl, rfl⟩ | ⟨asset, data, hold⟩)
      · exact ⟨_, _, List.mem_cons_self⟩
      · exact ⟨asset, data, List.mem_cons_of_mem _ hold⟩
  | acquire e queue hq =>
    obtain ⟨front, back, -, -, -, rfl⟩ := TaskQueue.acquire_eq_some hq
    exact h.keep (.task hkept) (fun _ _ hid => hid) rfl
      (by grind [Activity.Plans])
  | _ =>
    refine h.keep (.task hkept) ?_ rfl (by grind [Activity.Plans])
    rintro id b ⟨asset, data, hmem⟩
    exact ⟨asset, data, by
      simpa [State.record, State.withQueue, State.withJobs, State.withClient] using hmem⟩

theorem move (h : Enrolled m) (howned : Owned m) (hfrees : FreesTaken m) (hmove : Move m n) :
    Enrolled n := by
  rcases hmove.work_or_same with (hbody | hjob | htask) | hsame
  · exact h.bodyMove hbody
  · exact h.jobMove hjob
  · exact h.taskMove howned hfrees htask
  · obtain ⟨subject, -, hsubject, hrecords⟩ := hsame.records
    refine h.keep hmove (accepts_of_records hrecords hsubject) hsame.lastId fun a ha b hb => ?_
    exact ⟨a, (hsame.mem_work hb.ofTasks).1 ha, hb⟩

end Enrolled

end AssetLoading

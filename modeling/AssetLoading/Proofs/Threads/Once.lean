import AssetLoading.Proofs.Tasks.Consistency
import Mathlib.Data.Finset.Card

/-! # How often actions and jobs run

  A job starts once, as it is marked when it does. That an action runs once is an
  argument about chances. The chances of an action are the times it has run and
  the ways in which it may still come to run: whoever has the task may get to it,
  a job that has not started may be about to run it, or a job that has. A new task
  has one chance for each of its actions, and no move adds to the chances of any
  action, as long as tasks keep to their thread. So whatever gets lost on the way,
  be it by a panic or by a claim that is forgotten, no action runs twice.
-/

namespace AssetLoading

/-! ### What has run -/

/-- The action that an event tells the start of. -/
def Event.action? : Event → Option (BodyId × Nat)
  | .acted b _ i _ _ => some (b, i)
  | _ => none

/-- The job that an event tells the start of. -/
def Event.job? : Event → Option JobId
  | .jobStarted j _ => some j
  | _ => none

/-- The actions that have started, the latest first. -/
def State.actionsRun (s : State) : List (BodyId × Nat) :=
  s.history.filterMap Event.action?

/-- The jobs that have started, the latest first. -/
def State.jobsRun (s : State) : List JobId :=
  s.history.filterMap Event.job?

section Recording

variable {subject : Subject} {m n : Moment}

theorem Records.actionsRun_eq (h : Records subject m n) (hne : subject ≠ .body) :
    n.state.actionsRun = m.state.actionsRun := by
  obtain ⟨new, hnew, hhistory⟩ := h
  have hnone : new.filterMap Event.action? = [] := by
    rw [List.filterMap_eq_nil_iff]
    intro e he
    have hsubject := hnew e he
    cases e <;> first | rfl | exact absurd hsubject.symm hne
  rw [State.actionsRun, hhistory, List.filterMap_append, hnone]
  rfl

theorem Records.jobsRun_eq (h : Records subject m n) (hne : subject ≠ .job) :
    n.state.jobsRun = m.state.jobsRun := by
  obtain ⟨new, hnew, hhistory⟩ := h
  have hnone : new.filterMap Event.job? = [] := by
    rw [List.filterMap_eq_nil_iff]
    intro e he
    have hsubject := hnew e he
    cases e <;> first | rfl | exact absurd hsubject.symm hne
  rw [State.jobsRun, hhistory, List.filterMap_append, hnone]
  rfl

theorem Moment.SameWork.actionsRun_eq (h : m.SameWork n) :
    n.state.actionsRun = m.state.actionsRun := by
  obtain ⟨subject, hbody, -, hrecords⟩ := h.records
  exact hrecords.actionsRun_eq hbody

end Recording

/-! ### Jobs -/

/-- A job that was made and has started. -/
def JobQueue.hasStarted (q : JobQueue) (j : JobId) : Prop :=
  j < q.jobs.size ∧ (q.job j).started = true

/-- Only jobs that have started are known to have run, and none twice. -/
structure JobsOnce (m : Moment) : Prop where
  started : ∀ j ∈ m.state.jobsRun, m.state.jobs.hasStarted j
  nodup : m.state.jobsRun.Nodup

namespace JobsOnce

variable {m n : Moment}

theorem start (p : Session) : JobsOnce ⟨[], p.start⟩ := by
  have hnone : p.start.jobsRun = [] := by
    unfold Session.start
    dsimp only
    split <;> rfl
  constructor
  · intro j hj
    rw [hnone] at hj
    cases hj
  · rw [hnone]
    exact List.nodup_nil

theorem same (h : JobsOnce m) (hrun : n.state.jobsRun = m.state.jobsRun)
    (hext : m.state.Extends n.state) : JobsOnce n where
  started j hj := by
    rw [hrun] at hj
    obtain ⟨hmade, hstarted⟩ := h.started j hj
    exact ⟨(hext.job j hmade).1, (hext.job j hmade).2.started hstarted⟩
  nodup := hrun ▸ h.nodup

/-- A job has not started before it starts. -/
theorem startJob {u v : List Activity} {s : State} {j : JobId} (h : JobsOnce ⟨u, s⟩)
    (hnew : (s.jobs.job j).started = false) (hext : s.Extends (s.jobStarted j)) :
    JobsOnce ⟨v, s.jobStarted j⟩ := by
  have hmade := State.lt_size_of_unstarted hnew
  have hrun : (s.jobStarted j).jobsRun = j :: s.jobsRun := rfl
  constructor
  · intro k hk
    rcases List.mem_cons.1 (hrun ▸ hk) with rfl | hk
    · refine ⟨(hext.job k hmade).1, ?_⟩
      show ((s.jobs.modify k _).job k).started = true
      rw [JobQueue.job_modify, if_pos ⟨rfl, hmade⟩]
    · obtain ⟨hk, hstarted⟩ := h.started k hk
      exact ⟨(hext.job k hk).1, (hext.job k hk).2.started hstarted⟩
  · show (s.jobStarted j).jobsRun.Nodup
    rw [hrun, List.nodup_cons]
    refine ⟨fun hj => ?_, h.nodup⟩
    have hstarted := (h.started j hj).2
    rw [hnew] at hstarted
    cases hstarted

theorem move (h : JobsOnce m) (hmove : Move m n) : JobsOnce n := by
  have hext := hmove.extends
  cases hmove with
  | asset hmove => exact h.same (hmove.records.jobsRun_eq (by decide)) hext
  | body hmove => exact h.same (hmove.records.jobsRun_eq (by decide)) hext
  | job hmove =>
    cases hmove with
    | start j hpick hnew => exact h.startJob hnew hext
    | _ => exact h.same rfl hext
  | task hmove => exact h.same (hmove.records.jobsRun_eq (by decide)) hext
  | notice hmove =>
    refine h.same ?_ hext
    unfold State.jobsRun
    rw [hmove.history_eq]
  | plain hmove => exact h.same (hmove.records.jobsRun_eq (by decide)) hext

end JobsOnce

/-! ### Chances -/

/-- An action comes after the one at the cursor. -/
def Entry.leaves (b : BodyId) (i : Nat) (e : Entry) : Bool :=
  e.body == b && decide (e.cursor < i)

/-- An action was not run and not handed over by whoever had the task. -/
def Entry.awaits (b : BodyId) (i : Nat) (e : Entry) : Bool :=
  e.leaves b i || (e.body == b && e.cursor == i && e.job.isNone)

/-- Work that is to run an action. -/
def Work.isAction (b : BodyId) (i : Nat) : Work → Bool
  | .action c k _ _ => c == b && k == i
  | .call .. | .custom .. => false

/-- An action may still come to run in what is left of an activity. -/
def Activity.leaves (b : BodyId) (i : Nat) : Activity → Bool
  | concluding e _ => e.leaves b i
  | planned t => t.body == b
  | acting a _ _ => a.held.any (·.leaves b i)
  | running _ w => w.isAction b i
  | _ => false

/-- The jobs that have not started and are to run an action. -/
def State.jobsFor (s : State) (b : BodyId) (i : Nat) : Finset JobId :=
  (Finset.range s.jobs.jobs.size).filter fun j =>
    (s.jobs.job j).started = false ∧ (s.jobs.job j).work.isAction b i = true

/-- How often an action may still come to run. -/
def Moment.hopes (m : Moment) (b : BodyId) (i : Nat) : Nat :=
  m.resting.countP (fun e => e.awaits b i = true) + m.underWay.countP (Activity.leaves b i) +
    (m.state.jobsFor b i).card

/-- How often an action has run or may still come to run. -/
def Moment.chances (m : Moment) (b : BodyId) (i : Nat) : Nat :=
  m.state.actionsRun.count (b, i) + m.hopes b i

/-- How often an action may come to run in an activity. -/
def Activity.hopes (b : BodyId) (i : Nat) (a : Activity) : Nat :=
  a.held.countP (·.awaits b i) + (a.leaves b i).toNat

section Counting

variable {b : BodyId} {i : Nat} {u v : List Activity} {s t : State}

theorem Entry.awaits_of_leaves {e : Entry} (h : e.leaves b i = true) : e.awaits b i = true := by
  rw [awaits, h]
  rfl

/-- What comes after the next action comes after the one at the cursor. -/
theorem Entry.leaves_of_advanced {e : Entry} (h : e.advanced.awaits b i = true) :
    e.leaves b i = true := by
  unfold advanced awaits leaves at h
  unfold leaves
  dsimp only at h
  simp only [Bool.or_eq_true, Bool.and_eq_true, beq_iff_eq, decide_eq_true_eq] at h ⊢
  rcases h with ⟨hbody, hlt⟩ | ⟨⟨hbody, heq⟩, -⟩
  · exact ⟨hbody, Nat.lt_of_succ_lt hlt⟩
  · exact ⟨hbody, Nat.lt_of_succ_le heq.le⟩

theorem Picks.filter_isBusy {j : JobId} (h : Picks j u v) :
    v.filter Activity.isBusy = u.filter Activity.isBusy := by
  cases h <;> rfl

theorem hopes_cons (a : Activity) (u : List Activity) (s : State) :
    (⟨a :: u, s⟩ : Moment).hopes b i = a.hopes b i + (⟨u, s⟩ : Moment).hopes b i := by
  unfold Moment.hopes Activity.hopes
  have hone : (if a.leaves b i = true then 1 else 0) = (a.leaves b i).toNat := by
    cases a.leaves b i <;> rfl
  rw [resting_cons, Multiset.countP_add, Multiset.coe_countP, List.countP_cons, hone]
  simp only [Bool.decide_eq_true]
  omega

/-- What may come to run depends on tasks, jobs and activities. -/
theorem hopes_le (hresting : (⟨v, t⟩ : Moment).resting ≤ (⟨u, s⟩ : Moment).resting)
    (hwork : v.countP (Activity.leaves b i) ≤ u.countP (Activity.leaves b i))
    (hjobs : t.jobs.jobs = s.jobs.jobs) :
    (⟨v, t⟩ : Moment).hopes b i ≤ (⟨u, s⟩ : Moment).hopes b i := by
  have hfor : t.jobsFor b i = s.jobsFor b i := by
    unfold State.jobsFor JobQueue.job
    rw [hjobs]
  unfold Moment.hopes
  dsimp only
  rw [hfor]
  exact Nat.add_le_add_right (Nat.add_le_add (Multiset.countP_le_of_le _ hresting) hwork) _

theorem hopes_congr (hpending : t.queue.pending = s.queue.pending)
    (hclaims : t.client.claims = s.client.claims) (hjobs : t.jobs.jobs = s.jobs.jobs) :
    (⟨u, t⟩ : Moment).hopes b i = (⟨u, s⟩ : Moment).hopes b i := by
  have hresting : (⟨u, t⟩ : Moment).resting = (⟨u, s⟩ : Moment).resting := by
    unfold Moment.resting
    rw [hpending, hclaims]
  exact le_antisymm (hopes_le hresting.le le_rfl hjobs) (hopes_le hresting.ge le_rfl hjobs.symm)

/-- A task is put back or taken in. -/
theorem hopes_of_resting {e : Entry}
    (h : (⟨u, t⟩ : Moment).resting = e ::ₘ (⟨u, s⟩ : Moment).resting)
    (hjobs : t.jobs.jobs = s.jobs.jobs) :
    (⟨u, t⟩ : Moment).hopes b i = (⟨u, s⟩ : Moment).hopes b i + (e.awaits b i).toNat := by
  have hfor : t.jobsFor b i = s.jobsFor b i := by
    unfold State.jobsFor JobQueue.job
    rw [hjobs]
  unfold Moment.hopes
  dsimp only
  have hone : (if e.awaits b i = true then 1 else 0) = (e.awaits b i).toNat := by
    cases e.awaits b i <;> rfl
  rw [hfor, h, Multiset.countP_cons, hone]
  omega

/-- A new job may be about to run an action. -/
theorem card_jobsFor_push {w : Work} (hjobs : t.jobs.jobs = s.jobs.jobs.push { work := w }) :
    (t.jobsFor b i).card = (s.jobsFor b i).card + (w.isAction b i).toNat := by
  have hjob := JobQueue.job_pushed hjobs
  have hold : (Finset.range s.jobs.jobs.size).filter (fun j =>
      (t.jobs.job j).started = false ∧ (t.jobs.job j).work.isAction b i = true) = s.jobsFor b i := by
    refine Finset.filter_congr fun j hj => ?_
    rw [hjob, if_neg (Nat.ne_of_lt (Finset.mem_range.1 hj))]
  have hnew := hjob s.jobs.jobs.size
  rw [if_pos rfl] at hnew
  have hfor : t.jobsFor b i = if w.isAction b i = true then insert s.jobs.jobs.size (s.jobsFor b i)
      else s.jobsFor b i := by
    rw [State.jobsFor, hjobs, Array.size_push, Finset.range_add_one, Finset.filter_insert, hold, hnew]
    simp only [true_and]
  have hmem : s.jobs.jobs.size ∉ s.jobsFor b i := by simp [State.jobsFor]
  rw [hfor]
  cases w.isAction b i with
  | false => rfl
  | true => exact Finset.card_insert_of_notMem hmem

/-- A job that starts is no longer one that has not. -/
theorem card_jobsFor_start {j : JobId} (hnew : (s.jobs.job j).started = false) :
    ((s.jobStarted j).jobsFor b i).card + ((s.jobs.job j).work.isAction b i).toNat ≤
      (s.jobsFor b i).card := by
  have hmade := State.lt_size_of_unstarted hnew
  have hjob (k : JobId) : (s.jobStarted j).jobs.job k =
      if j = k ∧ k < s.jobs.jobs.size then { s.jobs.job k with started := true } else s.jobs.job k :=
    JobQueue.job_modify s.jobs j k _
  have hsize : (s.jobStarted j).jobs.jobs.size = s.jobs.jobs.size := Array.size_modify
  -- the job that starts is the only one that no longer counts
  have hsub : (s.jobStarted j).jobsFor b i ⊆ (s.jobsFor b i).erase j := by
    intro k hk
    unfold State.jobsFor at hk
    rw [hsize, Finset.mem_filter, hjob] at hk
    by_cases hjk : j = k
    · rw [if_pos ⟨hjk, Finset.mem_range.1 hk.1⟩] at hk
      exact nomatch hk.2.1
    · rw [if_neg fun h => hjk h.1] at hk
      exact Finset.mem_erase.2 ⟨fun heq => hjk heq.symm, Finset.mem_filter.2 hk⟩
  cases haction : (s.jobs.job j).work.isAction b i with
  | false => exact Finset.card_le_card (hsub.trans (Finset.erase_subset _ _))
  | true =>
    have hmem : j ∈ s.jobsFor b i :=
      Finset.mem_filter.2 ⟨Finset.mem_range.2 hmade, hnew, haction⟩
    have hcard := Finset.card_erase_add_one hmem
    have hle := Finset.card_le_card hsub
    show _ + 1 ≤ _
    omega

end Counting

/-! ### No move adds to the chances -/

section Moving

variable {b c : BodyId} {i k : Nat} {m n : Moment} {u v : List Activity} {s t : State}

theorem Activity.leaves_eq_false {a : Activity} (ha : a.isBusy = false) : a.leaves b i = false := by
  cases a <;> first | rfl | cases ha

/-- What may come to run in what is under way depends on the busy activities. -/
theorem countP_leaves_eq (h : v.filter Activity.isBusy = u.filter Activity.isBusy) :
    v.countP (Activity.leaves b i) = u.countP (Activity.leaves b i) := by
  have hkept (u : List Activity) :
      (u.filter Activity.isBusy).countP (Activity.leaves b i) = u.countP (Activity.leaves b i) := by
    rw [List.countP_filter]
    refine List.countP_congr fun a _ => ?_
    cases ha : a.isBusy with
    | true => simp
    | false => simp [Activity.leaves_eq_false ha]
  rw [← hkept v, h, hkept]

/-- Tasks change hands or get lost where they rest, and nothing runs. -/
theorem Moment.Passes.chances_le (h : m.Passes n) (hrun : n.state.actionsRun = m.state.actionsRun) :
    n.chances b i ≤ m.chances b i := by
  unfold chances
  rw [hrun]
  exact Nat.add_le_add_left (hopes_le h.resting (countP_leaves_eq h.busy).le h.jobs) _

theorem Moment.SameWork.chances_le (h : m.SameWork n) : n.chances b i ≤ m.chances b i :=
  h.passes.chances_le h.actionsRun_eq

/-- One activity comes in place of another, and nothing runs. -/
theorem chances_turn {a d : Activity} (hrun : t.actionsRun = s.actionsRun)
    (hqueue : t.queue = s.queue) (hclient : t.client = s.client) (hjobs : t.jobs.jobs = s.jobs.jobs)
    (had : d.hopes b i ≤ a.hopes b i) :
    (⟨d :: u, t⟩ : Moment).chances b i ≤ (⟨a :: u, s⟩ : Moment).chances b i := by
  unfold Moment.chances
  rw [hrun, hopes_cons, hopes_cons, hopes_congr (by rw [hqueue]) (by rw [hclient]) hjobs]
  exact Nat.add_le_add_left (Nat.add_le_add_right had _) _

/-- An activity has come to its end, and nothing runs. -/
theorem chances_drop {a : Activity} (hrun : t.actionsRun = s.actionsRun)
    (hqueue : t.queue = s.queue) (hclient : t.client = s.client) (hjobs : t.jobs.jobs = s.jobs.jobs) :
    (⟨u, t⟩ : Moment).chances b i ≤ (⟨a :: u, s⟩ : Moment).chances b i := by
  unfold Moment.chances
  rw [hrun, hopes_cons, hopes_congr (by rw [hqueue]) (by rw [hclient]) hjobs]
  exact Nat.add_le_add_left (Nat.le_add_left _ _) _

/-- Whoever was busy with a task gives it back, and nothing runs. -/
theorem chances_giveBack {a : Activity} {e : Entry} (hrun : t.actionsRun = s.actionsRun)
    (hqueue : t.queue = s.queue.giveBack e) (hclient : t.client = s.client)
    (hjobs : t.jobs.jobs = s.jobs.jobs) (ha : (e.awaits b i).toNat ≤ a.hopes b i) :
    (⟨u, t⟩ : Moment).chances b i ≤ (⟨a :: u, s⟩ : Moment).chances b i := by
  have hback := hopes_of_resting (b := b) (i := i)
    (resting_giveBack (u := u) hqueue (by rw [hclient])) hjobs
  unfold Moment.chances
  rw [hrun, hopes_cons, hback]
  dsimp only
  omega

/-- An action that starts uses up a chance of its own. -/
theorem Activity.MayAct.hopes_acting {a : Activity} {onGpu : Bool} (hmay : a.MayAct c k onGpu)
    (ha : a.Agrees s) (b : BodyId) (i : Nat) :
    (Activity.acting a c k).hopes b i + (if (c, k) = (b, i) then 1 else 0) ≤ a.hopes b i := by
  cases a with
  | stepping e g =>
    have hjob := ha.job_eq_none hmay
    obtain ⟨rfl, rfl, -⟩ := hmay
    -- the entry awaits this action and, while it runs, only the ones after it
    have hactive : (Activity.acting (.stepping e g) e.body e.cursor).hopes b i =
        (e.leaves b i).toNat := by simp [hopes, held, leaves]
    have hidle : (Activity.stepping e g).hopes b i = (e.awaits b i).toNat := by
      simp [hopes, held, leaves, List.countP_cons]
      cases e.awaits b i <;> rfl
    rw [hactive, hidle]
    by_cases heq : (e.body, e.cursor) = (b, i)
    · obtain ⟨rfl, rfl⟩ := Prod.mk.inj heq
      simp [Entry.leaves, Entry.awaits, hjob]
    · rw [if_neg heq]
      cases hleft : e.leaves b i with
      | false => exact Nat.zero_le _
      | true => rw [Entry.awaits_of_leaves hleft]; exact le_rfl
  | running j w =>
    cases w with
    | action d l asset priority =>
      obtain ⟨rfl, rfl⟩ := hmay
      by_cases heq : (d, l) = (b, i)
      · obtain ⟨rfl, rfl⟩ := Prod.mk.inj heq
        simp [hopes, held, leaves, Work.isAction]
      · rw [if_neg heq]
        simp [hopes, held, leaves]
    | call => exact hmay.elim
    | custom => exact hmay.elim
  | _ => exact hmay.elim

theorem Activity.MayAct.hopes_concluded {a : Activity} {onGpu ok : Bool} (hmay : a.MayAct c k onGpu) :
    (a.concluded ok).hopes b i ≤ (Activity.acting a c k).hopes b i ∧
      (a.concluded ok).hopes b i ≤ a.hopes b i := by
  cases a with
  | stepping e g =>
    have hleft : (e.leaves b i).toNat ≤ (e.awaits b i).toNat := by
      cases hleft : e.leaves b i with
      | false => exact Nat.zero_le _
      | true => rw [Entry.awaits_of_leaves hleft]
    have hidle : (Activity.stepping e g).hopes b i = (e.awaits b i).toNat := by
      simp [hopes, held, leaves, List.countP_cons]
      cases e.awaits b i <;> rfl
    rw [hidle]
    simpa [hopes, held, leaves, concluded] using hleft
  | running j w => simp [hopes, held, leaves, concluded]
  | _ => exact hmay.elim

theorem Activity.MayFree.hopes_freed {a : Activity} (hmay : a.MayFree c) : a.freed.hopes b i = 0 := by
  cases a <;> first | exact hmay.elim | rfl

end Moving

/-! ### No action runs twice -/

/-- Every action of a task that was made has at most one chance, and there are no
others. -/
def Sparing (m : Moment) : Prop :=
  ∀ b i, m.chances b i ≤ if b < m.state.bodies.size then 1 else 0

namespace Sparing

variable {m n : Moment}

theorem start (p : Session) : Sparing ⟨[], p.start⟩ := by
  intro b i
  unfold Session.start
  dsimp only
  split <;> exact Nat.zero_le _

/-- Nothing is added to the chances. -/
theorem mono (h : Sparing m) (hext : m.state.Extends n.state)
    (hle : ∀ b i, n.chances b i ≤ m.chances b i) : Sparing n := by
  intro b i
  have hb := h b i
  have hn := hle b i
  by_cases hmade : b < m.state.bodies.size
  · rw [if_pos hmade] at hb
    rw [if_pos (hext.body b hmade).1]
    exact hn.trans hb
  · rw [if_neg hmade] at hb
    exact (hn.trans hb).trans (Nat.zero_le _)

/-- A new task has one chance for each action. -/
theorem plan {u : List Activity} {s : State} {t : Task} {body : TaskBody} (h : Sparing ⟨u, s⟩)
    (hbody : t.body = s.bodies.size) :
    Sparing ⟨.planned t :: u, { s with bodies := s.bodies.push body }⟩ := by
  intro b i
  have hb := h b i
  have hturn : (⟨.planned t :: u, { s with bodies := s.bodies.push body }⟩ : Moment).chances b i =
      (t.body == b).toNat + (⟨u, s⟩ : Moment).chances b i := by
    have hsame := hopes_congr (b := b) (i := i) (u := u) (s := s)
      (t := { s with bodies := s.bodies.push body }) rfl rfl rfl
    unfold Moment.chances
    rw [hopes_cons, hsame]
    show s.actionsRun.count (b, i) + ((0 + (t.body == b).toNat) + _) = _ + (s.actionsRun.count (b, i) + _)
    omega
  rw [hturn]
  show _ ≤ if b < (s.bodies.push body).size then 1 else 0
  rw [Array.size_push, hbody]
  dsimp only at hb
  -- a new body has one chance, all others have as many as before
  by_cases hnew : s.bodies.size = b
  · subst hnew
    rw [if_neg (Nat.lt_irrefl _)] at hb
    rw [Nat.le_zero.1 hb, if_pos (Nat.lt_succ_self _)]
    exact Bool.toNat_le _
  · have hne : (s.bodies.size == b) = false := beq_eq_false_iff_ne.2 hnew
    rw [hne]
    show 0 + _ ≤ _
    split at hb
    next hlt => rw [if_pos (Nat.lt_succ_of_lt hlt)]; omega
    next => omega

theorem bodyMove (h : Sparing m) (hconsistent : Consistent m) (hmove : BodyMove m n) : Sparing n := by
  have hext := hmove.extends
  cases hmove with
  | plan t body hbody => exact h.plan hbody
  | forget t => exact h.mono hext fun b i => chances_drop rfl rfl rfl rfl
  | estimate b f => exact h.mono hext fun c i => le_rfl
  | write b f => exact h.mono hext fun c i => le_rfl
  | @act u s a c k onGpu hmay =>
    refine h.mono hext fun b i => ?_
    -- the chance that is used up is the run that is counted
    have hacting := hmay.hopes_acting (hconsistent.work a List.mem_cons_self) b i
    have hsame := hopes_congr (b := b) (i := i) (u := u) (s := s)
      (t := s.record (.acted c (s.body c).name k onGpu (s.body c).data)) rfl rfl rfl
    unfold Moment.chances
    rw [hopes_cons, hopes_cons, hsame]
    show ((c, k) :: s.actionsRun).count (b, i) + _ ≤ s.actionsRun.count (b, i) + _
    rw [List.count_cons]
    simp only [beq_iff_eq]
    omega
  | actEnd a c k onGpu ok hmay =>
    exact h.mono hext fun b i => chances_turn rfl rfl rfl rfl hmay.hopes_concluded.1
  | actSkip a c k onGpu hmay =>
    exact h.mono hext fun b i => chances_turn rfl rfl rfl rfl hmay.hopes_concluded.2
  | fail e => exact h.mono hext fun b i => chances_turn rfl rfl rfl rfl (Nat.zero_le _)
  | failEnd e => exact h.mono hext fun b i => chances_turn rfl rfl rfl rfl (Nat.zero_le _)
  | failSkip e => exact h.mono hext fun b i => chances_turn rfl rfl rfl rfl (Nat.zero_le _)
  | free a c asset => exact h.mono hext fun b i => chances_turn rfl rfl rfl rfl (Nat.zero_le _)
  | freeEnd a c hmay =>
    exact h.mono hext fun b i => chances_turn rfl rfl rfl rfl (hmay.hopes_freed.trans_le (Nat.zero_le _))
  | freeSkip a c hmay =>
    exact h.mono hext fun b i => chances_turn rfl rfl rfl rfl (hmay.hopes_freed.trans_le (Nat.zero_le _))

theorem jobMove (h : Sparing m) (hmove : JobMove m n) : Sparing n := by
  have hext := hmove.extends
  have hsame := hmove.sameWork
  refine h.mono hext fun b i => ?_
  cases hmove with
  | @make u s w hw =>
    have hnone : w.isAction b i = false := by
      cases w <;> first | exact hw.elim | rfl
    have hcard := card_jobsFor_push (b := b) (i := i) (w := w) (s := s)
      (t := s.withJobs (s.jobs.make w).2) rfl
    rw [hnone] at hcard
    unfold Moment.chances Moment.hopes
    dsimp only
    rw [hcard]
    exact le_rfl
  | submit j => exact (hsame rfl rfl).chances_le
  | drain => exact (hsame rfl rfl).chances_le
  | @start u v s j hpick hnew =>
    -- the chance passes from the job that waits to the activity that runs it
    have hcard := card_jobsFor_start (b := b) (i := i) hnew
    have hwork := countP_leaves_eq (b := b) (i := i) hpick.filter_isBusy
    have hresting : (⟨v, s.jobStarted j⟩ : Moment).resting = (⟨u, s⟩ : Moment).resting := by
      unfold Moment.resting
      dsimp only
      rw [hpick.flatMap_eq fun _ => rfl]
      rfl
    unfold Moment.chances
    rw [hopes_cons]
    unfold Moment.hopes
    dsimp only
    rw [hresting, hwork]
    show s.actionsRun.count (b, i) + (0 + ((s.jobs.job j).work.isAction b i).toNat + _) ≤ _
    omega
  | skip j hpick => exact (hsame hpick.filter_ofTasks rfl).chances_le
  | work j w hw ok => exact chances_turn rfl rfl rfl rfl (Nat.zero_le _)
  | @finish u s j w ok =>
    -- a job that ends had started, so it was no chance any more
    have hfor : (s.jobEnded j ok).jobsFor b i = s.jobsFor b i := by
      have hjob (k : JobId) : ((s.jobEnded j ok).jobs.job k).started = (s.jobs.job k).started ∧
          ((s.jobEnded j ok).jobs.job k).work = (s.jobs.job k).work := by
        have hmodified := JobQueue.job_modify s.jobs j k fun job =>
          { job with success := ok, finished := true }
        show ((s.jobs.modify j _).job k).started = _ ∧ ((s.jobs.modify j _).job k).work = _
        rw [hmodified]
        split <;> exact ⟨rfl, rfl⟩
      have hsize : (s.jobEnded j ok).jobs.jobs.size = s.jobs.jobs.size := Array.size_modify
      unfold State.jobsFor
      rw [hsize]
      exact Finset.filter_congr fun k _ => by rw [(hjob k).1, (hjob k).2]
    have hhopes : (⟨u, s.jobEnded j ok⟩ : Moment).hopes b i = (⟨u, s⟩ : Moment).hopes b i := by
      unfold Moment.hopes
      dsimp only
      rw [hfor]
      rfl
    unfold Moment.chances
    rw [hopes_cons, hhopes]
    exact Nat.add_le_add_left (Nat.le_add_left _ _) _
  | drained => exact (hsame rfl rfl).chances_le

/-- The action at the cursor is left to a job. -/
theorem handOver {u : List Activity} {s t : State} {e : Entry} {b : BodyId} {i : Nat}
    (hjob : e.job = none) (hrun : t.actionsRun = s.actionsRun)
    (hjobs : t.jobs.jobs = s.jobs.jobs.push { work := .action e.body e.cursor e.asset e.priority })
    (hqueue : t.queue = s.queue.giveBack (e.handedOver s.jobs.jobs.size))
    (hclient : t.client = s.client) :
    (⟨u, t⟩ : Moment).chances b i ≤ (⟨.stepping e false :: u, s⟩ : Moment).chances b i := by
  have hcard := card_jobsFor_push (b := b) (i := i) hjobs
  have hback := resting_giveBack (u := u) hqueue (by rw [hclient])
  -- the action now lies in the job, and the entry awaits only those after it
  have hsplit : ((e.handedOver s.jobs.jobs.size).awaits b i).toNat +
      ((Work.action e.body e.cursor e.asset e.priority).isAction b i).toNat = (e.awaits b i).toNat := by
    unfold Entry.handedOver Entry.awaits Entry.leaves Work.isAction
    rw [hjob]
    by_cases hb : e.body = b
    · rcases Nat.lt_trichotomy e.cursor i with hlt | heq | hgt
      · simp [hb, hlt, hlt.ne]
      · simp [hb, heq]
      · simp [hb, Nat.lt_asymm hgt]
    · simp [beq_eq_false_iff_ne.2 hb]
  have hone (d : Entry) : (if d.awaits b i = true then 1 else 0) = (d.awaits b i).toNat := by
    cases d.awaits b i <;> rfl
  unfold Moment.chances
  rw [hrun, hopes_cons]
  unfold Moment.hopes
  dsimp only
  rw [hcard, hback, Multiset.countP_cons, hone]
  show _ ≤ _ + ([e].countP _ + 0 + _)
  rw [List.countP_cons, List.countP_nil, hone]
  omega

theorem taskMove (h : Sparing m) (hmove : TaskMove m n) : Sparing n := by
  have hext := hmove.extends
  have hrun := hmove.records.actionsRun_eq (by decide)
  have hone (d : Entry) (b : BodyId) (i : Nat) :
      (Activity.stepping d false).hopes b i = (d.awaits b i).toNat := by
    simp [Activity.hopes, Activity.held, Activity.leaves, List.countP_cons]
    cases d.awaits b i <;> rfl
  refine h.mono hext fun b i => ?_
  have hpassed (hresting : n.resting ≤ m.resting) (hbusy : n.busy = m.busy)
      (hjobs : n.state.jobs.jobs = m.state.jobs.jobs) : n.chances b i ≤ m.chances b i :=
    (hmove.passes hresting hbusy hjobs).chances_le hrun
  cases hmove with
  | @accept u s t =>
    have hresting := resting_accept (u := u) (s := s) (t := (s.withQueue (s.queue.push t).2).record
      (.accepted (s.queue.push t).1.id t.body t.asset (s.body t.body).data)) rfl rfl
    have htaken := hopes_of_resting (b := b) (i := i) hresting rfl
    -- accepting turns the chance of the plan into that of the entry
    have hall : ((s.queue.push t).1.awaits b i).toNat ≤ (t.body == b).toNat := by
      show ((t.body == b && decide (0 < i)) || (t.body == b && 0 == i && true)).toNat ≤ _
      cases t.body == b with
      | false => exact le_rfl
      | true => exact Bool.toNat_le _
    unfold Moment.chances
    rw [hrun, hopes_cons, hopes_cons, htaken]
    show _ ≤ _ + (0 + (0 + (t.body == b).toNat + _))
    dsimp only
    omega
  | acquire e queue hq => exact hpassed (resting_acquire hq).le rfl rfl
  | shelve e label => exact hpassed (resting_shelve _ _ e label) rfl rfl
  | unshelve e label he => exact hpassed (resting_unshelve he) rfl rfl
  | forget => exact hpassed (resting_forget _ _) rfl rfl
  | exchange es e =>
    exact hpassed (resting_exchange es e _ _).le (filter_exchange es e _ fun _ => rfl) rfl
  | step e onGpu => exact hpassed le_rfl rfl rfl
  | runOut e onGpu he => exact chances_turn hrun rfl rfl rfl (Nat.zero_le _)
  | handOver e he hjob => exact handOver hjob hrun rfl rfl rfl
  | wait e j => exact chances_giveBack hrun rfl rfl rfl (hone e b i).ge
  | collect e j complexity he hjob =>
    refine chances_turn hrun rfl rfl rfl ?_
    rw [hone]
    show 0 + (e.leaves b i).toNat ≤ _
    cases hleft : e.leaves b i with
    | false => exact Nat.zero_le _
    | true => rw [Entry.awaits_of_leaves hleft]; exact le_rfl
  | reckon e ok complexity => exact chances_turn hrun rfl rfl rfl le_rfl
  | proceed e he =>
    refine chances_giveBack hrun rfl rfl rfl ?_
    show (e.advanced.awaits b i).toNat ≤ 0 + (e.leaves b i).toNat
    rw [Nat.zero_add]
    cases hawaits : e.advanced.awaits b i with
    | false => exact Nat.zero_le _
    | true => rw [Entry.leaves_of_advanced hawaits]
  | succeed e he => exact chances_turn hrun rfl rfl rfl (Nat.zero_le _)
  | complete e => exact hpassed le_rfl rfl rfl
  | drain hu => exact hpassed (resting_drain _ _).le rfl rfl
  | discardNext e es => exact hpassed le_rfl rfl rfl
  | discard e => exact hpassed le_rfl rfl rfl
  | discardEnd => exact hpassed le_rfl rfl rfl

theorem move (h : Sparing m) (hconsistent : Consistent m) (hmove : Move m n) : Sparing n := by
  rcases hmove.work_or_same with (hbody | hjob | htask) | hsame
  · exact h.bodyMove hconsistent hbody
  · exact h.jobMove hjob
  · exact h.taskMove htask
  · exact h.mono hmove.extends fun b i => hsame.chances_le

end Sparing

end AssetLoading

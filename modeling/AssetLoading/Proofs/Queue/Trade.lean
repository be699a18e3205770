import AssetLoading.Proofs.Queue.Operations

/-! # What goes into the queue and what comes out

  Tasks enter the queue, are handed out to workers, come back and are finished at
  last, by any number of workers in any order. A log of these trades tells where
  each task has to be: what was pushed and is not finished either waits or is
  claimed, and not both. A task that is handed out is the one that was last put
  under its number, with everything a worker changed on it since.
-/

namespace AssetLoading

/-- One trade with the queue. -/
inductive QueueTrade where
  /-- A new task came in. -/
  | pushed (e : Entry)
  /-- A worker got a task. -/
  | handedOut (e : Entry)
  /-- A worker brought a task back. -/
  | returned (e : Entry)
  /-- A worker reported a task as done. -/
  | finished (id : Nat)

namespace QueueTrade

/-- The number of the task that came in. -/
def acceptedId : QueueTrade → Option Nat
  | pushed e => some e.id
  | _ => none

/-- The number of the task that is done. -/
def finishedId : QueueTrade → Option Nat
  | finished id => some id
  | _ => none

/-- The task that was put into the queue under a number. -/
def put (id : Nat) : QueueTrade → Option Entry
  | pushed e | returned e => if e.id = id then some e else none
  | _ => none

end QueueTrade

namespace TaskQueue

variable {q : TaskQueue} {log : List QueueTrade}

/-- The numbers of the tasks that came in, newest first. -/
def accepted (log : List QueueTrade) : List Nat :=
  log.filterMap QueueTrade.acceptedId

/-- The numbers of the tasks that are done. -/
def finishedIds (log : List QueueTrade) : List Nat :=
  log.filterMap QueueTrade.finishedId

/-- The task that was put last under a number. -/
def lastPut (id : Nat) (log : List QueueTrade) : Option Entry :=
  log.findSome? (QueueTrade.put id)

/-- The numbers in the queue: those that wait and those that are claimed. -/
def ids (q : TaskQueue) : List Nat :=
  q.pending.map (·.id) ++ q.active.map Claimed.id

/-- The queues that come about by trading, with the log of the trades, the newest
first. Which jobs are finished may be different at each claim, and a worker may
bring back a task in any form as long as its number is claimed. -/
inductive Traded : TaskQueue → List QueueTrade → Prop where
  | start : Traded {} []
  | push {q : TaskQueue} {log : List QueueTrade} (t : Task) (h : Traded q log) :
      Traded (q.push t).2 (.pushed (q.push t).1 :: log)
  | acquire {q q' : TaskQueue} {log : List QueueTrade} (finished : JobId → Bool) (e : Entry)
      (h : Traded q log) (he : q.acquire (·.isRunnable finished) = some (e, q')) :
      Traded q' (.handedOut e :: log)
  | giveBack {q : TaskQueue} {log : List QueueTrade} (e : Entry) (h : Traded q log)
      (he : e.id ∈ q.active.map Claimed.id) : Traded (q.giveBack e) (.returned e :: log)
  | finish {q : TaskQueue} {log : List QueueTrade} (id : Nat) (h : Traded q log)
      (hid : id ∈ q.active.map Claimed.id) : Traded (q.finish id) (.finished id :: log)

/-- The queue is what its log says. -/
structure AgreesWith (q : TaskQueue) (log : List QueueTrade) : Prop where
  /-- No number is given out twice. -/
  fresh : (accepted log).Nodup
  /-- Numbers are given out in order. -/
  bounded : ∀ id ∈ accepted log, id ≤ q.lastId
  /-- Every task that came in is in one place. -/
  places : (q.ids ++ finishedIds log).Perm (accepted log)
  /-- A waiting task is the one that was put last under its number. -/
  latest : ∀ e ∈ q.pending, lastPut e.id log = some e
  /-- Every task that came in is counted. -/
  total : q.total = (accepted log).length
  /-- Every task that is done is counted. -/
  completed : q.completed = (finishedIds log).length

namespace AgreesWith

theorem start : AgreesWith {} [] where
  fresh := List.nodup_nil
  bounded := by simp [accepted]
  places := List.Perm.refl _
  latest := by simp
  total := rfl
  completed := rfl

/-- No number is in the queue twice. -/
theorem nodup_ids (h : q.AgreesWith log) : q.ids.Nodup :=
  (List.nodup_append.1 (h.places.nodup_iff.2 h.fresh)).1

theorem lastPut_of_ne {e : Entry} {trade : QueueTrade} {id : Nat}
    (htrade : trade = .pushed e ∨ trade = .returned e) (hid : e.id ≠ id) :
    lastPut id (trade :: log) = lastPut id log := by
  rcases htrade with rfl | rfl <;> simp [lastPut, QueueTrade.put, hid]

/-- A new task gets a number of its own and waits. -/
theorem push (h : q.AgreesWith log) (t : Task) :
    (q.push t).2.AgreesWith (.pushed (q.push t).1 :: log) := by
  obtain ⟨front, back, hpending, -, hpush⟩ := q.push_pending t
  have hnew : q.lastId + 1 ∉ accepted log := by
    intro hin
    have := h.bounded _ hin
    omega
  -- The new number comes from nowhere; all others stay where they are.
  have hids : (q.push t).2.ids.Perm ((q.lastId + 1) :: q.ids) := by
    unfold ids
    rw [hpush, hpending]
    simp only [List.map_append, List.map_cons, List.append_assoc, List.cons_append]
    exact List.perm_middle
  constructor
  · exact List.nodup_cons.2 ⟨hnew, h.fresh⟩
  · intro id hid
    rcases List.mem_cons.1 hid with rfl | hold
    · exact Nat.le_refl _
    · exact Nat.le_succ_of_le (h.bounded id hold)
  · have hplaces := (hids.append_right (finishedIds log)).trans (h.places.cons (q.lastId + 1))
    exact hplaces
  · intro e he
    rw [hpush] at he
    have hcases : e = (q.push t).1 ∨ e ∈ q.pending := by
      rw [hpending]
      simp only [List.mem_append, List.mem_cons] at he ⊢
      tauto
    rcases hcases with rfl | hold
    · simp [lastPut, QueueTrade.put]
    · have hin : e.id ∈ accepted log := by
        apply h.places.subset
        simp only [ids, List.mem_append, List.mem_map]
        exact .inl (.inl ⟨e, hold, rfl⟩)
      have hne : (q.push t).1.id ≠ e.id := by
        intro heq
        apply hnew
        rw [← heq] at hin
        exact hin
      rw [lastPut_of_ne (.inl rfl) hne]
      exact h.latest e hold
  · show q.total + 1 = (accepted log).length + 1
    rw [h.total]
  · exact h.completed

/-- A claimed task changes its place within the queue. -/
theorem acquire (h : q.AgreesWith log) {runnable : Entry → Bool} {e : Entry} {q' : TaskQueue}
    (he : q.acquire runnable = some (e, q')) : q'.AgreesWith (.handedOut e :: log) := by
  obtain ⟨front, back, hpending, -, -, rfl⟩ := acquire_eq_some he
  have hids : (ids { q with pending := front ++ back, active := e.claim :: q.active }).Perm
      q.ids := by
    unfold ids
    rw [hpending]
    simp only [List.map_append, List.map_cons, List.append_assoc, List.cons_append]
    apply List.Perm.append_left
    exact List.perm_middle
  constructor
  · exact h.fresh
  · exact h.bounded
  · exact (hids.append_right _).trans h.places
  · intro a ha
    apply h.latest
    rw [hpending]
    simp only [List.mem_append, List.mem_cons] at ha ⊢
    tauto
  · exact h.total
  · exact h.completed

/-- A claimed number is the only one that leaves the claimed tasks. -/
theorem active_perm (h : q.AgreesWith log) {id : Nat} (hid : id ∈ q.active.map Claimed.id) :
    (q.active.map Claimed.id).Perm (id :: (without q.active id).map Claimed.id) := by
  obtain ⟨c, hc, rfl⟩ := List.mem_map.1 hid
  have hactive := (List.nodup_append.1 h.nodup_ids).2.1
  exact (perm_without hactive hc).map Claimed.id

/-- A claimed task that comes back waits again. -/
theorem giveBack (h : q.AgreesWith log) {e : Entry} (he : e.id ∈ q.active.map Claimed.id) :
    (q.giveBack e).AgreesWith (.returned e :: log) := by
  have hids : (q.giveBack e).ids.Perm q.ids := by
    have hactive := (h.active_perm he).symm
    have hmoved := List.perm_middle.symm.trans (hactive.append_left (q.pending.map (·.id)))
    exact hmoved
  constructor
  · exact h.fresh
  · exact h.bounded
  · exact (hids.append_right _).trans h.places
  · intro a ha
    rcases List.mem_cons.1 ha with rfl | hold
    · simp [lastPut, QueueTrade.put]
    · -- A waiting task is not claimed, so it is not the one that comes back.
      have hne : e.id ≠ a.id := by
        intro heq
        have hdisjoint := (List.nodup_append.1 h.nodup_ids).2.2
        have hwaits : a.id ∈ q.pending.map (·.id) := List.mem_map_of_mem hold
        exact hdisjoint _ hwaits _ he heq.symm
      rw [lastPut_of_ne (.inr rfl) hne]
      exact h.latest a hold
  · exact h.total
  · exact h.completed

/-- A claimed task that is done leaves the queue. -/
theorem finish (h : q.AgreesWith log) {id : Nat} (hid : id ∈ q.active.map Claimed.id) :
    (q.finish id).AgreesWith (.finished id :: log) := by
  have hids : q.ids.Perm (id :: (q.finish id).ids) := by
    have hactive := (h.active_perm hid).append_left (q.pending.map (·.id))
    exact hactive.trans List.perm_middle
  constructor
  · exact h.fresh
  · exact h.bounded
  · have hmoved : ((q.finish id).ids ++ id :: finishedIds log).Perm (q.ids ++ finishedIds log) :=
      List.perm_middle.trans (hids.symm.append_right (finishedIds log))
    exact hmoved.trans h.places
  · exact h.latest
  · exact h.total
  · show q.completed + 1 = (finishedIds log).length + 1
    rw [h.completed]

end AgreesWith

theorem Traded.agreesWith (h : Traded q log) : q.AgreesWith log := by
  induction h with
  | start => exact .start
  | push t _ ih => exact ih.push t
  | acquire _ _ _ he ih => exact ih.acquire he
  | giveBack _ _ he ih => exact ih.giveBack he
  | finish _ _ hid ih => exact ih.finish hid

/-- Nothing is handed out exactly if no waiting task can make progress. -/
theorem acquire_eq_none {runnable : Entry → Bool} :
    q.acquire runnable = none ↔ ∀ e ∈ q.pending, runnable e = false := by
  have hfind : q.acquire runnable = none ↔ q.pending.find? runnable = none := by
    unfold TaskQueue.acquire
    cases q.pending.find? runnable <;> simp
  rw [hfind, List.find?_eq_none]
  simp

/-- No task is lost or duplicated by trading with the queue. Numbers are never
reused, and every number given out is in one place: it waits, is claimed or is
done. The first waiting task that can make progress is handed out, as it was last
put under its number, and the others stay in order. -/
theorem no_task_lost (h : Traded q log) :
    (accepted log).Nodup ∧
      (q.pending.map (·.id) ++ q.active.map Claimed.id ++ finishedIds log).Nodup ∧
      (q.pending.map (·.id) ++ q.active.map Claimed.id ++ finishedIds log).Perm (accepted log) ∧
      q.total = q.completed + q.pending.length + q.active.length ∧
      ∀ finished : JobId → Bool,
        (q.acquire (·.isRunnable finished) = none ↔
          ∀ e ∈ q.pending, e.isRunnable finished = false) ∧
        ∀ e q', q.acquire (·.isRunnable finished) = some (e, q') →
          lastPut e.id log = some e ∧
          ∃ front back, q.pending = front ++ e :: back ∧ e.isRunnable finished = true ∧
            (∀ a ∈ front, a.isRunnable finished = false) ∧
            q' = { q with pending := front ++ back, active := e.claim :: q.active } := by
  have hagrees := h.agreesWith
  -- every accepted number is pending, claimed or finished, and just one of these
  have hcount : q.total = q.completed + q.pending.length + q.active.length := by
    have hlength := hagrees.places.length_eq
    simp only [ids, List.length_append, List.length_map] at hlength
    rw [hagrees.total, hagrees.completed]
    omega
  refine ⟨hagrees.fresh, hagrees.places.nodup_iff.2 hagrees.fresh, hagrees.places, hcount, ?_⟩
  intro finished
  constructor
  · exact acquire_eq_none
  · intro e q' he
    obtain ⟨front, back, hpending, hruns, hfront, hq⟩ := acquire_eq_some he
    have hwaits : e ∈ q.pending := by
      rw [hpending]
      exact List.mem_append_right front List.mem_cons_self
    exact ⟨hagrees.latest e hwaits, front, back, hpending, hruns, hfront, hq⟩

/-- A task of two actions on the GPU thread. -/
def twoOnGpu (asset : Handle) : Task where
  asset := asset
  body := asset
  affinities := [.gpu, .gpu]
  priority := 0
  complexity := 0

/-- Two workers: the first handed its action over as a job and gave its task back,
the second has the other task. -/
def handedOver : TaskQueue where
  pending := [{ twoOnGpu 5 with id := 1, job := some 9 }]
  active := [⟨2, 0, 6⟩]
  lastId := 2
  total := 2

theorem handedOver_traded : ∃ log, Traded handedOver log := by
  have hpushed := (Traded.start.push (twoOnGpu 5)).push (twoOnGpu 6)
  have hfirst := hpushed.acquire (fun _ => false) _ rfl
  have hback := hfirst.giveBack { twoOnGpu 5 with id := 1, job := some 9 } (by decide)
  exact ⟨_, hback.acquire (fun _ => false) _ rfl⟩

/-- While the job is not finished nothing is handed out, and then the task comes
out with its job. -/
theorem handedOver_loses_none :
    ∃ log, Traded handedOver log ∧ (accepted log).Nodup ∧
      handedOver.acquire (·.isRunnable fun _ => false) = none ∧
      lastPut 1 log = some { twoOnGpu 5 with id := 1, job := some 9 } := by
  obtain ⟨log, htraded⟩ := handedOver_traded
  obtain ⟨hfresh, -, -, -, hacquire⟩ := no_task_lost htraded
  have hnone := (hacquire fun _ => false).1.2 (by decide)
  have hlast := ((hacquire fun _ => true).2 _ _ rfl).1
  exact ⟨log, htraded, hfresh, hnone, hlast⟩

end TaskQueue

end AssetLoading

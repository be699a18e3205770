import AssetLoading.Proofs.Queue.Operations

/-! # The order of the waiting tasks

  The waiting tasks shall stand in order of urgency, and equally urgent ones in
  order of arrival. A task that was given back stands in front whatever its
  urgency, so the order can only be asked of tasks that were never claimed.

  A claim, a return and a completion keep this order. A new task is placed by
  bisection, which takes what it sees at a probed place for what it would see at
  every place in front or behind. A task that was never claimed does not mislead
  it, one that was given back can. So a new task keeps the order exactly if no
  probe for it lands on a task that was given back while a never claimed task
  stands on the wrong side of that one (`order_kept_iff_not_misled`), and in some
  queues a probe does (`order_can_be_lost`).
-/

namespace AssetLoading

/-- One task is to run before another: it is more urgent, or equally urgent and
arrived earlier. -/
def Entry.Precedes (a b : Entry) : Prop :=
  a.sort < b.sort ∨ a.sort = b.sort ∧ a.id < b.id

theorem Entry.Precedes.asymm {a b : Entry} (hab : a.Precedes b) : ¬ b.Precedes a := by
  intro hba
  rcases hab with hlt | ⟨heq, hid⟩
  · rcases hba with hgt | ⟨heq', -⟩
    · exact Int64.lt_asymm hlt hgt
    · rw [heq'] at hlt
      exact Int64.lt_irrefl hlt
  · rcases hba with hgt | ⟨-, hid'⟩
    · rw [heq] at hgt
      exact Int64.lt_irrefl hgt
    · omega

theorem Entry.Precedes.sort_le {a b : Entry} (hab : a.Precedes b) : a.sort ≤ b.sort := by
  rcases hab with hlt | ⟨heq, -⟩
  · exact Int64.le_of_lt hlt
  · exact Int64.le_of_eq heq

/-! ### Where bisection looks -/

namespace TaskQueue

/-- The places where bisection looks to find the place for a key. -/
def probesFor (pending : List Entry) (key : Int64) : List Nat :=
  probed (fun i => (pending[i]?).any fun e => e.sort ≤ key) pending.length

/-- A task at a probed place is at least as urgent exactly if it is in front of the
place that is found. -/
theorem sort_le_iff_of_probed {pending : List Entry} {key : Int64} {i : Nat}
    (hi : i ∈ probesFor pending key) {a : Entry} (ha : a ∈ pending[i]?) :
    a.sort ≤ key ↔ i < placeFor pending key := by
  have hprobe : _ ↔ i < placeFor pending key := holds_iff_lt_partitionPoint hi
  simpa [Option.mem_def.1 ha] using hprobe

end TaskQueue

/-- A task queue and the numbers of the tasks that were ever claimed. -/
structure WatchedQueue where
  /-- The queue. -/
  queue : TaskQueue := {}
  /-- Numbers of the tasks that were ever claimed. -/
  claimed : List Nat := []

namespace WatchedQueue

/-! ### What happens to a queue -/

/-- Accept a task. -/
def push (w : WatchedQueue) (t : Task) : WatchedQueue :=
  { w with queue := (w.queue.push t).2 }

/-- Note a claim. -/
def took (w : WatchedQueue) (e : Entry) (queue : TaskQueue) : WatchedQueue :=
  { queue, claimed := e.id :: w.claimed }

/-- Put a claimed task back to the front. -/
def giveBack (w : WatchedQueue) (e : Entry) : WatchedQueue :=
  { w with queue := w.queue.giveBack e }

/-- Mark a task as completed. -/
def finish (w : WatchedQueue) (id : Nat) : WatchedQueue :=
  { w with queue := w.queue.finish id }

/-- The queues that come about when new tasks are accepted on a condition. Which
jobs are finished may be different at each claim, and a claimed task may come
back with another cost estimate, at another action and with another job. -/
inductive Reached (ok : WatchedQueue → Task → Prop) : WatchedQueue → Prop where
  | start : Reached ok {}
  | push {w : WatchedQueue} (t : Task) (hw : Reached ok w) (ht : ok w t) : Reached ok (w.push t)
  | acquire {w : WatchedQueue} (finished : JobId → Bool) (e : Entry) (queue : TaskQueue)
      (hw : Reached ok w) (he : w.queue.acquire (·.isRunnable finished) = some (e, queue)) :
      Reached ok (w.took e queue)
  | giveBack {w : WatchedQueue} (e : Entry) (hw : Reached ok w)
      (he : e.id ∈ w.queue.active.map Claimed.id) : Reached ok (w.giveBack e)
  | finish {w : WatchedQueue} (id : Nat) (hw : Reached ok w)
      (hid : id ∈ w.queue.active.map Claimed.id) : Reached ok (w.finish id)

/-! ### The order -/

/-- The task was never claimed. -/
def Fresh (w : WatchedQueue) (e : Entry) : Prop :=
  e.id ∉ w.claimed

instance (w : WatchedQueue) (e : Entry) : Decidable (w.Fresh e) :=
  inferInstanceAs (Decidable (e.id ∉ w.claimed))

/-- The tasks that were never claimed stand in the order in which they are to run. -/
def Ordered (w : WatchedQueue) : Prop :=
  w.queue.pending.Pairwise fun a b => w.Fresh a → w.Fresh b → a.Precedes b

/-- A task that was never claimed is not handed out while another one could run
that is to run before it. -/
def HandsOutInOrder (w : WatchedQueue) : Prop :=
  ∀ (finished : JobId → Bool) (e : Entry) (queue : TaskQueue),
    w.queue.acquire (·.isRunnable finished) = some (e, queue) → w.Fresh e →
      ∀ a ∈ w.queue.pending, w.Fresh a → a.isRunnable finished = true → ¬ a.Precedes e

/-- A place is right for a key: of the tasks that were never claimed, those in front
are at least as urgent and those behind are less urgent. -/
def DividedAt (w : WatchedQueue) (key : Int64) (place : Nat) : Prop :=
  (∀ e ∈ w.queue.pending.take place, w.Fresh e → e.sort ≤ key) ∧
    ∀ e ∈ w.queue.pending.drop place, w.Fresh e → key < e.sort

/-- No task that was given back misleads bisection. Bisection goes on behind a probed
task that is at least as urgent as the new one, so no less urgent never claimed task
may be in front of it; and it goes on in front of a probed task that is less urgent,
so no never claimed task behind it may be at least as urgent as the new one. -/
def NotMisled (w : WatchedQueue) (t : Task) : Prop :=
  ∀ i ∈ TaskQueue.probesFor w.queue.pending t.sort, ∀ a ∈ w.queue.pending[i]?, ¬ w.Fresh a →
    (a.sort ≤ t.sort → ∀ e ∈ w.queue.pending.take i, w.Fresh e → e.sort ≤ t.sort) ∧
    (t.sort < a.sort → ∀ e ∈ w.queue.pending.drop (i + 1), w.Fresh e → t.sort < e.sort)

instance (w : WatchedQueue) (t : Task) : Decidable (w.NotMisled t) :=
  inferInstanceAs (Decidable (∀ i ∈ _, ∀ a ∈ w.queue.pending[i]?, _ → _ ∧ _))

/-- The queue has used no number beyond its last one, and its claimed tasks were
claimed at some time. -/
structure Numbered (w : WatchedQueue) : Prop where
  pending : ∀ e ∈ w.queue.pending, e.id ≤ w.queue.lastId
  claimed : ∀ id ∈ w.claimed, id ≤ w.queue.lastId
  active : ∀ c ∈ w.queue.active, c.id ∈ w.claimed

theorem Numbered.start : Numbered {} where
  pending := by simp
  claimed := by simp
  active := by simp

theorem Numbered.push {w : WatchedQueue} (hw : w.Numbered) (t : Task) : (w.push t).Numbered where
  pending := by
    obtain ⟨front, back, hpending, -, hpush⟩ := w.queue.push_pending t
    intro e he
    show e.id ≤ w.queue.lastId + 1
    have hmem : e ∈ front ++ (w.queue.push t).1 :: back := hpush ▸ he
    simp only [List.mem_append, List.mem_cons] at hmem
    have hold (h : e ∈ front ∨ e ∈ back) : e.id ≤ w.queue.lastId := by
      apply hw.pending
      rw [hpending]
      simpa using h
    rcases hmem with hfront | rfl | hback
    · have := hold (.inl hfront)
      omega
    · exact Nat.le_refl _
    · have := hold (.inr hback)
      omega
  claimed := by
    intro id hid
    have := hw.claimed id hid
    show id ≤ w.queue.lastId + 1
    omega
  active := hw.active

theorem Numbered.took {w : WatchedQueue} (hw : w.Numbered) {finished : JobId → Bool} {e : Entry}
    {queue : TaskQueue} (he : w.queue.acquire (·.isRunnable finished) = some (e, queue)) :
    (w.took e queue).Numbered := by
  obtain ⟨front, back, hpending, -, -, rfl⟩ := TaskQueue.acquire_eq_some he
  constructor
  · intro a ha
    apply hw.pending
    rw [hpending]
    simp only [WatchedQueue.took, List.mem_append] at ha
    rcases ha with hfront | hback
    · simp [hfront]
    · simp [hback]
  · intro id hid
    simp only [WatchedQueue.took, List.mem_cons] at hid
    rcases hid with rfl | hold
    · apply hw.pending
      simp [hpending]
    · exact hw.claimed id hold
  · intro c hc
    simp only [WatchedQueue.took, List.mem_cons] at hc ⊢
    rcases hc with rfl | hold
    · exact .inl rfl
    · exact .inr (hw.active c hold)

theorem mem_of_mem_without {active : List Claimed} {id : Nat} {c : Claimed}
    (hc : c ∈ TaskQueue.without active id) : c ∈ active :=
  List.mem_of_mem_eraseP hc

/-- A task that is claimed was claimed at some time. -/
theorem Numbered.mem_claimed {w : WatchedQueue} (hw : w.Numbered) {id : Nat}
    (hid : id ∈ w.queue.active.map Claimed.id) : id ∈ w.claimed := by
  obtain ⟨c, hc, rfl⟩ := List.mem_map.1 hid
  exact hw.active c hc

theorem Numbered.giveBack {w : WatchedQueue} (hw : w.Numbered) {e : Entry}
    (he : e.id ∈ w.queue.active.map Claimed.id) : (w.giveBack e).Numbered where
  pending := by
    intro a ha
    simp only [WatchedQueue.giveBack, TaskQueue.giveBack, List.mem_cons] at ha ⊢
    rcases ha with rfl | hold
    · exact hw.claimed _ (hw.mem_claimed he)
    · exact hw.pending a hold
  claimed := hw.claimed
  active := by
    intro c hc
    exact hw.active c (mem_of_mem_without hc)

theorem Numbered.finish {w : WatchedQueue} (hw : w.Numbered) (id : Nat) :
    (w.finish id).Numbered where
  pending := hw.pending
  claimed := hw.claimed
  active := by
    intro c hc
    exact hw.active c (mem_of_mem_without hc)

theorem Reached.numbered {ok : WatchedQueue → Task → Prop} {w : WatchedQueue}
    (hw : Reached ok w) : w.Numbered := by
  induction hw with
  | start => exact .start
  | push t _ _ ih => exact ih.push t
  | acquire _ _ _ _ he ih => exact ih.took he
  | giveBack _ _ he ih => exact ih.giveBack he
  | finish id _ _ ih => exact ih.finish id

/-! ### What keeps the order -/

/-- A new task keeps the order exactly if bisection finds the right place for it. -/
theorem ordered_push_iff {w : WatchedQueue} (hw : w.Numbered) (hordered : w.Ordered) (t : Task) :
    (w.push t).Ordered ↔
      w.DividedAt t.sort (TaskQueue.placeFor w.queue.pending t.sort) := by
  obtain ⟨front, back, hpending, hlength, hpush⟩ := w.queue.push_pending t
  have hfront : w.queue.pending.take (TaskQueue.placeFor w.queue.pending t.sort) = front := by
    rw [← hlength, hpending, List.take_left]
  have hback : w.queue.pending.drop (TaskQueue.placeFor w.queue.pending t.sort) = back := by
    rw [← hlength, hpending, List.drop_left]
  have hnew : w.Fresh (w.queue.push t).1 := by
    intro hid
    have hle : w.queue.lastId + 1 ≤ w.queue.lastId := hw.claimed _ hid
    omega
  -- The new task has the largest number, so among equally urgent ones it comes last.
  have hbefore (e : Entry) (he : e ∈ w.queue.pending) :
      e.Precedes (w.queue.push t).1 ↔ e.sort ≤ t.sort := by
    have hid : e.id < (w.queue.push t).1.id := Nat.lt_succ_of_le (hw.pending e he)
    show e.sort < t.sort ∨ e.sort = t.sort ∧ _ ↔ _
    rw [Int64.le_iff_lt_or_eq]
    simp [hid]
  have hbehind (e : Entry) (he : e ∈ w.queue.pending) :
      (w.queue.push t).1.Precedes e ↔ t.sort < e.sort := by
    have hid : ¬ (w.queue.push t).1.id < e.id := Nat.not_lt.2 (Nat.le_succ_of_le (hw.pending e he))
    show t.sort < e.sort ∨ t.sort = e.sort ∧ _ ↔ _
    simp [hid]
  unfold DividedAt
  rw [hfront, hback]
  unfold Ordered at hordered ⊢
  rw [hpending, List.pairwise_append] at hordered
  obtain ⟨hordFront, hordBack, hordAcross⟩ := hordered
  show List.Pairwise _ (w.queue.push t).2.pending ↔ _
  rw [hpush, List.pairwise_append, List.pairwise_cons]
  constructor
  · rintro ⟨-, ⟨hb, -⟩, hf⟩
    constructor
    · intro e he hfresh
      have hmem : e ∈ w.queue.pending := by simp [hpending, he]
      exact (hbefore e hmem).1 (hf e he _ List.mem_cons_self hfresh hnew)
    · intro e he hfresh
      have hmem : e ∈ w.queue.pending := by simp [hpending, he]
      exact (hbehind e hmem).1 (hb e he hnew hfresh)
  · rintro ⟨hf, hb⟩
    have hnewBack : ∀ e ∈ back, w.Fresh (w.queue.push t).1 → w.Fresh e →
        (w.queue.push t).1.Precedes e := by
      intro e he _ hfresh
      have hmem : e ∈ w.queue.pending := by simp [hpending, he]
      exact (hbehind e hmem).2 (hb e he hfresh)
    have hfrontNew : ∀ e ∈ front, w.Fresh e → e.Precedes (w.queue.push t).1 := by
      intro e he hfresh
      have hmem : e ∈ w.queue.pending := by simp [hpending, he]
      exact (hbefore e hmem).2 (hf e he hfresh)
    have hacross : ∀ a ∈ front, ∀ b ∈ (w.queue.push t).1 :: back, w.Fresh a → w.Fresh b →
        a.Precedes b := by
      intro a ha b hb hfa hfb
      rcases List.mem_cons.1 hb with rfl | hb
      · exact hfrontNew a ha hfa
      · exact hordAcross a ha b hb hfa hfb
    exact ⟨hordFront, ⟨hnewBack, hordBack⟩, hacross⟩

/-- A claim keeps the order: one task leaves, and one more counts as claimed. -/
theorem Ordered.took {w : WatchedQueue} (hw : w.Ordered) {finished : JobId → Bool} {e : Entry}
    {queue : TaskQueue} (he : w.queue.acquire (·.isRunnable finished) = some (e, queue)) :
    (w.took e queue).Ordered := by
  obtain ⟨front, back, hpending, -, -, rfl⟩ := TaskQueue.acquire_eq_some he
  have hsub : (front ++ back).Sublist w.queue.pending := by
    rw [hpending]
    exact List.Sublist.append_left (List.sublist_cons_self e back) front
  have hfresh (a : Entry) (ha : (w.took e { w.queue with
      pending := front ++ back, active := e.claim :: w.queue.active }).Fresh a) : w.Fresh a := by
    intro hid
    exact ha (List.mem_cons_of_mem _ hid)
  have hkept := List.Pairwise.sublist hsub hw
  apply List.Pairwise.imp _ hkept
  intro a b hab ha hb
  exact hab (hfresh a ha) (hfresh b hb)

/-- A return keeps the order: the task that stands in front was claimed. -/
theorem Ordered.giveBack {w : WatchedQueue} (hw : w.Ordered) {e : Entry} (he : e.id ∈ w.claimed) :
    (w.giveBack e).Ordered := by
  have hfirst : ∀ a ∈ w.queue.pending, w.Fresh e → w.Fresh a → e.Precedes a := by
    intro a _ hfresh
    exact absurd he hfresh
  exact List.pairwise_cons.2 ⟨hfirst, hw⟩

/-- In an ordered queue the first task that can run is the one that is to run first. -/
theorem Ordered.handsOutInOrder {w : WatchedQueue} (hw : w.Ordered) : w.HandsOutInOrder := by
  intro finished e queue hacquire he a ha hfresh hruns hprecedes
  obtain ⟨front, back, hpending, -, hfront, -⟩ := TaskQueue.acquire_eq_some hacquire
  unfold Ordered at hw
  rw [hpending, List.pairwise_append, List.pairwise_cons] at hw
  rw [hpending] at ha
  simp only [List.mem_append, List.mem_cons] at ha
  rcases ha with hin | rfl | hin
  · simp [hfront a hin] at hruns
  · exact hprecedes.asymm hprecedes
  · have hea : e.Precedes a := hw.2.1.1 a hin he hfresh
    exact hprecedes.asymm hea

/-! ### When bisection finds the right place -/

/-- A place that divides the never claimed tasks fits every probe. -/
theorem DividedAt.notMisled {w : WatchedQueue} {t : Task}
    (hw : w.DividedAt t.sort (TaskQueue.placeFor w.queue.pending t.sort)) : w.NotMisled t := by
  intro i hi a ha _
  have hside := TaskQueue.sort_le_iff_of_probed hi ha
  constructor
  · intro hle e he
    have hplace := Nat.le_of_lt (hside.1 hle)
    exact hw.1 e (List.take_subset_take_left _ hplace he)
  · intro hlt e he
    have hplace := Nat.le_of_not_lt (mt hside.2 (Int64.not_le.2 hlt))
    exact hw.2 e (List.drop_subset_drop_left _ (Nat.le_succ_of_le hplace) he)

/-- A probed task that is at least as urgent as the new one tells that all the never
claimed tasks up to it are. -/
theorem NotMisled.upTo {w : WatchedQueue} {t : Task} (ht : w.NotMisled t) (hw : w.Ordered) {i : Nat}
    (hi : i ∈ TaskQueue.probesFor w.queue.pending t.sort) {a : Entry} (ha : a ∈ w.queue.pending[i]?)
    (hsort : a.sort ≤ t.sort) :
    ∀ e ∈ w.queue.pending.take (i + 1), w.Fresh e → e.sort ≤ t.sort := by
  intro e he hfresh
  obtain ⟨hlt, hget⟩ := List.getElem?_eq_some_iff.1 ha
  rw [List.take_succ_eq_append_getElem hlt, hget, List.mem_append, List.mem_singleton] at he
  rcases he with hfront | rfl
  · by_cases hnew : w.Fresh a
    · have hback : a ∈ w.queue.pending.drop i := by
        rw [List.drop_eq_getElem_cons hlt, hget]
        exact List.mem_cons_self
      unfold Ordered at hw
      rw [← List.take_append_drop i w.queue.pending, List.pairwise_append] at hw
      exact Int64.le_trans (hw.2.2 e hfront a hback hfresh hnew).sort_le hsort
    · exact (ht i hi a ha hnew).1 hsort e hfront hfresh
  · exact hsort

/-- A probed task that is less urgent than the new one tells that all the never claimed
tasks from it on are. -/
theorem NotMisled.onward {w : WatchedQueue} {t : Task} (ht : w.NotMisled t) (hw : w.Ordered)
    {i : Nat} (hi : i ∈ TaskQueue.probesFor w.queue.pending t.sort) {a : Entry}
    (ha : a ∈ w.queue.pending[i]?) (hsort : t.sort < a.sort) :
    ∀ e ∈ w.queue.pending.drop i, w.Fresh e → t.sort < e.sort := by
  intro e he hfresh
  obtain ⟨hlt, hget⟩ := List.getElem?_eq_some_iff.1 ha
  have hdrop : w.queue.pending.drop i = a :: w.queue.pending.drop (i + 1) := by
    rw [List.drop_eq_getElem_cons hlt, hget]
  rw [hdrop] at he
  rcases List.mem_cons.1 he with rfl | hback
  · exact hsort
  · by_cases hnew : w.Fresh a
    · have hfrom : (w.queue.pending.drop i).Pairwise _ :=
        List.Pairwise.sublist (List.drop_sublist i _) hw
      rw [hdrop, List.pairwise_cons] at hfrom
      exact Int64.lt_of_lt_of_le hsort (hfrom.1 e hback hnew hfresh).sort_le
    · exact (ht i hi a ha hnew).2 hsort e hback hfresh

/-- If no probe misleads, the place found is right: the tasks on both sides of it were
probed. -/
theorem NotMisled.dividedAt {w : WatchedQueue} {t : Task} (ht : w.NotMisled t) (hw : w.Ordered) :
    w.DividedAt t.sort (TaskQueue.placeFor w.queue.pending t.sort) := by
  have hle := TaskQueue.placeFor_le w.queue.pending t.sort
  constructor
  · cases hplace : TaskQueue.placeFor w.queue.pending t.sort with
    | zero => simp
    | succ i =>
      have hprobe : TaskQueue.placeFor w.queue.pending t.sort - 1 ∈ _ :=
        pred_partitionPoint_mem_probed (Nat.lt_of_lt_of_eq (Nat.succ_pos i) hplace.symm)
      rw [hplace, Nat.add_sub_cancel] at hprobe
      have hlast : w.queue.pending[i] ∈ w.queue.pending[i]? := List.getElem?_eq_getElem (by omega)
      have hsort := (TaskQueue.sort_le_iff_of_probed hprobe hlast).2 (by omega)
      exact ht.upTo hw hprobe hlast hsort
  · rcases Nat.lt_or_eq_of_le hle with hlt | hend
    · have hprobe := partitionPoint_mem_probed hlt
      have hfirst := List.getElem?_eq_getElem hlt
      have hsort := mt (TaskQueue.sort_le_iff_of_probed hprobe hfirst).1 (Nat.lt_irrefl _)
      exact ht.onward hw hprobe hfirst (Int64.not_le.1 hsort)
    · rw [hend, List.drop_length]
      intro e he
      cases he

/-- A new task keeps the order exactly if no task that was given back misleads
bisection. -/
theorem Ordered.push_iff {w : WatchedQueue} (hordered : w.Ordered) (hw : w.Numbered) (t : Task) :
    (w.push t).Ordered ↔ w.NotMisled t := by
  rw [ordered_push_iff hw hordered]
  exact ⟨DividedAt.notMisled, fun ht => ht.dividedAt hordered⟩

/-- While no claimed task is back in the queue, nothing misleads bisection. -/
theorem notMisled_of_fresh {w : WatchedQueue} (hfresh : ∀ e ∈ w.queue.pending, w.Fresh e)
    (t : Task) : w.NotMisled t := by
  intro i _ a ha hback
  exact absurd (hfresh a (List.mem_of_getElem? ha)) hback

/-! ### The law -/

theorem Reached.ordered {w : WatchedQueue} (hw : Reached NotMisled w) : w.Ordered := by
  induction hw with
  | start => exact List.Pairwise.nil
  | push t hw ht ih => exact (ih.push_iff hw.numbered t).2 ht
  | acquire _ _ _ _ he ih => exact ih.took he
  | giveBack _ hw he ih => exact ih.giveBack (hw.numbered.mem_claimed he)
  | finish _ _ _ ih => exact ih

/-- As long as no task that was given back misleads bisection, the tasks that were
never claimed stand in order and are handed out in order, and the next new task keeps
the order exactly if bisection is not misled for it, either. -/
theorem order_kept_iff_not_misled {w : WatchedQueue} (hw : Reached NotMisled w) :
    w.Ordered ∧ w.HandsOutInOrder ∧ ∀ t, (w.push t).Ordered ↔ w.NotMisled t := by
  have hordered := hw.ordered
  exact ⟨hordered, hordered.handsOutInOrder, hordered.push_iff hw.numbered⟩

/-- A task that waits for two worker actions. -/
def twoActions (complexity : Int32) : Task where
  asset := 0
  body := 0
  affinities := [.worker, .worker]
  priority := 0
  complexity := complexity

/-- A costly task was claimed, a cheap one arrived, and the costly one came back
and stands in front of it. -/
def costlyInFront : WatchedQueue where
  queue := {
    pending := [{ twoActions 100 with id := 1, cursor := 1 }, { twoActions 1 with id := 2 }]
    lastId := 2
    total := 2 }
  claimed := [1]

theorem costlyInFront_reached {ok : WatchedQueue → Task → Prop}
    (hempty : ∀ v t, v.queue.pending = [] → ok v t) : Reached ok costlyInFront := by
  have hpushed := Reached.start.push (twoActions 100) (hempty _ _ rfl)
  have hclaimed := hpushed.acquire (fun _ => false) _ _ rfl
  have hcheap := hclaimed.push (twoActions 1) (hempty _ _ rfl)
  exact hcheap.giveBack { twoActions 100 with id := 1, cursor := 1 } (by decide)

/-- A task cheaper than both has arrived: the costly one stands between two that were
never claimed. -/
def costlyBetween : WatchedQueue :=
  costlyInFront.push (twoActions 0)

theorem costlyBetween_reached : Reached NotMisled costlyBetween := by
  have hcostly : Reached NotMisled costlyInFront :=
    costlyInFront_reached fun v t hv => notMisled_of_fresh (by simp [hv]) t
  exact hcostly.push (twoActions 0) (by decide)

/-- A task dearer than all keeps the order of such a queue. One that is cheaper than the
costly task and dearer than the task behind it does not. -/
theorem costlyBetween_keeps_order :
    Reached NotMisled costlyBetween ∧ costlyBetween.Ordered ∧ costlyBetween.HandsOutInOrder ∧
      (costlyBetween.push (twoActions 200)).Ordered ∧
      ¬ (costlyBetween.push (twoActions 3)).Ordered := by
  have hreached := costlyBetween_reached
  obtain ⟨hordered, hinOrder, hpush⟩ := order_kept_iff_not_misled hreached
  exact ⟨hreached, hordered, hinOrder, (hpush _).2 (by decide), mt (hpush _).1 (by decide)⟩

/-- Two more tasks have arrived. The first is cheaper than the one that waits, and
was claimed. The second is dearer, but bisection probed the costly task and put it
in front of both. -/
def dearerInFront : WatchedQueue where
  queue := {
    pending := [{ twoActions 3 with id := 4 }, { twoActions 100 with id := 1, cursor := 1 },
      { twoActions 1 with id := 2 }]
    active := [⟨3, 0, 0⟩]
    lastId := 4
    total := 4 }
  claimed := [3, 1]

/-- When new tasks are placed by bisection alone, the order can be lost. -/
theorem order_can_be_lost :
    Reached (fun _ _ => True) dearerInFront ∧ ¬ dearerInFront.Ordered ∧
      ¬ dearerInFront.HandsOutInOrder := by
  have hcostly : Reached (fun _ _ => True) costlyInFront :=
    costlyInFront_reached fun _ _ _ => trivial
  have hpushed := (hcostly.push (twoActions 0) trivial).push (twoActions 3) trivial
  have hreached : Reached _ dearerInFront := hpushed.acquire (fun _ => false) _ _ rfl
  have hlost : ¬ dearerInFront.HandsOutInOrder := by
    intro hinOrder
    have hnot := hinOrder (fun _ => false) _ _ rfl (by decide) { twoActions 1 with id := 2 }
    have hwaits : { twoActions 1 with id := 2 } ∈ dearerInFront.queue.pending := by
      simp [dearerInFront]
    have hcheaper : (twoActions 1).sort < (twoActions 3).sort := by decide
    exact hnot hwaits (by decide) rfl (.inl hcheaper)
  exact ⟨hreached, fun hordered => hlost hordered.handsOutInOrder, hlost⟩

end WatchedQueue

end AssetLoading

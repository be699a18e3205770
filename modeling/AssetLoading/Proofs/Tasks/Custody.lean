import AssetLoading.Proofs.Queue.Operations
import AssetLoading.Proofs.Run.Reached

/-! # Custody of claimed tasks

  The queue remembers which tasks are claimed, but the tasks themselves are with
  whoever claimed them: under a label of the client, or in the hands of running
  code. The two views agree. Every number is in use once, every task in
  somebody's hands is among the claimed ones, and no task is in two hands.

  A client may lose a task that it claimed, by putting another one under the same
  label; the queue still counts the lost one as claimed.
-/

namespace AssetLoading

/-! ### Tables -/

/-- What is found under a key, and then what is left without the key, was all in
the table. -/
theorem Table.subperm_of_lookup {κ α β : Type} [DecidableEq κ] {t : Table κ α} {key : κ} {a : α}
    (f : α → β) (h : t.lookup key = some a) :
    (f a :: (t.remove key).map fun p => f p.2).Subperm (t.map fun p => f p.2) := by
  obtain ⟨front, back, rfl, -⟩ := List.lookup_eq_some_iff.1 h
  have hremove : Table.remove (front ++ (key, a) :: back) key =
      Table.remove front key ++ Table.remove back key := by
    unfold Table.remove
    rw [List.filter_append, List.filter_cons_of_neg (by simp)]
  have hsub : (Table.remove front key ++ Table.remove back key).Sublist (front ++ back) :=
    List.filter_sublist.append List.filter_sublist
  rw [hremove]
  refine ((hsub.map fun p => f p.2).cons_cons (f a)).subperm.trans (List.Perm.subperm ?_)
  rw [List.map_append, List.map_append]
  exact List.perm_middle.symm

/-! ### Whose hands a task is in -/

/-- The claimed task that an activity has in hand. -/
def Activity.inHand : Activity → Option Claimed
  | claimed e | stepping e _ | concluding e _ | failing e | ending e | ended e => some e.claim
  | acting a _ _ | freeing a _ => a.inHand
  | _ => none

/-- The claimed tasks that the client has under labels. -/
def Client.inHand (c : Client) : List Claimed :=
  c.claims.map fun p => p.2.claim

/-- The claimed tasks that are in somebody's hands. -/
def Moment.hands (m : Moment) : List Claimed :=
  m.state.client.inHand ++ m.underWay.filterMap Activity.inHand

@[simp] theorem Activity.inHand_concluded (a : Activity) (ok : Bool) :
    (a.concluded ok).inHand = a.inHand := by
  cases a <;> rfl

@[simp] theorem Activity.inHand_freed (a : Activity) : a.freed.inHand = a.inHand := by
  cases a <;> rfl

@[simp] theorem filterMap_inHand_gained (holder : Holder) (h : Handle) (u : List Activity) :
    (gained holder h u).filterMap Activity.inHand = u.filterMap Activity.inHand := by
  cases holder <;> rfl

theorem Picks.filterMap_inHand {j : JobId} {u v : List Activity} (h : Picks j u v) :
    v.filterMap Activity.inHand = u.filterMap Activity.inHand := by
  cases h <;> rfl

/-- A task that running code takes up comes to the others in hand. -/
theorem hands_cons_perm (a : Activity) (u : List Activity) (s : State) :
    (⟨a :: u, s⟩ : Moment).hands.Perm (a.inHand.toList ++ (⟨u, s⟩ : Moment).hands) := by
  unfold Moment.hands
  cases ha : a.inHand with
  | none => simp [ha]
  | some c =>
    simp only [List.filterMap_cons, ha, Option.toList]
    exact List.perm_middle

/-- In whatever order claimed tasks are advanced, the same tasks are in hand. -/
theorem hands_exchange (es : List Entry) (e : Entry) (u : List Activity) (s : State) :
    (⟨.claimed e :: (es.map .claimed ++ u), s⟩ : Moment).hands.Perm
      (⟨es.map .claimed ++ .claimed e :: u, s⟩ : Moment).hands :=
  ((perm_exchange es e u).filterMap Activity.inHand).append_left _

/-! ### Moves that leave all tasks where they are -/

/-- The same tasks wait, are claimed and are in hand. -/
structure Moment.SameTasks (m n : Moment) : Prop where
  claims : n.state.client.claims = m.state.client.claims
  inHand : n.underWay.filterMap Activity.inHand = m.underWay.filterMap Activity.inHand
  pending : n.state.queue.pending = m.state.queue.pending
  active : n.state.queue.active = m.state.queue.active
  lastId : n.state.queue.lastId = m.state.queue.lastId

theorem hands_eq {u v : List Activity} {s t : State} (hc : t.client.claims = s.client.claims)
    (hu : v.filterMap Activity.inHand = u.filterMap Activity.inHand) :
    (⟨v, t⟩ : Moment).hands = (⟨u, s⟩ : Moment).hands := by
  show t.client.inHand ++ _ = s.client.inHand ++ _
  rw [Client.inHand, Client.inHand, hc, hu]

theorem Moment.SameTasks.hands {m n : Moment} (h : m.SameTasks n) : n.hands = m.hands :=
  hands_eq h.claims h.inHand

theorem filterMap_inHand_cons {a b : Activity} (h : b.inHand = a.inHand) (u : List Activity) :
    (b :: u).filterMap Activity.inHand = (a :: u).filterMap Activity.inHand := by
  rw [List.filterMap_cons, List.filterMap_cons, h]

theorem AssetMove.sameTasks {m n : Moment} (h : AssetMove m n) : m.SameTasks n := by
  cases h with
  | take holder h => exact ⟨rfl, filterMap_inHand_gained holder h _, rfl, rfl, rfl⟩
  | revive holder h => exact ⟨rfl, filterMap_inHand_gained holder h _, rfl, rfl, rfl⟩
  | drop holder h => exact ⟨rfl, (filterMap_inHand_gained holder h _).symm, rfl, rfl, rfl⟩
  | _ => exact ⟨rfl, rfl, rfl, rfl, rfl⟩

theorem BodyMove.sameTasks {m n : Moment} (h : BodyMove m n) : m.SameTasks n := by
  cases h with
  | actEnd a b i onGpu ok =>
    exact ⟨rfl, filterMap_inHand_cons (a.inHand_concluded ok) _, rfl, rfl, rfl⟩
  | actSkip a =>
    exact ⟨rfl, filterMap_inHand_cons (a.inHand_concluded false) _, rfl, rfl, rfl⟩
  | freeEnd a => exact ⟨rfl, filterMap_inHand_cons a.inHand_freed _, rfl, rfl, rfl⟩
  | freeSkip a => exact ⟨rfl, filterMap_inHand_cons a.inHand_freed _, rfl, rfl, rfl⟩
  | _ => exact ⟨rfl, rfl, rfl, rfl, rfl⟩

theorem JobMove.sameTasks {m n : Moment} (h : JobMove m n) : m.SameTasks n := by
  cases h with
  | start j hpick => exact ⟨rfl, hpick.filterMap_inHand, rfl, rfl, rfl⟩
  | skip j hpick => exact ⟨rfl, hpick.filterMap_inHand, rfl, rfl, rfl⟩
  | _ => exact ⟨rfl, rfl, rfl, rfl, rfl⟩

theorem NoticeMove.sameTasks {m n : Moment} (h : NoticeMove m n) : m.SameTasks n := by
  cases h <;> exact ⟨rfl, rfl, rfl, rfl, rfl⟩

theorem PlainMove.sameTasks {m n : Moment} (h : PlainMove m n) : m.SameTasks n := by
  cases h with
  | client c hc => exact ⟨hc, rfl, rfl, rfl, rfl⟩
  | _ => exact ⟨rfl, rfl, rfl, rfl, rfl⟩

/-! ### Custody -/

/-- The queue and the hands that tasks are in agree. -/
structure Custody (m : Moment) : Prop where
  /-- No number is in use twice. -/
  distinct :
    (m.state.queue.pending.map (·.id) ++ m.state.queue.active.map (·.id)).Nodup
  /-- All numbers were given out. -/
  bounded :
    ∀ id ∈ m.state.queue.pending.map (·.id) ++ m.state.queue.active.map (·.id),
      id ≤ m.state.queue.lastId
  /-- A task in hand is a claimed one. -/
  claimed : m.hands ⊆ m.state.queue.active
  /-- No task is in two hands. -/
  single : m.hands.Nodup

namespace Custody

variable {m n : Moment}

theorem start (p : Session) : Custody ⟨[], p.start⟩ := by
  unfold Session.start
  constructor <;> dsimp only <;> split <;> simp [Moment.hands, Client.inHand, State.record]

theorem sameTasks (h : Custody m) (hmn : m.SameTasks n) : Custody n := by
  constructor
  · rw [hmn.pending, hmn.active]
    exact h.distinct
  · rw [hmn.pending, hmn.active, hmn.lastId]
    exact h.bounded
  · rw [hmn.hands, hmn.active]
    exact h.claimed
  · rw [hmn.hands]
    exact h.single

/-- Tasks may get lost on the way from hand to hand. -/
theorem handedOn (h : Custody m) (hqueue : n.state.queue = m.state.queue)
    (hhands : n.hands.Subperm m.hands) : Custody n := by
  constructor
  · rw [hqueue]
    exact h.distinct
  · rw [hqueue]
    exact h.bounded
  · rw [hqueue]
    exact fun _ hid => h.claimed (hhands.subset hid)
  · obtain ⟨l, hperm, hsub⟩ := hhands
    exact hperm.nodup_iff.1 (h.single.sublist hsub)

theorem active_nodup (h : Custody m) : (m.state.queue.active.map (·.id)).Nodup :=
  (List.nodup_append.1 h.distinct).2.1

/-- The claimed tasks but for one that is in hand. -/
theorem perm_without (h : Custody m) {c : Claimed} (hc : c ∈ m.hands) :
    m.state.queue.active.Perm (c :: TaskQueue.without m.state.queue.active c.id) :=
  TaskQueue.perm_without h.active_nodup (h.claimed hc)

/-! ### Claiming, giving back and finishing -/

theorem acquire {u : List Activity} {s : State} (h : Custody ⟨u, s⟩) {e : Entry} {queue : TaskQueue}
    (hq : s.queue.acquire s.runnable = some (e, queue)) :
    Custody ⟨.claimed e :: u, s.withQueue queue⟩ := by
  have hhands : (⟨.claimed e :: u, s.withQueue queue⟩ : Moment).hands.Perm
      (e.claim :: (⟨u, s⟩ : Moment).hands) :=
    hands_cons_perm (.claimed e) u (s.withQueue queue)
  obtain ⟨front, back, hpending, -, -, rfl⟩ := TaskQueue.acquire_eq_some hq
  have hids : ((front ++ back).map (·.id) ++ (e.claim :: s.queue.active).map (·.id)).Perm
      (s.queue.pending.map (·.id) ++ s.queue.active.map (·.id)) := by
    rw [hpending, List.perm_iff_count]
    intro id
    simp only [List.map_append, List.map_cons, List.count_append, List.count_cons, Entry.claim]
    omega
  -- what waits is not claimed, since no number stands twice
  have hnew : e.claim ∉ s.queue.active := by
    intro hmem
    refine (List.nodup_append.1 h.distinct).2.2 e.id ?_ e.id ?_ rfl
    · exact List.mem_map.2 ⟨e, by simp [hpending], rfl⟩
    · exact List.mem_map.2 ⟨e.claim, hmem, rfl⟩
  constructor
  · exact hids.nodup_iff.2 h.distinct
  · exact fun id hid => h.bounded id (hids.mem_iff.1 hid)
  · intro c hc
    rcases List.mem_cons.1 (hhands.mem_iff.1 hc) with rfl | hc
    · exact List.mem_cons_self
    · exact List.mem_cons_of_mem _ (h.claimed hc)
  · refine hhands.nodup_iff.2 (List.nodup_cons.2 ⟨fun hmem => hnew (h.claimed hmem), h.single⟩)

/-- Whoever lets go of a task leaves the other hands with the other tasks. -/
theorem letGo (h : Custody m) {c : Claimed} (hhands : m.hands.Perm (c :: n.hands)) :
    n.hands ⊆ TaskQueue.without m.state.queue.active c.id ∧ n.hands.Nodup := by
  have hcons := hhands.nodup_iff.1 h.single
  refine ⟨fun d hd => ?_, hcons.of_cons⟩
  have hactive := h.claimed (hhands.mem_iff.2 (List.mem_cons_of_mem c hd))
  have hc : c ∈ m.hands := hhands.mem_iff.2 List.mem_cons_self
  rcases List.mem_cons.1 ((h.perm_without hc).mem_iff.1 hactive) with rfl | hd'
  · exact absurd hd hcons.notMem
  · exact hd'

theorem giveBack (h : Custody m) {e : Entry} (hhands : m.hands.Perm (e.claim :: n.hands))
    (hqueue : n.state.queue = m.state.queue.giveBack e) : Custody n := by
  have hactive := h.perm_without (hhands.mem_iff.2 List.mem_cons_self)
  have hids : (n.state.queue.pending.map (·.id) ++ n.state.queue.active.map (·.id)).Perm
      (m.state.queue.pending.map (·.id) ++ m.state.queue.active.map (·.id)) := by
    rw [hqueue]
    refine .trans ?_ ((hactive.map (·.id)).symm.append_left _)
    exact List.perm_middle.symm
  constructor
  · exact hids.nodup_iff.2 h.distinct
  · intro id hid
    rw [hqueue]
    exact h.bounded id (hids.mem_iff.1 hid)
  · rw [hqueue]
    exact (h.letGo hhands).1
  · exact (h.letGo hhands).2

theorem finish (h : Custody m) {e : Entry} (hhands : m.hands.Perm (e.claim :: n.hands))
    (hqueue : n.state.queue = m.state.queue.finish e.id) : Custody n := by
  have hids : (n.state.queue.pending.map (·.id) ++ n.state.queue.active.map (·.id)).Sublist
      (m.state.queue.pending.map (·.id) ++ m.state.queue.active.map (·.id)) := by
    rw [hqueue]
    exact (List.Sublist.map Claimed.id List.eraseP_sublist).append_left _
  constructor
  · exact h.distinct.sublist hids
  · intro id hid
    rw [hqueue]
    exact h.bounded id (hids.subset hid)
  · rw [hqueue]
    exact (h.letGo hhands).1
  · exact (h.letGo hhands).2

/-! ### Accepting and discarding -/

theorem push (h : Custody m) (t : Task) (hhands : n.hands = m.hands)
    (hqueue : n.state.queue = (m.state.queue.push t).2) : Custody n := by
  obtain ⟨front, back, hpending, -, hpush⟩ := m.state.queue.push_pending t
  have hids : (n.state.queue.pending.map (·.id) ++ n.state.queue.active.map (·.id)).Perm
      ((m.state.queue.lastId + 1) ::
        (m.state.queue.pending.map (·.id) ++ m.state.queue.active.map (·.id))) := by
    rw [hqueue, hpush, hpending, List.perm_iff_count]
    intro id
    simp only [List.map_append, List.map_cons, List.count_append, List.count_cons,
      TaskQueue.push]
    omega
  constructor
  · refine hids.nodup_iff.2 (List.nodup_cons.2 ⟨fun hmem => ?_, h.distinct⟩)
    exact absurd (h.bounded _ hmem) (by omega)
  · intro id hid
    show id ≤ n.state.queue.lastId
    rw [hqueue]
    rcases List.mem_cons.1 (hids.mem_iff.1 hid) with rfl | hid
    · exact Nat.le_refl _
    · exact Nat.le_succ_of_le (h.bounded id hid)
  · rw [hhands, hqueue]
    exact h.claimed
  · rw [hhands]
    exact h.single

theorem drain (h : Custody m) (hhands : n.hands = m.hands)
    (hqueue : n.state.queue = m.state.queue.drain.2) : Custody n := by
  constructor
  · rw [hqueue]
    exact h.active_nodup
  · rw [hqueue]
    exact fun id hid => h.bounded id (List.mem_append_right _ hid)
  · rw [hhands, hqueue]
    exact h.claimed
  · rw [hhands]
    exact h.single

/-! ### Every move -/

theorem taskMove (h : Custody m) (hmove : TaskMove m n) : Custody n := by
  cases hmove with
  | accept t => exact h.push t (hands_eq rfl rfl) rfl
  | acquire e queue hq => exact h.acquire hq
  | @shelve u s e label =>
    have hkept : ((s.client.claims.remove label).map fun p => p.2.claim).Sublist s.client.inHand :=
      List.filter_sublist.map _
    have hsub : (⟨u, s.withClient { s.client with claims := s.client.claims.put label e }⟩ :
        Moment).hands.Sublist (e.claim :: (⟨u, s⟩ : Moment).hands) :=
      (hkept.append_right _).cons_cons _
    exact h.handedOn rfl (hsub.subperm.trans (hands_cons_perm (.claimed e) u s).symm.subperm)
  -- a shelved claim moves from the table of the client to the thread that steps it
  | @unshelve u s e label he =>
    refine h.handedOn rfl ((hands_cons_perm (.claimed e) u _).subperm.trans ?_)
    exact (List.subperm_append_right _).2 (Table.subperm_of_lookup Entry.claim he)
  | forget => exact h.handedOn rfl (List.sublist_append_right _ _).subperm
  | exchange es e => exact h.handedOn rfl (hands_exchange es e _ _).subperm
  | step e onGpu => exact h.sameTasks ⟨rfl, rfl, rfl, rfl, rfl⟩
  | runOut e onGpu he => exact h.sameTasks ⟨rfl, rfl, rfl, rfl, rfl⟩
  | handOver e he hjob => exact h.giveBack (e := e.handedOver _) (hands_cons_perm _ _ _) rfl
  | wait e j he hjob hj => exact h.giveBack (hands_cons_perm _ _ _) rfl
  | collect e j complexity he hjob hj => exact h.sameTasks ⟨rfl, rfl, rfl, rfl, rfl⟩
  | reckon e ok complexity => exact h.sameTasks ⟨rfl, rfl, rfl, rfl, rfl⟩
  | proceed e he => exact h.giveBack (e := e.advanced) (hands_cons_perm _ _ _) rfl
  | succeed e he => exact h.sameTasks ⟨rfl, rfl, rfl, rfl, rfl⟩
  | complete e => exact h.finish (hands_cons_perm _ _ _) rfl
  | drain hu => exact h.drain (hands_eq rfl rfl) rfl
  | discardNext e es => exact h.sameTasks ⟨rfl, rfl, rfl, rfl, rfl⟩
  | discard e => exact h.sameTasks ⟨rfl, rfl, rfl, rfl, rfl⟩
  | discardEnd => exact h.sameTasks ⟨rfl, rfl, rfl, rfl, rfl⟩

theorem move (h : Custody m) (hmove : Move m n) : Custody n := by
  cases hmove with
  | asset hmove => exact h.sameTasks hmove.sameTasks
  | body hmove => exact h.sameTasks hmove.sameTasks
  | job hmove => exact h.sameTasks hmove.sameTasks
  | task hmove => exact h.taskMove hmove
  | notice hmove => exact h.sameTasks hmove.sameTasks
  | plain hmove => exact h.sameTasks hmove.sameTasks

end Custody

end AssetLoading

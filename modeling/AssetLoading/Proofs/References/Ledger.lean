import AssetLoading.Proofs.Run.Recorded
import AssetLoading.Proofs.Tasks.Unfinished
import Mathlib.Algebra.Ring.Int.Defs

/-! # The ledger of references

  The history tells who took and who dropped references. For every holder the
  difference is its *net*: the references it took and did not drop. The count of
  an asset is the sum of the nets of all holders.

  What tasks and load events hold can also be read off the moment itself: every
  unfinished task and every staged load stands for one reference, and so does
  what running code has in hand for a moment.
-/

namespace AssetLoading

/-! ### Net references -/

/-- What an event adds to the references that a holder has on an asset. -/
def Event.gain (holder : Holder) (h : Handle) : Event → Int
  | .took k l => if k = holder ∧ l = h then 1 else 0
  | .dropped k l => if k = holder ∧ l = h then -1 else 0
  | _ => 0

/-- The references that a holder took on an asset and did not drop. -/
def net (holder : Holder) (h : Handle) (history : List Event) : Int :=
  (history.map (Event.gain holder h)).sum

/-- The references that all holders took on an asset and did not drop. -/
def netOfAll (h : Handle) (history : List Event) : Int :=
  net .client h history + net .dependency h history + net .task h history + net .notice h history

/-- The references that client code took on an asset and did not drop, by itself
or in the contents of assets. The first reference on an asset counts as taken by
client code. -/
def clientNet (h : Handle) (history : List Event) : Int :=
  net .client h history + net .dependency h history

theorem netOfAll_eq (h : Handle) (history : List Event) :
    netOfAll h history = clientNet h history + net .task h history + net .notice h history := rfl

@[simp] theorem net_nil (holder : Holder) (h : Handle) : net holder h [] = 0 := rfl

theorem net_cons (holder : Holder) (h : Handle) (e : Event) (history : List Event) :
    net holder h (e :: history) = e.gain holder h + net holder h history := by
  simp [net]

theorem netOfAll_took (holder : Holder) (h k : Handle) (history : List Event) :
    netOfAll k (.took holder h :: history) = netOfAll k history + if h = k then 1 else 0 := by
  simp only [netOfAll, net_cons, Event.gain]
  by_cases hk : h = k <;> cases holder <;> simp [hk] <;> omega

theorem netOfAll_dropped (holder : Holder) (h k : Handle) (history : List Event) :
    netOfAll k (.dropped holder h :: history) = netOfAll k history - if h = k then 1 else 0 := by
  simp only [netOfAll, net_cons, Event.gain]
  by_cases hk : h = k <;> cases holder <;> simp [hk] <;> omega

/-- Only events that tell of assets tell of references. -/
theorem Event.gain_eq_zero {e : Event} (he : e.subject ≠ .asset) (holder : Holder) (h : Handle) :
    e.gain holder h = 0 := by
  cases e with
  | took => exact absurd rfl he
  | dropped => exact absurd rfl he
  | _ => rfl

/-- Events that tell of no reference leave all nets as they are. -/
theorem Records.net_eq {subject : Subject} {m n : Moment} (h : Records subject m n)
    (hsubject : subject ≠ .asset) (holder : Holder) (k : Handle) :
    net holder k n.state.history = net holder k m.state.history := by
  obtain ⟨new, hnew, hhistory⟩ := h
  rw [hhistory]
  clear hhistory
  induction new with
  | nil => rfl
  | cons e new ih =>
    have he : e.subject ≠ .asset := hnew e List.mem_cons_self ▸ hsubject
    rw [List.cons_append, net_cons, Event.gain_eq_zero he,
      ih fun d hd => hnew d (List.mem_cons_of_mem e hd), Int.zero_add]

/-! ### References of the scheduler -/

/-- The references that tasks and load events hold, and those that running code has
in hand for a moment. -/
def Moment.references (m : Moment) : List (Holder × Handle) :=
  m.unfinished.map (fun c => (.task, c.asset)) ++ m.state.notices.staged.map (fun h => (.notice, h)) ++
    m.inTransit

theorem references_eq {m n : Moment} (hunfinished : n.unfinished = m.unfinished)
    (hstaged : n.state.notices.staged = m.state.notices.staged)
    (htransit : n.inTransit = m.inTransit) : n.references = m.references := by
  rw [Moment.references, hunfinished, hstaged, htransit, Moment.references]

theorem count_task_references (m : Moment) (h : Handle) :
    m.references.count (.task, h) =
      m.unfinished.countP (·.asset = h) + m.inTransit.count (.task, h) := by
  have htasks : (m.unfinished.map fun c => (Holder.task, c.asset)).count (.task, h) =
      m.unfinished.countP (·.asset = h) := by
    rw [List.count, List.countP_map]
    exact List.countP_congr fun c _ => by simp
  have hstaged : (m.state.notices.staged.map fun k => (Holder.notice, k)).count (.task, h) = 0 := by
    simp [List.count_eq_zero]
  rw [Moment.references, List.count_append, List.count_append, htasks, hstaged, Nat.add_zero]

theorem count_notice_references (m : Moment) (h : Handle) :
    m.references.count (.notice, h) =
      m.state.notices.staged.count h + m.inTransit.count (.notice, h) := by
  have htasks : (m.unfinished.map fun c => (Holder.task, c.asset)).count (.notice, h) = 0 := by
    simp [List.count_eq_zero]
  have hstaged : (m.state.notices.staged.map fun k => (Holder.notice, k)).count (.notice, h) =
      m.state.notices.staged.count h := by
    rw [List.count, List.countP_map, List.count]
    exact List.countP_congr fun c _ => by simp
  rw [Moment.references, List.count_append, List.count_append, htasks, hstaged, Nat.zero_add]

/-! ### Moves that touch no reference count -/

/-- The same references are held, by the counts, by the history, and by the
scheduler. -/
structure Moment.SameBooks (m n : Moment) : Prop where
  size : n.state.assets.size = m.state.assets.size
  refs : ∀ h, (n.state.asset h).refs = (m.state.asset h).refs
  destroyed : ∀ h, (n.state.asset h).destroyed = true →
    (m.state.asset h).destroyed = true ∨ (m.state.asset h).refs = 0
  net : ∀ holder h, net holder h n.state.history = net holder h m.state.history
  references : n.references.Perm m.references

theorem Moment.SameBooks.of_assets_eq {m n : Moment} (hassets : n.state.assets = m.state.assets)
    (hnet : ∀ holder h, AssetLoading.net holder h n.state.history =
      AssetLoading.net holder h m.state.history)
    (hreferences : n.references.Perm m.references) : m.SameBooks n := by
  have hasset (h : Handle) : n.state.asset h = m.state.asset h := by
    unfold State.asset
    rw [hassets]
  refine ⟨by rw [hassets], fun h => by rw [hasset], fun h hd => ?_, hnet, hreferences⟩
  rw [hasset] at hd
  exact .inl hd

theorem BodyMove.sameBooks {m n : Moment} (h : BodyMove m n) : m.SameBooks n := by
  have hreferences : n.references = m.references :=
    references_eq h.unfinished_eq.1 (by cases h <;> rfl) h.unfinished_eq.2
  exact .of_assets_eq (by cases h <;> rfl) (h.records.net_eq nofun) (hreferences ▸ .refl _)

theorem JobMove.sameBooks {m n : Moment} (h : JobMove m n) : m.SameBooks n := by
  have hreferences : n.references = m.references :=
    references_eq h.unfinished_eq.1 (by cases h <;> rfl) h.unfinished_eq.2
  exact .of_assets_eq (by cases h <;> rfl) (h.records.net_eq nofun) (hreferences ▸ .refl _)

theorem PlainMove.sameBooks {m n : Moment} (h : PlainMove m n) : m.SameBooks n := by
  have hreferences : n.references = m.references :=
    references_eq h.unfinished_eq.1 (by cases h <;> rfl) h.unfinished_eq.2
  exact .of_assets_eq (by cases h <;> rfl) (h.records.net_eq nofun) (hreferences ▸ .refl _)

/-- A task that joins the unfinished ones takes over a reference, and one that
leaves them hands its reference back. -/
theorem TaskMove.references_perm {m n : Moment} (hm : Custody m) (h : TaskMove m n) :
    n.references.Perm m.references := by
  have hstaged : n.state.notices.staged = m.state.notices.staged := by cases h <;> rfl
  unfold Moment.references
  rw [hstaged]
  cases h.effect hm with
  | kept hperm htransit hhistory =>
    rw [htransit]
    exact .append_right _ (.append_right _ (hperm.map _))
  | joined c body data hperm htransit hhistory =>
    rw [htransit]
    refine .trans (.append_right _ (.append_right _ (hperm.map _))) ?_
    exact List.perm_middle.symm
  | left c e he hperm htransit hhistory =>
    rw [htransit]
    refine .trans ?_ (.append_right _ (.append_right _ (hperm.map _).symm))
    exact List.perm_middle

theorem TaskMove.sameBooks {m n : Moment} (hm : Custody m) (h : TaskMove m n) : m.SameBooks n :=
  .of_assets_eq (by cases h <;> rfl) (h.records.net_eq nofun) (h.references_perm hm)

/-- Staged loads keep their references on the way through the moments. -/
theorem NoticeMove.references_perm {m n : Moment} (h : NoticeMove m n) :
    n.references.Perm m.references := by
  unfold Moment.references
  rw [h.unfinished_eq]
  cases h with
  | @subscribe u s notices hn =>
    show (_ ++ notices.staged.map _ ++ _).Perm (_ ++ s.notices.staged.map _ ++ _)
    rw [hn]
    exact .refl _
  | @stage u s h =>
    show (_ ++ (s.notices.staged ++ [h]).map _ ++ _).Perm
      (_ ++ s.notices.staged.map _ ++ (Holder.notice, h) :: _)
    rw [List.map_append, ← List.append_assoc, List.append_assoc]
    exact .refl _
  | @takeUp u s notices hn =>
    show (_ ++ notices.staged.map _ ++ (s.notices.staged.map _ ++ _)).Perm
      (_ ++ s.notices.staged.map _ ++ _)
    rw [hn, List.map_nil, List.append_nil, ← List.append_assoc]
    exact .refl _
  | releaseNext h hs => exact .refl _
  | released => exact .refl _

theorem NoticeMove.sameBooks {m n : Moment} (h : NoticeMove m n) : m.SameBooks n :=
  .of_assets_eq (by cases h <;> rfl) (fun holder k => by rw [h.history_eq]) h.references_perm

end AssetLoading

import AssetLoading.Proofs.Alone.Actions
import AssetLoading.Proofs.Notices.Calls

/-! # Deliveries to those who wait for a task

  A delivery with nothing staged changes nothing that a task depends on. The one after
  the end of the task calls those who wait for its asset, and drops the reference of the
  load event, which may be the last one.
-/

namespace AssetLoading

namespace Solo

variable {t : Solo} {g : Settings} {p : Point} {d : Duty} {s u : State} {call : Runner}

/-- The task has come to its end and its load was delivered. -/
structure Ended (t : Solo) (p : Point) (s : State) : Prop where
  asset : s.asset t.handle = p.asset
  account : s.account = p.told
  queue : s.queue = t.finished
  staged : s.notices.staged = []

/-- All subscriptions to loads of the asset outlast a delivery as long as the asset is not
destroyed. -/
theorem Shows.pruned (hs : t.Shows g p d s) (hwhole : p.asset.destroyed = false)
    (hown : ∀ sub ∈ t.calls, sub.asset = t.handle) :
    t.Shows g p { d with staged := [] }
      (s.withNotices { s.notices.prune fun sub => !(s.asset sub.asset).destroyed with staged := [] }) := by
  refine { hs with duty := ?_, keys := ?_, calls := ?_ }
  · rw [← hs.duty]
    rfl
  · exact s.notices.keys_prune _ hs.keys
  · show (s.notices.prune _).subscribers t.handle = _
    rw [Notices.subscribers_prune _ _ hs.keys, hs.calls]
    refine List.filter_eq_self.2 fun sub hsub => ?_
    rw [hown sub hsub, hs.asset, hwhole]
    rfl

/-- With nothing staged nobody is called. -/
theorem deliver_of_none (call : Runner) (thread : Thread) (hnone : s.notices.staged = []) :
    deliver call thread s = .ok 0
      (s.withNotices { s.notices.prune fun sub => !(s.asset sub.asset).destroyed with staged := [] }) := by
  show EStateM.bind (notifyAll call thread (Notices.calls _ s.notices.staged)) _ _ = _
  rw [hnone]
  rfl

theorem notify_returns (hcode : ∀ sub ∈ t.calls, t.meaning.Explains call t.handle none none sub.code)
    {sub : Subscription} (hsub : sub ∈ t.calls) (hasset : sub.asset = t.handle) (thread : Thread)
    (hs : t.Shows g p d s) (hp : p.asset.IsHeld) (hleft : (t.notified p sub).asset.IsHeld) :
    Returns (notify call thread sub) s fun _ u => t.Shows g (t.notified p sub) d u := by
  unfold notify
  refine .look ?_
  rw [hasset, hs.label, hs.asset]
  have hbegun := hs.record (e := .loaded sub.id sub.label t.handle t.label p.asset.state) rfl
  obtain ⟨v, hrun, hv⟩ := hbegun.runs hp (hcode sub hsub) thread nofun rfl hleft
  exact .part rfl (.part hrun (.pure { hbegun.affected hv with }))

theorem notifyAll_returns {subs : List Subscription} (hown : ∀ sub ∈ t.calls, sub.asset = t.handle)
    (hcode : ∀ sub ∈ t.calls, t.meaning.Explains call t.handle none none sub.code)
    (hsubs : ∀ sub ∈ subs, sub ∈ t.calls) (thread : Thread) (hs : t.Shows g p d s)
    (hheld : ∀ called, called <+: subs → (called.foldl t.notified p).asset.IsHeld) :
    Returns (notifyAll call thread subs) s fun _ u => t.Shows g (subs.foldl t.notified p) d u := by
  induction subs generalizing p s with
  | nil => exact .pure hs
  | cons sub subs ih =>
    have hsub := hsubs sub List.mem_cons_self
    have hp : p.asset.IsHeld := hheld [] List.nil_prefix
    have hleft : (t.notified p sub).asset.IsHeld := hheld [sub] ⟨subs, rfl⟩
    refine (notify_returns hcode hsub (hown sub hsub) thread hs hp hleft).first fun _ u hu => ?_
    exact ih (fun other hother => hsubs other (List.mem_cons_of_mem sub hother)) hu
      fun called hcalled => hheld (sub :: called) ((List.prefix_cons_inj sub).2 hcalled)

/-- The last reference is dropped, and the asset destroyed. -/
theorem destroy_returns (hs : t.Shows g p d s) (hwhole : p.asset.destroyed = false)
    (hnone : p.asset.refs = 0) (hcode : ∀ c ∈ p.asset.contents, t.meaning.Buries call t.handle c) :
    Returns (destroy call { thread := .main } t.handle) s fun _ u =>
      u.asset t.handle = (t.buried p).asset ∧ u.account = (t.buried p).told ∧ u.duty = d := by
  unfold destroy buried
  refine .part rfl ?_
  rw [hs.asset, hwhole, if_pos hnone]
  cases hcontents : p.asset.contents with
  | none =>
    have hmarked := hs.changed fun a => { a with destroyed := true }
    exact .part rfl (.pure ⟨hmarked.asset, hmarked.account, hmarked.duty⟩)
  | some c =>
    have hmarked := (hs.changed fun a => { a with destroyed := true, contents := none }).record_hidden
      (e := .logged .trace "Destroying asset"
        [("asset", .text p.asset.displayName), ("ty", .text p.asset.category.name)]) rfl
    obtain ⟨ran, v, hrun, hspares, hasset, haccount⟩ := hcode c hcontents _ hmarked.made
      (congrArg Asset.destroyed hmarked.asset) ((congrArg Asset.refs hmarked.asset).trans hnone)
    have hv := hmarked.spared hspares (hasset.trans hmarked.asset)
      (q := { p with
        asset := { p.asset with destroyed := true, contents := none }
        told := t.meaning.destructor c ++ p.told })
      (haccount.trans (congrArg (t.meaning.destructor c ++ ·) hmarked.account))
    refine .part rfl (.part rfl (.part hrun (.part (unlink_run 0 t.handle v) (.part rfl (.pure ?_)))))
    -- unlinking changes the links of a registry only, which the task does not show
    obtain ⟨f, hf⟩ := v.unlinked_eq 0 t.handle
    have hunlinked : t.Shows g _ d (v.modifyRegistry 0 fun reg => { reg with linked := f reg.linked }) :=
      { hv with }
    rw [← hf] at hunlinked
    have hburied := hunlinked.changed fun a => { a with slot := none, state := .none }
    exact ⟨hburied.asset, hburied.account, hburied.duty⟩

theorem release_returns (hs : t.Shows g p d s) (hp : p.asset.IsHeld)
    (hcode : p.asset.refs = 1 → ∀ c ∈ p.asset.contents, t.meaning.Buries call t.handle c) :
    Returns (release call { thread := .main } .notice t.handle) s fun _ u =>
      u.asset t.handle = (t.buried (t.dropped p .notice)).asset ∧
        u.account = (t.buried (t.dropped p .notice)).told ∧ u.duty = d := by
  have hdropped := hs.dropped .notice
  have hrefs : ((s.dropped .notice t.handle).asset t.handle).refs = p.asset.refs - 1 :=
    congrArg Asset.refs hdropped.asset
  have hrun := dropRef_run .notice t.handle s
  dsimp only at hrun
  rw [hrefs, if_neg (by have := hp.refs; omega)] at hrun
  refine .part hrun ?_
  by_cases hlast : p.asset.refs - 1 = 0
  · rw [if_pos hlast]
    exact (destroy_returns hdropped hp.whole hlast (hcode (by omega))).first fun _ u hu => .pure hu
  · have hleft : t.buried (t.dropped p .notice) = t.dropped p .notice := if_neg hlast
    rw [if_neg hlast, hleft]
    exact .pure ⟨hdropped.asset, hdropped.account, hdropped.duty⟩

/-- The delivery after the end of the task. -/
theorem deliver_returns (hs : t.Shows g p ⟨d.queue, d.jobs, [t.handle]⟩ s)
    (hheld : ∀ called, called <+: t.calls → (called.foldl t.notified p).asset.IsHeld)
    (hloaded : p.asset.state.isLoaded = true) (hown : ∀ sub ∈ t.calls, sub.asset = t.handle)
    (hcode : ∀ sub ∈ t.calls, t.meaning.Explains call t.handle none none sub.code)
    (hburies : (t.calls.foldl t.notified p).asset.refs = 1 →
      ∀ c ∈ (t.calls.foldl t.notified p).asset.contents, t.meaning.Buries call t.handle c) :
    Returns (deliver call .main) s fun _ u =>
      u.asset t.handle = (t.delivered p).asset ∧ u.account = (t.delivered p).told ∧
        u.duty = ⟨d.queue, d.jobs, []⟩ := by
  have hpruned := hs.pruned (hheld [] List.nil_prefix).whole hown
  -- only the asset of the task is staged, so those who wait for it are called
  have hcalls : (s.notices.prune fun sub => !(s.asset sub.asset).destroyed).calls s.notices.staged =
      t.calls := by
    rw [hs.staged_eq]
    show [t.handle].flatMap (Notices.subscribers _) = _
    rw [List.flatMap_singleton]
    exact hpruned.calls
  unfold deliver delivered
  rw [if_pos hloaded]
  refine .look (.part rfl ?_)
  dsimp only
  rw [hcalls, hs.staged_eq]
  refine (notifyAll_returns hown hcode (fun _ hsub => hsub) .main hpruned hheld).first
    fun _ u hcalled => ?_
  have hleft := hheld t.calls (List.prefix_refl t.calls)
  exact ((release_returns hcalled hleft hburies).first fun _ _ hv => .pure hv).first
    fun _ _ hv => .pure hv

/-- Once the task is completed, a delivery ends the matter. -/
theorem deliver_done {jobs : JobQueue} {n : Nat} (he : t.Explained call)
    (hown : ∀ sub ∈ t.calls, sub.asset = t.handle)
    (hdone : t.after n = .done p) (hs : t.Rests g jobs (.done p) s) :
    Returns (deliver call .main) s fun _ u => t.Ended (t.delivered p) u ∧ u.jobs = jobs := by
  change t.Shows g p ⟨t.finished, jobs, _⟩ s at hs
  by_cases hloaded : p.asset.state.isLoaded = true
  · rw [if_pos hloaded] at hs
    refine (deliver_returns (d := ⟨t.finished, jobs, []⟩) hs
      (fun _ hcalled => he.held _ (.notified hdone hloaded hcalled)) hloaded hown he.calls
      (he.destructor n p hdone hloaded)).mono fun _ u hu => ?_
    obtain ⟨hasset, haccount, hduty⟩ := hu
    exact ⟨⟨hasset, haccount, congrArg Duty.queue hduty, congrArg Duty.staged hduty⟩,
      congrArg Duty.jobs hduty⟩
  · rw [if_neg hloaded] at hs
    refine .of_eq (deliver_of_none call .main hs.staged_eq) ?_
    unfold delivered
    rw [if_neg hloaded]
    exact ⟨⟨hs.asset, hs.account, hs.queue_eq, rfl⟩, hs.jobs_eq⟩

end Solo

end AssetLoading

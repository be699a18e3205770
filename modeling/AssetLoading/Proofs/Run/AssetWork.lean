import AssetLoading.Proofs.Run.Recorded

/-! # What goes on with assets and registries

  Only the moves of assets and registries begin or end a destruction or change
  what the assets and registries are. A law about assets is proved for these
  moves; all other moves leave everything it speaks of alone.
-/

namespace AssetLoading

/-- Activities that destroy assets or work with a registry of their own. -/
def Activity.ofAssets : Activity → Bool
  | flushing _ | destroying _ | within _ => true
  | _ => false

/-- What is under way with assets and registries. -/
def Moment.assetWork (m : Moment) : List Activity :=
  m.underWay.filter Activity.ofAssets

theorem Activity.MayAct.ofAssets {a : Activity} {b : BodyId} {i : Nat} {onGpu : Bool}
    (h : a.MayAct b i onGpu) (ok : Bool) :
    a.ofAssets = false ∧ (a.concluded ok).ofAssets = false := by
  cases a <;> first | exact h.elim | exact ⟨rfl, rfl⟩

theorem Activity.MayFree.ofAssets {a : Activity} {b : BodyId} (h : a.MayFree b) :
    a.ofAssets = false ∧ a.freed.ofAssets = false := by
  cases a <;> first | exact h.elim | exact ⟨rfl, rfl⟩

theorem filter_ofAssets_cons {a b : Activity} (ha : a.ofAssets = false) (hb : b.ofAssets = false)
    (u : List Activity) : (b :: u).filter Activity.ofAssets = (a :: u).filter Activity.ofAssets := by
  simp [ha, hb]

theorem Picks.filter_ofAssets {j : JobId} {u v : List Activity} (h : Picks j u v) :
    v.filter Activity.ofAssets = u.filter Activity.ofAssets := by
  cases h <;> rfl

/-- A reference that is held is no work with assets. -/
theorem mem_gained {a : Activity} (ha : a.ofAssets = true) (holder : Holder) (h : Handle)
    (u : List Activity) : a ∈ gained holder h u ↔ a ∈ u := by
  have hne : a ≠ .holding holder h := by
    rintro rfl
    cases ha
  cases holder <;> simp [gained, Holder.isScheduler, hne]

/-- Assets, registries and what is under way with them are the same. -/
structure Moment.SameAssets (m n : Moment) : Prop where
  assets : n.state.assets = m.state.assets
  registries : n.state.registries = m.state.registries
  work : n.assetWork = m.assetWork

section Same

variable {m n : Moment}

theorem Moment.SameAssets.asset (h : m.SameAssets n) (k : Handle) :
    n.state.asset k = m.state.asset k := by
  unfold State.asset
  rw [h.assets]

theorem Moment.SameAssets.registry (h : m.SameAssets n) (r : RegistryId) :
    n.state.registry r = m.state.registry r := by
  unfold State.registry
  rw [h.registries]

theorem Moment.SameAssets.mem_iff (h : m.SameAssets n) {a : Activity} (ha : a.ofAssets = true) :
    a ∈ n.underWay ↔ a ∈ m.underWay := by
  have hwork := congrArg (a ∈ ·) h.work
  simpa [Moment.assetWork, ha] using hwork

theorem BodyMove.sameAssets (h : BodyMove m n) : m.SameAssets n := by
  cases h with
  | act a b i onGpu hmay =>
    exact ⟨rfl, rfl, filter_ofAssets_cons (hmay.ofAssets true).1 rfl _⟩
  | actEnd a b i onGpu ok hmay =>
    exact ⟨rfl, rfl, filter_ofAssets_cons rfl (hmay.ofAssets ok).2 _⟩
  | actSkip a b i onGpu hmay =>
    exact ⟨rfl, rfl, filter_ofAssets_cons (hmay.ofAssets false).1 (hmay.ofAssets false).2 _⟩
  | free a b h hmay => exact ⟨rfl, rfl, filter_ofAssets_cons hmay.ofAssets.1 rfl _⟩
  | freeEnd a b hmay => exact ⟨rfl, rfl, filter_ofAssets_cons rfl hmay.ofAssets.2 _⟩
  | freeSkip a b hmay =>
    exact ⟨rfl, rfl, filter_ofAssets_cons hmay.ofAssets.1 hmay.ofAssets.2 _⟩
  | _ => exact ⟨rfl, rfl, rfl⟩

theorem JobMove.sameAssets (h : JobMove m n) : m.SameAssets n := by
  cases h with
  | start j hpick => exact ⟨rfl, rfl, hpick.filter_ofAssets⟩
  | skip j hpick => exact ⟨rfl, rfl, hpick.filter_ofAssets⟩
  | _ => exact ⟨rfl, rfl, rfl⟩

theorem TaskMove.sameAssets (h : TaskMove m n) : m.SameAssets n := by
  cases h with
  | exchange es e => exact ⟨rfl, rfl, filter_exchange es e _ fun _ => rfl⟩
  | _ => exact ⟨rfl, rfl, rfl⟩

theorem NoticeMove.sameAssets (h : NoticeMove m n) : m.SameAssets n := by
  cases h <;> exact ⟨rfl, rfl, rfl⟩

theorem PlainMove.sameAssets (h : PlainMove m n) : m.SameAssets n := by
  cases h <;> exact ⟨rfl, rfl, rfl⟩

/-- A move is one of assets, or leaves them alone and records nothing of them. -/
theorem Move.asset_or_same (h : Move m n) :
    AssetMove m n ∨ m.SameAssets n ∧
      ∀ e, e.subject = .asset → (e ∈ n.state.history ↔ e ∈ m.state.history) := by
  have hkept {subject : Subject} (hrecords : Records subject m n) (hne : .asset ≠ subject) (e : Event)
      (he : e.subject = .asset) : e ∈ n.state.history ↔ e ∈ m.state.history :=
    ⟨fun hmem => hrecords.mem_of_subject_ne hmem (he ▸ hne), hrecords.mem⟩
  cases h with
  | asset h => exact .inl h
  | body h => exact .inr ⟨h.sameAssets, hkept h.records (by decide)⟩
  | job h => exact .inr ⟨h.sameAssets, hkept h.records (by decide)⟩
  | task h => exact .inr ⟨h.sameAssets, hkept h.records (by decide)⟩
  | notice h => exact .inr ⟨h.sameAssets, fun e _ => by rw [h.history_eq]⟩
  | plain h => exact .inr ⟨h.sameAssets, hkept h.records (by decide)⟩

end Same

end AssetLoading

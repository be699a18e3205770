import AssetLoading.Proofs.References.Balance
import AssetLoading.Proofs.Run.AssetWork

/-! # When assets are destroyed

  The destructor of an asset starts only when nobody holds a reference on it. So
  by then every task that was accepted for the asset has been completed or
  discarded, and every load that was staged for it has been delivered or dropped,
  unless client code dropped references that were not its own.
-/

namespace AssetLoading

/-! ### What is destroyed stays destroyed -/

/-- An asset was made and is destroyed. -/
def State.Gone (s : State) (h : Handle) : Prop :=
  h < s.assets.size ∧ (s.asset h).destroyed = true

theorem State.Gone.of_assets_eq {s t : State} {h : Handle} (hs : s.Gone h)
    (hassets : t.assets = s.assets) : t.Gone h := by
  unfold State.Gone State.asset at *
  rwa [hassets]

theorem State.Gone.modifyAsset {s : State} {h k : Handle} {f : Asset → Asset} (hs : s.Gone h)
    (hf : (s.asset k).destroyed = true → (f (s.asset k)).destroyed = true) :
    (s.modifyAsset k f).Gone h := by
  refine ⟨by rw [State.size_modifyAsset]; exact hs.1, ?_⟩
  rw [State.asset_modifyAsset]
  split
  next hkh =>
    obtain ⟨rfl, -⟩ := hkh
    exact hf hs.2
  next => exact hs.2

theorem AssetMove.gone {m n : Moment} (hmove : AssetMove m n) {h : Handle}
    (hm : m.state.Gone h) : n.state.Gone h := by
  cases hmove with
  | take holder k => exact hm.modifyAsset id
  | revive holder k => exact hm.modifyAsset id
  | drop holder k => exact hm.modifyAsset id
  | beginDestroy k => exact hm.modifyAsset fun _ => rfl
  | redestroy k => exact hm.modifyAsset fun _ => rfl
  | endDestroy k => exact hm.modifyAsset id
  | rekey r k => exact hm.modifyAsset id
  | @edit u s k f hf =>
    refine hm.modifyAsset fun hgone => ?_
    rw [hf.1]
    exact hgone
  | @insert u s r kind key slot linked =>
    refine ⟨by rw [State.size_inserted]; exact Nat.lt_succ_of_lt hm.1, ?_⟩
    rw [State.asset_inserted, if_neg (Nat.ne_of_lt hm.1)]
    exact hm.2
  | _ => exact hm.of_assets_eq rfl

/-- Whatever destructor runs, its asset is destroyed. -/
def DyingAreGone (m : Moment) : Prop :=
  ∀ h, .destroying h ∈ m.underWay → m.state.Gone h

theorem DyingAreGone.sameAssets {m n : Moment} (hm : DyingAreGone m) (hsame : m.SameAssets n) :
    DyingAreGone n := by
  intro h hh
  have hold : .destroying h ∈ m.underWay := (hsame.mem_iff rfl).1 hh
  exact (hm h hold).of_assets_eq hsame.assets

theorem DyingAreGone.assetMove {m n : Moment} (hm : DyingAreGone m) (h : AssetMove m n) :
    DyingAreGone n := by
  intro k hk
  have hkept (hold : .destroying k ∈ m.underWay) : n.state.Gone k := h.gone (hm k hold)
  cases h with
  | take holder h => exact hkept ((mem_gained rfl holder h _).1 hk)
  | revive holder h => exact hkept ((mem_gained rfl holder h _).1 hk)
  | drop holder h => exact hkept ((mem_gained rfl holder h _).2 hk)
  | @beginDestroy u s h c hwhole hc hnone =>
    rcases List.mem_cons.1 hk with heq | hold
    · cases heq
      have hknown := State.lt_size_of_whole (.inl hwhole)
      refine ⟨by rw [State.size_modifyAsset]; exact hknown, ?_⟩
      rw [State.asset_modifyAsset, if_pos ⟨rfl, hknown⟩]
    · exact hkept hold
  | flush r => exact hkept (by simpa using hk)
  | visit h hs => exact hkept (by simpa using hk)
  | newRegistry => exact hkept (by simpa using hk)
  | flushed => exact hkept (List.mem_cons_of_mem _ hk)
  | endDestroy h => exact hkept (List.mem_cons_of_mem _ hk)
  | leaveRegistry r => exact hkept (List.mem_cons_of_mem _ hk)
  | _ => exact hkept hk

theorem DyingAreGone.move {m n : Moment} (hm : DyingAreGone m) (h : Move m n) : DyingAreGone n := by
  rcases h.asset_or_same with hasset | ⟨hsame, -⟩
  · exact hm.assetMove hasset
  · exact hm.sameAssets hsame

/-! ### What the history says of tasks -/

/-- Every task that was accepted for an asset was completed or discarded, and no
reference is held on behalf of a load event. -/
def FinishedWith (h : Handle) (history : List Event) : Prop :=
  (∀ id body data, .accepted id body h data ∈ history →
    .completed id ∈ history ∨ .discarded id ∈ history) ∧ net .notice h history = 0

/-- A task that was accepted is unfinished as long as it was neither completed nor
discarded. -/
def AcceptedAreKept (m : Moment) : Prop :=
  ∀ id body h data, .accepted id body h data ∈ m.state.history →
    .completed id ∈ m.state.history ∨ .discarded id ∈ m.state.history ∨
      ∃ c ∈ m.unfinished, c.id = id ∧ c.asset = h

theorem AcceptedAreKept.of_records {m n : Moment} (hm : AcceptedAreKept m) {subject : Subject}
    (hrecords : Records subject m n) (hsubject : subject ≠ .task)
    (hunfinished : n.unfinished = m.unfinished) : AcceptedAreKept n := by
  intro id body h data haccepted
  rw [hunfinished]
  rcases hm id body h data (hrecords.mem_of_subject_ne haccepted hsubject.symm) with hc | hd | hu
  · exact .inl (hrecords.mem hc)
  · exact .inr (.inl (hrecords.mem hd))
  · exact .inr (.inr hu)

theorem AcceptedAreKept.taskMove {m n : Moment} (hm : AcceptedAreKept m) (hcustody : Custody m)
    (h : TaskMove m n) : AcceptedAreKept n := by
  intro id body k data haccepted
  cases h.effect hcustody with
  | kept hperm htransit hhistory =>
    have hold : .accepted id body k data ∈ m.state.history := by
      rcases hhistory with hhistory | ⟨i, g, hhistory⟩ <;> simpa [hhistory] using haccepted
    rcases hm id body k data hold with hc | hd | ⟨c, hc, hck⟩
    · exact .inl (h.records.mem hc)
    · exact .inr (.inl (h.records.mem hd))
    · exact .inr (.inr ⟨c, hperm.mem_iff.2 hc, hck⟩)
  | joined c b d hperm htransit hhistory =>
    rw [hhistory, List.mem_cons] at haccepted
    rcases haccepted with heq | hold
    · cases heq
      exact .inr (.inr ⟨c, hperm.mem_iff.2 List.mem_cons_self, rfl, rfl⟩)
    · rcases hm id body k data hold with hc | hd | ⟨c', hc', hck⟩
      · exact .inl (h.records.mem hc)
      · exact .inr (.inl (h.records.mem hd))
      · exact .inr (.inr ⟨c', hperm.mem_iff.2 (List.mem_cons_of_mem c hc'), hck⟩)
  | left c e he hperm htransit hhistory =>
    have hold : .accepted id body k data ∈ m.state.history := by
      rcases he with rfl | rfl <;> simpa [hhistory] using haccepted
    rcases hm id body k data hold with hc | hd | ⟨c', hc', rfl, hck⟩
    · exact .inl (h.records.mem hc)
    · exact .inr (.inl (h.records.mem hd))
    · rcases List.mem_cons.1 (hperm.mem_iff.1 hc') with rfl | hc'
      · -- the task that has just left was the last trace of the accepted one
        rw [hhistory]
        rcases he with rfl | rfl
        · exact .inl List.mem_cons_self
        · exact .inr (.inl List.mem_cons_self)
      · exact .inr (.inr ⟨c', hc', rfl, hck⟩)

theorem AcceptedAreKept.move {m n : Moment} (hm : AcceptedAreKept m) (hcustody : Custody m)
    (h : Move m n) : AcceptedAreKept n := by
  cases h with
  | asset h => exact hm.of_records h.records nofun h.unfinished_eq
  | body h => exact hm.of_records h.records nofun h.unfinished_eq.1
  | job h => exact hm.of_records h.records nofun h.unfinished_eq.1
  | task h => exact hm.taskMove hcustody h
  | notice h =>
    have hrecords : Records .other m n := .none h.history_eq
    exact hm.of_records hrecords nofun h.unfinished_eq
  | plain h => exact hm.of_records h.records nofun h.unfinished_eq.1

/-! ### The start of a destructor -/

/-- Whenever a destructor started, everything was finished with its asset, unless
client code had dropped references that were not its own. -/
def EndsAreClean (history : List Event) : Prop :=
  ∀ past h refs tag category value, .destroyed h refs tag category value :: past <:+ history →
    0 ≤ clientNet h past → FinishedWith h past

/-- Right when a destructor starts, everything is finished with its asset. -/
theorem finishedWith_of_gone {m : Moment} (hm : Balanced m) (hkept : AcceptedAreKept m)
    {h : Handle} (hgone : m.state.Gone h) (hclient : 0 ≤ clientNet h m.state.history) :
    FinishedWith h m.state.history := by
  obtain ⟨-, htask, hnotice⟩ := hm.nets_of_destroyed hgone.2 hclient
  refine ⟨fun id body data haccepted => ?_, hnotice⟩
  rcases hkept id body h data haccepted with hc | hd | ⟨c, hc, -, rfl⟩
  · exact .inl hc
  · exact .inr hd
  · have hpos := hm.net_task_pos hc
    omega

theorem endsAreClean_move {m n : Moment} (hends : EndsAreClean m.state.history) (hm : Balanced m)
    (hkept : AcceptedAreKept m) (hdying : DyingAreGone m) (h : Move m n) :
    EndsAreClean n.state.history := by
  intro past k refs tag category value hpast hclient
  -- only the move that starts a destructor records one
  have hold (hold : .destroyed k refs tag category value :: past <:+ m.state.history) :
      FinishedWith k past :=
    hends past k refs tag category value hold hclient
  cases h with
  | asset h =>
    cases h with
    | @destructor u s j tag' category' value' =>
      rcases List.suffix_cons_iff.1 hpast with heq | hpast
      · cases heq
        exact finishedWith_of_gone hm hkept (hdying k List.mem_cons_self) hclient
      · exact hold hpast
    | take => exact hold (suffix_of_suffix_cons hpast nofun)
    | revive => exact hold (suffix_of_suffix_cons (suffix_of_suffix_cons hpast nofun) nofun)
    | drop => exact hold (suffix_of_suffix_cons hpast nofun)
    | insert => exact hold (suffix_of_suffix_cons hpast nofun)
    | _ => exact hold hpast
  | body h => exact hold (h.records.suffix_of_subject_ne hpast nofun)
  | job h => exact hold (h.records.suffix_of_subject_ne hpast nofun)
  | task h => exact hold (h.records.suffix_of_subject_ne hpast nofun)
  | notice h => exact hold (h.history_eq ▸ hpast)
  | plain h => exact hold (h.records.suffix_of_subject_ne hpast nofun)

end AssetLoading

import AssetLoading.Proofs.Notices.Calls

/-! # One notification per load

  An asset that one task loads is staged once: when the task is completed. From then
  on the asset is loaded until it is destroyed, unless client code says otherwise. So
  a subscriber is called once for the load, by the delivery that takes it up or at
  once if that was earlier.

  There is one more call for whoever subscribes in between, when the asset is loaded
  already and its task is not completed: nothing is staged yet, so the subscriber is
  called at once, and the delivery calls it again.
-/

namespace AssetLoading

/-! ### What changes the load state of an asset -/

section States

variable {m n : Moment} {c d : Scene} {s : State} {k : Handle}

theorem state_referenced (s : State) (holder : Holder) (h k : Handle) :
    ((s.referenced holder h).asset k).state = (s.asset k).state := by
  have htook (s : State) : ((s.took holder h).asset k).state = (s.asset k).state := by
    rw [State.asset_took]
    split <;> rfl
  unfold State.referenced
  split
  · exact htook (s.record (.revived h (s.rival? h)))
  · exact htook s

theorem state_dropped (s : State) (holder : Holder) (h k : Handle) :
    ((s.dropped holder h).asset k).state = (s.asset k).state := by
  rw [State.asset_dropped]
  split <;> rfl

theorem state_letGo (s : State) (r : RegistryId) (holder : Holder) (h k : Handle) :
    ((s.letGo r holder h).asset k).state = (s.asset k).state := by
  unfold State.letGo
  split <;> exact state_dropped s holder h k

theorem state_taskEnded (s : State) (e : Entry) (k : Handle) :
    ((s.taskEnded e).asset k).state = (s.asset k).state := by
  have hcompleted : ((s.taskCompleted e).asset k).state = (s.asset k).state := by
    unfold State.taskCompleted
    split
    · exact state_referenced s .notice e.asset k
    · rfl
  rw [State.taskEnded, state_letGo, hcompleted]

theorem state_modifyAsset {h : Handle} {f : Asset → Asset}
    (hf : k = h → (f (s.asset k)).state = (s.asset k).state) :
    ((s.modifyAsset h f).asset k).state = (s.asset k).state := by
  rw [State.asset_modifyAsset]
  split
  next heq => exact hf heq.1.symm
  next => rfl

/-- An asset that is marked as destroyed is not one that is whole. -/
theorem ne_of_whole {h : Handle} {f : Asset → Asset} (hf : (f (s.asset h)).destroyed = true)
    (hwhole : ((s.modifyAsset h f).asset k).destroyed = false) : k ≠ h := by
  rintro rfl
  have hk := State.lt_size_of_whole (.inl hwhole)
  rw [State.size_modifyAsset] at hk
  rw [State.asset_modifyAsset, if_pos ⟨rfl, hk⟩, hf] at hwhole
  cases hwhole

theorem Falls.state_eq {h : Handle} (hfalls : Falls h m n) (k : Handle) :
    (n.state.asset k).state = (m.state.asset k).state := by
  cases hfalls with
  | last holder => exact state_dropped _ holder h k
  | visited => rfl

/-- What may change the load state of an asset while it is not destroyed: client code,
a task that is queued for an asset without a state, and an action that failed. -/
def Moment.Restates (m n : Moment) (k : Handle) : Prop :=
  (∃ state body, n.state.history = .stateSet k state body :: m.state.history) ∨
    (m.state.asset k).state = .none ∨
    ∃ e u, m.underWay = .concluding e false :: u ∧ e.asset = k

theorem AssetStride.state_eq_or (h : AssetStride m n) (hdying : DyingAreGone m)
    (hk : k < m.state.assets.size) (hwhole : (n.state.asset k).destroyed = false) :
    (n.state.asset k).state = (m.state.asset k).state ∨ m.Restates n k := by
  cases h with
  | take holder h => exact .inl (state_referenced _ holder h k)
  | drop holder h => exact .inl (state_dropped _ holder h k)
  | defer r h => exact .inl (state_letGo _ r .client h k)
  | @expire m u s h c hfalls =>
    have hne : k ≠ h := ne_of_whole (s := s) rfl hwhole
    have hsame : ((s.expired h c).asset k).state = (s.asset k).state :=
      state_modifyAsset fun heq => absurd heq hne
    exact .inl (hsame.trans (hfalls.state_eq k))
  | @again m u s h hfalls =>
    have hne : k ≠ h := ne_of_whole (s := s) rfl hwhole
    exact .inl ((state_modifyAsset fun heq => absurd heq hne).trans (hfalls.state_eq k))
  | @bury u s r h =>
    have hne : k ≠ h := by
      refine ne_of_whole (s := s.unlinked r h) ?_ hwhole
      rw [State.asset_unlinked]
      exact (hdying h List.mem_cons_self).2
    refine .inl ((state_modifyAsset fun heq => absurd heq hne).trans ?_)
    rw [State.asset_unlinked]
  | @insert u s r kind key slot linked =>
    show ((s.inserted r kind key slot linked).asset k).state = _ ∨ _
    rw [State.asset_inserted, if_neg (Nat.ne_of_lt hk)]
    exact .inl rfl
  | @rekey u s r h key => exact .inl (state_modifyAsset fun _ => rfl)
  | @write u s h f hf hstate => exact .inl (state_modifyAsset fun heq => heq ▸ hstate)
  | @setState u s h state body =>
    by_cases heq : k = h
    · subst heq
      exact .inr (.inl ⟨state, body, rfl⟩)
    · exact .inl (state_modifyAsset fun heq' => absurd heq' heq)
  | @loading u s t hopen hnone =>
    by_cases heq : k = t.asset
    · subst heq
      exact .inr (.inr (.inl hnone))
    · exact .inl (state_modifyAsset fun heq' => absurd heq' heq)
  | @fail u s e =>
    by_cases heq : k = e.asset
    · subst heq
      exact .inr (.inr (.inr ⟨e, u, rfl, rfl⟩))
    · exact .inl (state_modifyAsset fun heq' => absurd heq' heq)
  | flush | skip | flushed | countNames | newRegistry | leaveRegistry => exact .inl rfl

theorem Stride.state_eq_or (h : Stride c d) (hdying : DyingAreGone c.toMoment)
    (hk : k < c.state.assets.size) (hwhole : (d.state.asset k).destroyed = false) :
    (d.state.asset k).state = (c.state.asset k).state ∨ c.toMoment.Restates d.toMoment k := by
  have hsame {m n : Moment} (hsame : m.SameAssets n) :
      (n.state.asset k).state = (m.state.asset k).state := congrArg Asset.state (hsame.asset k)
  cases h with
  | asset h => exact h.state_eq_or hdying hk hwhole
  | body h => exact .inl (hsame h.sameAssets)
  | job h => exact .inl (hsame h.sameAssets)
  | task h =>
    cases h with
    | @accept u s t => exact .inl (state_referenced s .task t.asset k)
    | @complete u s e => exact .inl (state_taskEnded s e k)
    | @discard u s e => exact .inl (state_letGo (s.record (.discarded e.id)) 0 .task e.asset k)
    | shutDown | drain => exact .inl rfl
    | move h => exact .inl (hsame h.sameAssets)
  | notice h => exact .inl (hsame h.sameAssets)
  | plain h => exact .inl (hsame h.sameAssets)

end States

/-! ### Completed tasks -/

section Completing

variable {m : Moment} {c d : Scene}

theorem mem_endings {history : List Event} {id : Nat} :
    (id, true) ∈ endings history ↔ .completed id ∈ history := by
  unfold endings
  rw [List.mem_filterMap]
  constructor
  · rintro ⟨e, he, heq⟩
    cases e <;> simp_all [Event.endOf?]
  · exact fun h => ⟨_, h, rfl⟩

/-- Only the completion of a task completes one. -/
theorem Stride.completed_or (h : Stride c d) (hsettled : Settled c.toMoment) :
    (∀ id, .completed id ∈ d.state.history → .completed id ∈ c.state.history) ∨
      ∃ e u, c.underWay = .ended e :: u ∧ d = ⟨⟨u, c.state.taskEnded e⟩, c.due⟩ := by
  have hkept {m n : Moment} (hkept : m.KeepsSettled n) (id : Nat)
      (hid : .completed id ∈ n.state.history) : .completed id ∈ m.state.history := by
    rw [← mem_endings] at hid ⊢
    rwa [← (Prod.mk.inj hkept.closings).1]
  -- of all strides only that of a task which is about to be completed tells so
  cases h with
  | asset h => exact .inl (hkept (h.keepsSettled hsettled.unheld))
  | body h => exact .inl (hkept h.keepsSettled)
  | job h => exact .inl (hkept h.keepsSettled)
  | task h =>
    cases h with
    | @accept u s t =>
      exact .inl (hkept ⟨fun h hmem => List.mem_cons_of_mem _ hmem,
        closings_referenced s .task t.asset⟩)
    | @complete u s e => exact .inr ⟨e, u, rfl, rfl⟩
    | @discard u s e =>
      refine .inl fun id hid => ?_
      change _ ∈ ((s.record (.discarded e.id)).letGo 0 .task e.asset).history at hid
      rw [State.history_letGo] at hid
      simpa [State.record] using hid
    | shutDown => exact .inl (hkept ⟨fun _ hmem => hmem, rfl⟩)
    | drain =>
      exact .inl (hkept ⟨fun h hmem => unheld_cons hmem fun _ heq => Activity.noConfusion heq, rfl⟩)
    | move h hkeeps => exact .inl (hkept (h.keepsSettled hkeeps))
  | notice h => exact .inl (hkept h.keepsSettled)
  | plain h => exact .inl (hkept h.keepsSettled)

/-- No task comes to its end twice, or has an end and goes on. -/
theorem Counted.nodup_places (h : Counted m) :
    (m.unfinished.map Claimed.id ++ (endings m.state.history).map Prod.fst).Nodup :=
  h.places.nodup_iff.1 h.fresh

/-- A task is completed once. -/
theorem Counted.completed_once (h : Counted m) {id : Nat} {past past' : List Event}
    (hpast : .completed id :: past <:+ m.state.history)
    (hpast' : .completed id :: past' <:+ m.state.history) : past = past' := by
  have hagain {older newer : List Event} (hnewer : .completed id :: newer <:+ m.state.history)
      (holder : .completed id :: older <:+ .completed id :: newer) : older = newer := by
    rcases List.suffix_cons_iff.1 holder with heq | hbefore
    · exact (List.cons.inj heq).2
    · have hmem : .completed id ∈ newer := hbefore.subset List.mem_cons_self
      have hends : ((endings m.state.history).map Prod.fst).Nodup :=
        (List.nodup_append.1 h.nodup_places).2.1
      have hsub : ((id, true) :: endings newer).Sublist (endings m.state.history) :=
        hnewer.sublist.filterMap Event.endOf?
      have htwice := hends.sublist (hsub.map Prod.fst)
      exact absurd (List.mem_map_of_mem (mem_endings.2 hmem)) (List.nodup_cons.1 htwice).1
  rcases List.suffix_or_suffix_of_suffix hpast hpast' with hle | hle
  · exact hagain hpast' hle
  · exact (hagain hpast hle).symm

/-- Where each value is found once, it is found with one element. -/
theorem eq_of_nodup_filterMap {α β : Type} {f : α → Option β} {l : List α} {a b : α} {x : β}
    (h : (l.filterMap f).Nodup) (ha : a ∈ l) (hb : b ∈ l) (hfa : f a = some x) (hfb : f b = some x) :
    a = b := by
  induction l with
  | nil => cases ha
  | cons c l ih =>
    have hrest : (l.filterMap f).Nodup := h.sublist ((List.sublist_cons_self c l).filterMap f)
    have hfound {d : α} (hd : d ∈ l) (hfd : f d = some x) (hfc : f c = some x) : False := by
      rw [List.filterMap_cons_some hfc] at h
      exact (List.nodup_cons.1 h).1 (List.mem_filterMap.2 ⟨d, hd, hfd⟩)
    rcases List.mem_cons.1 ha with rfl | hal
    · rcases List.mem_cons.1 hb with rfl | hbl
      · rfl
      · exact (hfound hbl hfb hfa).elim
    · rcases List.mem_cons.1 hb with rfl | hbl
      · exact (hfound hal hfa hfb).elim
      · exact ih hrest hal hbl

/-- A task is accepted for one asset. -/
theorem Counted.asset_unique (h : Counted m) {id : Nat} {k l : Handle}
    (hk : m.state.AcceptedFor id k) (hl : m.state.AcceptedFor id l) : k = l := by
  obtain ⟨b, data, hk⟩ := hk
  obtain ⟨b', data', hl⟩ := hl
  have hfresh := h.fresh
  rw [acceptances, List.map_filterMap] at hfresh
  have hsame := eq_of_nodup_filterMap hfresh hk hl (x := id) rfl rfl
  cases hsame
  rfl

/-- A completed task is not unfinished any more. -/
theorem Counted.ne_of_completed (h : Counted m) {id : Nat} (hid : .completed id ∈ m.state.history) :
    ∀ c ∈ m.unfinished, c.id ≠ id := by
  rintro c hc rfl
  refine (List.nodup_append.1 h.nodup_places).2.2 _ (List.mem_map_of_mem hc) _ ?_ rfl
  exact List.mem_map_of_mem (f := Prod.fst) (mem_endings.2 hid)

/-- A task in hand is not completed. -/
theorem Booked.not_completed (h : Booked m) {a : Activity} (ha : a ∈ m.underWay) {e : Entry}
    (he : a.inHand = some e.claim) : .completed e.id ∉ m.state.history :=
  fun hdone => h.counted.ne_of_completed hdone e.claim (h.custody.mem_unfinished ha he) rfl

end Completing

/-! ### An asset that one task loads -/

/-- What is logged when a task is completed. -/
def completionLine (asset : String) (state : LoadState) : Event :=
  .logged .debug "Asset task complete" [("asset", .text asset), ("state", .text state.debug)]

/-- An asset was loaded by one task: no other task was ever accepted for it, the task was
completed with the asset loaded, and client code did not set its state after that. -/
structure State.LoadedBy (s : State) (id : Nat) (h : Handle) : Prop where
  accepted : s.AcceptedFor id h
  only : ∀ other, s.AcceptedFor other h → other = id
  completed : ∃ name past, .completed id :: completionLine name .loaded :: past <:+ s.history
  untouched : ∀ state body past, .stateSet h state body :: past <:+ s.history →
    .completed id ∉ past

/-! Whether an asset was loaded by one task can be read off the history. -/

/-- The task that was accepted, and its asset. -/
def Event.acceptedFor? : Event → Option (Nat × Handle)
  | .accepted id _ h _ => some (id, h)
  | _ => none

/-- The last thing that happened is that the task was completed with its asset loaded. -/
def tellsLoaded (id : Nat) : List Event → Bool
  | .completed other :: .logged .debug "Asset task complete" [("asset", .text _), ("state", .text state)]
      :: _ => other == id && state == LoadState.loaded.debug
  | _ => false

/-- The last thing that happened is that client code set the state of the asset after the
task was completed. -/
def tellsTouched (id : Nat) (h : Handle) : List Event → Bool
  | .stateSet k _ _ :: past => k == h && (endings past).contains (id, true)
  | _ => false

theorem acceptedFor_iff {s : State} {id : Nat} {h : Handle} :
    s.AcceptedFor id h ↔ (id, h) ∈ s.history.filterMap Event.acceptedFor? := by
  rw [List.mem_filterMap]
  constructor
  · rintro ⟨b, data, hmem⟩
    exact ⟨_, hmem, rfl⟩
  · rintro ⟨e, he, heq⟩
    cases e <;> simp only [Event.acceptedFor?, Option.some.injEq, Prod.mk.injEq, reduceCtorEq] at heq
    obtain ⟨rfl, rfl⟩ := heq
    exact ⟨_, _, he⟩

theorem tellsLoaded_iff {id : Nat} {l : List Event} :
    tellsLoaded id l = true ↔ ∃ name past, l = .completed id :: completionLine name .loaded :: past := by
  constructor
  · intro h
    unfold tellsLoaded at h
    split at h
    · simp only [Bool.and_eq_true, beq_iff_eq] at h
      obtain ⟨rfl, rfl⟩ := h
      exact ⟨_, _, rfl⟩
    · cases h
  · rintro ⟨name, past, rfl⟩
    simp [tellsLoaded, completionLine]

theorem tellsTouched_iff {id : Nat} {h : Handle} {l : List Event} :
    tellsTouched id h l = true ↔
      ∃ state body past, l = .stateSet h state body :: past ∧ .completed id ∈ past := by
  constructor
  · intro htouched
    unfold tellsTouched at htouched
    split at htouched
    · simp only [Bool.and_eq_true, beq_iff_eq, List.contains_iff_mem] at htouched
      obtain ⟨rfl, hdone⟩ := htouched
      exact ⟨_, _, _, rfl, mem_endings.1 hdone⟩
    · cases htouched
  · rintro ⟨state, body, past, rfl, hdone⟩
    simp [tellsTouched, mem_endings.2 hdone]

theorem loadedBy_iff {s : State} {id : Nat} {h : Handle} : s.LoadedBy id h ↔
    (id, h) ∈ s.history.filterMap Event.acceptedFor? ∧
      (∀ p ∈ s.history.filterMap Event.acceptedFor?, p.2 = h → p.1 = id) ∧
      (∃ l ∈ s.history.tails, tellsLoaded id l = true) ∧
      ∀ l ∈ s.history.tails, tellsTouched id h l = false := by
  constructor
  · -- being told with a past is the same as heading a tail of the history
    rintro ⟨haccepted, honly, ⟨name, past, hcompleted⟩, huntouched⟩
    refine ⟨acceptedFor_iff.1 haccepted, fun p hp heq => ?_, ?_, fun l hl => ?_⟩
    · exact honly p.1 (acceptedFor_iff.2 (heq ▸ hp))
    · exact ⟨_, (List.mem_tails _ _).2 hcompleted, tellsLoaded_iff.2 ⟨name, past, rfl⟩⟩
    · rw [← Bool.not_eq_true, tellsTouched_iff]
      rintro ⟨state, body, past, rfl, hdone⟩
      exact huntouched state body past ((List.mem_tails _ _).1 hl) hdone
  · rintro ⟨haccepted, honly, ⟨l, hl, hloaded⟩, huntouched⟩
    refine ⟨acceptedFor_iff.2 haccepted, fun other hother => ?_, ?_, fun state body past hpast hdone => ?_⟩
    · exact honly _ (acceptedFor_iff.1 hother) rfl
    · obtain ⟨name, past, rfl⟩ := tellsLoaded_iff.1 hloaded
      exact ⟨name, past, (List.mem_tails _ _).1 hl⟩
    · have hnot := huntouched _ ((List.mem_tails _ _).2 hpast)
      rw [tellsTouched_iff.2 ⟨state, body, past, rfl, hdone⟩] at hnot
      cases hnot

instance (s : State) (id : Nat) (h : Handle) : Decidable (s.LoadedBy id h) :=
  decidable_of_iff _ loadedBy_iff.symm

/-- The asset was staged if the task is completed, and not before; from then on it is
loaded until it is destroyed. -/
structure Scene.StagedBy (c : Scene) (id : Nat) (h : Handle) : Prop where
  before : .completed id ∉ c.state.history → (stagedIn c.state.history).count h = 0
  after : .completed id ∈ c.state.history → (stagedIn c.state.history).count h = 1 ∧
    ((c.state.asset h).destroyed = false → (c.state.asset h).state.isLoaded = true)

section Loading

variable {c d : Scene} {f : Moment} {id : Nat} {h : Handle}

theorem LoadState.debug_inj {a b : LoadState} (h : a.debug = b.debug) : a = b := by
  revert h
  cases a <;> cases b <;> decide

theorem NoticeStride.stagedIn_eq (h : NoticeStride c d) :
    stagedIn d.state.history = stagedIn c.state.history := by
  cases h <;> rfl

/-- No more loads are staged than were ever staged. -/
theorem Occurs.staged_le (hc : Occurs c) (h : Handle) :
    c.state.notices.staged.count h ≤ (stagedIn c.state.history).count h := by
  refine hc.invariant (P := fun c => c.state.notices.staged.count h ≤
    (stagedIn c.state.history).count h) (fun p => ?_) fun c d _ hstride hm => ?_
  · unfold Session.start
    dsimp only
    split <;> exact Nat.le_refl _
  · rcases hstride.notices_or_same with hsame | hnotice | ⟨e, u, -, rfl⟩
    · rw [hsame.notices, hsame.stagedIn]
      exact hm
    · rw [hnotice.stagedIn_eq]
      cases hnotice with
      | takeUp | clear => exact Nat.zero_le _
      | _ => exact hm
    · rw [notices_taskEnded, (Prod.mk.inj (loadEvents_taskEnded c.state e)).2]
      split
      · rw [List.count_append, List.count_singleton, List.count_cons]
        exact Nat.add_le_add_right hm _
      · exact hm

/-- What was staged was made. -/
theorem Occurs.known_of_staged (hc : Occurs c) (hstaged : h ∈ stagedIn c.state.history) :
    h < c.state.assets.size := by
  have hborn : BornOnce c.toMoment := hc.moves_invariant BornOnce.start BornOnce.move
  refine Nat.lt_of_not_le fun hge => ?_
  obtain ⟨e, he, heq⟩ := List.mem_filterMap.1 hstaged
  have htook : e = .took .notice h := by
    unfold Event.staging? at heq
    split at heq
    · cases heq
      rfl
    · cases heq
  exact hborn.unmade h hge e he (.inl (by simp [htook, Event.takes]))

theorem endings_taskEnded (s : State) (e : Entry) :
    endings (s.taskEnded e).history = (e.id, true) :: endings s.history := by
  have hquiet : closings (if (s.asset e.asset).state.isLoaded then s.staged e.asset else s).history =
      closings s.history := by
    split
    · exact closings_referenced s .notice e.asset
    · rfl
  rw [State.taskEnded, State.history_letGo, ← (Prod.mk.inj hquiet).1]
  rfl

/-- What a completed task leaves in the history. -/
theorem history_taskEnded (s : State) (e : Entry) :
    (s.taskEnded e).history = .dropped .task e.asset :: .completed e.id ::
      completionLine (s.asset e.asset).displayName (s.asset e.asset).state ::
        (if (s.asset e.asset).state.isLoaded then s.staged e.asset else s).history := by
  rw [State.taskEnded, State.history_letGo]
  rfl

/-- The task of an activity in whose hands it is was accepted for its asset. -/
theorem Trusted.acceptedFor {m : Moment} (hm : Trusted m) {a : Activity} (ha : a ∈ m.underWay)
    {e : Entry} (he : e.tag ∈ a.tags) : m.state.AcceptedFor e.id e.asset := by
  obtain ⟨data, haccepted⟩ := hm e.tag (Moment.mem_tags ha he)
  exact ⟨e.body, data, haccepted⟩

theorem State.AcceptedFor.later {s t : State} (hs : s.AcceptedFor id h)
    (hst : s.history <:+ t.history) : t.AcceptedFor id h := by
  obtain ⟨b, data, haccepted⟩ := hs
  exact ⟨b, data, hst.subset haccepted⟩

/-- What a stride does to a load that one task stages: nothing, or the task is completed. -/
theorem Stride.loading_or (hstride : Stride c d) (hc : Occurs c) (hf : Counted f)
    (hload : f.state.LoadedBy id h) (hpast : d.state.history <:+ f.state.history) :
    ((stagedIn d.state.history).count h = (stagedIn c.state.history).count h ∧
        (.completed id ∈ d.state.history → .completed id ∈ c.state.history)) ∨
      ∃ e u, c.underWay = .ended e :: u ∧ e.id = id ∧ e.asset = h ∧
        d = ⟨⟨u, c.state.taskEnded e⟩, c.due⟩ := by
  have hcompletes {e : Entry} {u : List Activity} (hu : c.underWay = .ended e :: u)
      (hd : d = ⟨⟨u, c.state.taskEnded e⟩, c.due⟩) :
      ((stagedIn d.state.history).count h = (stagedIn c.state.history).count h ∧
          (.completed id ∈ d.state.history → .completed id ∈ c.state.history)) ∨
        ∃ e u, c.underWay = .ended e :: u ∧ e.id = id ∧ e.asset = h ∧
          d = ⟨⟨u, c.state.taskEnded e⟩, c.due⟩ := by
    have haccepted : f.state.AcceptedFor e.id e.asset := by
      refine .later (hc.booked.trusted.acceptedFor (a := .ended e) ?_ (List.mem_singleton.2 rfl))
        (hstride.moves.extends.history.trans hpast)
      exact hu ▸ List.mem_cons_self
    -- no other task loads this asset, so its completion is the one looked for
    by_cases hasset : e.asset = h
    · exact .inr ⟨e, u, hu, hload.only e.id (hasset ▸ haccepted), hasset, hd⟩
    · have hid : e.id ≠ id := fun heq =>
        hasset (hf.asset_unique (heq ▸ haccepted) hload.accepted)
      refine .inl ⟨?_, fun hdone => ?_⟩
      · rw [hd, (Prod.mk.inj (loadEvents_taskEnded c.state e)).2]
        split
        · exact List.count_cons_of_ne hasset
        · rfl
      · rw [← mem_endings, hd, endings_taskEnded] at hdone
        rcases List.mem_cons.1 hdone with heq | hold
        · exact absurd (Prod.mk.inj heq).1.symm hid
        · exact mem_endings.1 hold
  -- a stride that completes nothing stages nothing either
  rcases hstride.completed_or hc.settled with hkept | ⟨e, u, hu, hd⟩
  · rcases hstride.notices_or_same with hsame | hnotice | ⟨e, u, hu, hd⟩
    · exact .inl ⟨congrArg (List.count h) hsame.stagedIn, hkept id⟩
    · exact .inl ⟨congrArg (List.count h) hnotice.stagedIn_eq, hkept id⟩
    · exact hcompletes hu hd
  · exact hcompletes hu hd

theorem Scene.StagedBy.stride (hm : c.StagedBy id h) (hc : Occurs c) (hstride : Stride c d)
    (hf : Counted f) (hload : f.state.LoadedBy id h)
    (hpast : d.state.history <:+ f.state.history) : d.StagedBy id h := by
  have hmore : c.state.history <:+ d.state.history := hstride.moves.extends.history
  have hbooked := hc.booked
  rcases hstride.loading_or hc hf hload hpast with ⟨hstagings, hcompleted⟩ | ⟨e, u, hu, hid, hasset, rfl⟩
  · -- nothing was staged for the asset; its state may still have been touched
    refine ⟨fun hopen => ?_, fun hdone => ?_⟩
    · rw [hstagings]
      exact hm.before fun hdone => hopen (hmore.subset hdone)
    · obtain ⟨hone, hloaded⟩ := hm.after (hcompleted hdone)
      refine ⟨hstagings.trans hone, fun hwhole => ?_⟩
      have hknown : h < c.state.assets.size :=
        hc.known_of_staged (List.count_pos_iff.1 (by rw [hone]; exact Nat.one_pos))
      have hbefore : (c.state.asset h).destroyed = false := by
        rw [← Bool.not_eq_true]
        intro hgone
        have hlater := (hstride.moves.gone ⟨hknown, hgone⟩).2
        rw [hwhole] at hlater
        cases hlater
      have hloaded := hloaded hbefore
      -- a state that nobody touched since stays loaded
      rcases hstride.state_eq_or hc.reckoned.dying hknown hwhole with hsame | hset | hnone | ⟨e, u, hu, he⟩
      · rw [hsame]
        exact hloaded
      · obtain ⟨state, body, hset⟩ := hset
        exact absurd (hcompleted hdone) (hload.untouched state body _ (hset ▸ hpast))
      · rw [hnone] at hloaded
        cases hloaded
      · have hhead : .concluding e false ∈ c.underWay := hu ▸ List.mem_cons_self
        have haccepted := hbooked.trusted.acceptedFor hhead (List.mem_singleton.2 rfl)
        have hid : e.id = id := by
          refine hload.only e.id (.later ?_ (hmore.trans hpast))
          rwa [he] at haccepted
        exact absurd (hid ▸ hcompleted hdone) (hbooked.not_completed hhead rfl)
  · -- here the task is completed: it found the asset loaded, as the log line says
    have hhistory := history_taskEnded c.state e
    have hloaded : (c.state.asset e.asset).state = .loaded := by
      obtain ⟨name, before, hbefore⟩ := hload.completed
      have hthis : .completed e.id :: completionLine (c.state.asset e.asset).displayName
          (c.state.asset e.asset).state :: _ <:+ f.state.history :=
        (List.suffix_cons _ _).trans (hhistory ▸ hpast)
      rw [hid] at hthis
      have hline := (List.cons.inj (hf.completed_once hthis hbefore)).1
      simp only [completionLine, Event.logged.injEq, List.cons.injEq, Prod.mk.injEq,
        Field.text.injEq] at hline
      exact LoadState.debug_inj hline.2.2.2.1.2
    have hdone : .completed id ∈ (c.state.taskEnded e).history := by
      rw [hhistory, ← hid]
      exact List.mem_cons_of_mem _ List.mem_cons_self
    have hopen : .completed id ∉ c.state.history :=
      hid ▸ hbooked.not_completed (a := .ended e) (hu ▸ List.mem_cons_self) rfl
    refine ⟨fun hnot => absurd hdone hnot, fun _ => ⟨?_, fun _ => ?_⟩⟩
    · rw [(Prod.mk.inj (loadEvents_taskEnded c.state e)).2, hloaded,
        if_pos (show LoadState.loaded.isLoaded = true from rfl), ← hasset,
        List.count_cons_self, hasset, hm.before hopen]
    · rw [← hasset, state_taskEnded, hloaded]
      rfl

theorem Occurs.stagedBy (hc : Occurs c) (hf : Counted f) (hload : f.state.LoadedBy id h)
    (hpast : c.state.history <:+ f.state.history) : c.StagedBy id h := by
  refine hc.invariant (P := fun c => c.state.history <:+ f.state.history → c.StagedBy id h)
    (fun p _ => ?_) (fun c d hc hstride hm hpast => ?_) hpast
  · have hempty : calledIn p.start.history = [] ∧ stagedIn p.start.history = [] ∧
        .completed id ∉ p.start.history := by
      unfold Session.start
      dsimp only
      split
      · exact ⟨rfl, rfl, by simp [State.record]⟩
      · exact ⟨rfl, rfl, List.not_mem_nil⟩
    refine ⟨fun _ => ?_, fun hdone => absurd hdone hempty.2.2⟩
    show (stagedIn p.start.history).count h = 0
    rw [hempty.2.1]
    rfl
  · have hbefore := hm (hstride.moves.extends.history.trans hpast)
    exact hbefore.stride hc hstride hf hload hpast

/-- When an asset that one task loads is whole, so it was before. -/
theorem Strides.whole_before (hcd : Strides c d) (hc : h < c.state.assets.size)
    (hwhole : (d.state.asset h).destroyed = false) : (c.state.asset h).destroyed = false := by
  rw [← Bool.not_eq_true]
  intro hgone
  have hlater := (hcd.moves.gone ⟨hc, hgone⟩).2
  rw [hwhole] at hlater
  cases hlater

/-- Whether a new subscriber is called at once. -/
def Scene.callsNow (c : Scene) (h : Handle) : Nat :=
  if (c.state.asset h).state.isLoaded && !c.state.notices.staged.contains h then 1 else 0

/-- Before the task is completed nothing is staged, so a new subscriber is called at once
if the asset is loaded already. -/
theorem Scene.StagedBy.callsNow_of_open (hm : c.StagedBy id h) (hc : Occurs c)
    (hopen : .completed id ∉ c.state.history) :
    c.callsNow h + c.state.notices.staged.count h =
      if (c.state.asset h).state.isLoaded then 1 else 0 := by
  have hunstaged : c.state.notices.staged.count h = 0 :=
    Nat.le_zero.1 (hm.before hopen ▸ hc.staged_le h)
  have hcontains : c.state.notices.staged.contains h = false := by
    rw [← Bool.not_eq_true, List.contains_iff_mem]
    exact List.count_eq_zero.1 hunstaged
  unfold Scene.callsNow
  rw [hcontains, hunstaged, Bool.not_false, Bool.and_true]
  rfl

/-- After that, a new subscriber is called at once, or the load is staged still. -/
theorem Scene.StagedBy.callsNow_of_completed (hm : c.StagedBy id h) (hc : Occurs c)
    (hdone : .completed id ∈ c.state.history) (hwhole : (c.state.asset h).destroyed = false) :
    c.callsNow h + c.state.notices.staged.count h = 1 := by
  obtain ⟨hone, hloaded⟩ := hm.after hdone
  have hle := hc.staged_le h
  unfold Scene.callsNow
  rw [hloaded hwhole, Bool.true_and]
  by_cases hmem : h ∈ c.state.notices.staged
  · have hpos := List.count_pos_iff.2 hmem
    rw [List.contains_iff_mem.2 hmem]
    show 0 + _ = 1
    omega
  · have hcontains : c.state.notices.staged.contains h = false := by
      rw [← Bool.not_eq_true, List.contains_iff_mem]
      exact hmem
    rw [hcontains, List.count_eq_zero.2 hmem]
    rfl

/-- A delivery leaves no call behind: when it has finished, a subscription that was there
has been called for every load that was staged, if no more are staged meanwhile. -/
theorem calls_of_deliver (hc : Occurs c) {label : String} {code : Script} {u : List Activity}
    {s t : State} {due : List (List Subscription)}
    (hcs : Strides (c.subscribed h label code) ⟨⟨u, s⟩, due⟩)
    (hkept : c.subscription h label code ∈ s.notices.subscribers h)
    (hwhole : (s.asset h).destroyed = false) {fuel n : Nat} {thread : Thread}
    (hdeliver : deliver (run fuel) thread s = .ok n t)
    (hquiet : (stagedIn t.history).count h = (stagedIn s.history).count h) :
    (Scene.calls ⟨⟨u, t⟩, due⟩).count (c.subscription h label code).id +
        (stagedIn c.state.history).count h =
      c.callsNow h + c.state.notices.staged.count h + (stagedIn s.history).count h := by
  let calls (d : Scene) : Nat := d.calls.count (c.subscription h label code).id
  have hsubscribed := hc.strides (.single (stride_subscribed h label code c))
  have hs := hsubscribed.strides hcs
  have htaken := hs.strides (.single (stride_takenUp _))
  have hknows := (hcs.advances hsubscribed.numbered
    (hc.numbered.knows_subscription h label code)).1
  -- the balance of calls and load events at three moments: before the delivery,
  have hbefore : calls ⟨⟨u, s⟩, due⟩ + s.notices.staged.count h + (stagedIn c.state.history).count h =
      c.callsNow h + c.state.notices.staged.count h + (stagedIn s.history).count h :=
    calls_of_subscription h label code hc hcs hkept
  -- when it has taken up what was staged,
  have htaking : calls (Scene.takenUp ⟨⟨u, s⟩, due⟩) + 0 + (stagedIn s.history).count h =
      calls ⟨⟨u, s⟩, due⟩ + s.notices.staged.count h + (stagedIn s.history).count h := by
    refine ((stride_takenUp ⟨⟨u, s⟩, due⟩).advances hs.numbered hknows).exact ?_
    show _ ∈ (s.notices.prune fun sub => !(s.asset sub.asset).destroyed).subscribers h
    rw [Notices.subscribers_prune _ h hs.numbered.keys]
    refine List.mem_filter.2 ⟨hkept, ?_⟩
    show (!(s.asset h).destroyed) = true
    rw [hwhole]
    rfl
  -- and at its end, where both bounds meet since nothing new was staged
  obtain ⟨-, hmore⟩ := (strides_of_deliver hdeliver).advances htaken.numbered
    (hknows.stride hs.numbered (stride_takenUp _))
  have hatLeast : calls (Scene.takenUp ⟨⟨u, s⟩, due⟩) ≤ calls ⟨⟨u, t⟩, due⟩ := hmore.mono
  have hatMost : calls ⟨⟨u, t⟩, due⟩ + t.notices.staged.count h + (stagedIn s.history).count h ≤
      calls (Scene.takenUp ⟨⟨u, s⟩, due⟩) + 0 + (stagedIn t.history).count h := hmore.atMost
  show calls ⟨⟨u, t⟩, due⟩ + _ = _
  omega

end Loading

/-- **One notification per load.** An asset is loaded by one task, and someone subscribes
to it at any moment of the run. When a delivery that follows the completion of the task
and the subscription has finished, and the subscription is still there, then the
subscriber has been called once for the load, or will be by a delivery that is under way
around this one; but twice if the asset was loaded when the subscription was made and
its task was not completed. -/
theorem notified_of_load {c : Scene} (hc : Occurs c) (h : Handle) (label : String) (code : Script)
    {u : List Activity} {s t : State} {due : List (List Subscription)}
    (hcs : Strides (c.subscribed h label code) ⟨⟨u, s⟩, due⟩)
    (hkept : c.subscription h label code ∈ s.notices.subscribers h)
    (hwhole : (s.asset h).destroyed = false) {id : Nat} (hdone : .completed id ∈ s.history)
    {fuel n : Nat} {thread : Thread} (hdeliver : deliver (run fuel) thread s = .ok n t)
    (hload : t.LoadedBy id h) :
    (((c.state.asset h).state.isLoaded = true → .completed id ∈ c.state.history) →
      (Scene.calls ⟨⟨u, t⟩, due⟩).count (c.subscription h label code).id = 1) ∧
    ((c.state.asset h).state.isLoaded = true → .completed id ∉ c.state.history →
      (Scene.calls ⟨⟨u, t⟩, due⟩).count (c.subscription h label code).id = 2) := by
  have hfirst := stride_subscribed h label code c
  have hs := (hc.strides (.single hfirst)).strides hcs
  have hrest : Strides ⟨⟨u, s⟩, due⟩ ⟨⟨u, t⟩, due⟩ :=
    .head (stride_takenUp _) (strides_of_deliver hdeliver)
  have ht := hs.strides hrest
  have hcounted : Counted ⟨u, t⟩ := ht.booked.counted
  have hst : s.history <:+ t.history := hrest.moves.extends.history
  have hcs' : c.state.history <:+ s.history := hcs.moves.extends.history
  -- the load was staged once, when the task was completed
  have hstagedAtS : (stagedIn s.history).count h = 1 :=
    ((hs.stagedBy hcounted hload hst).after hdone).1
  have hstagedAtT : (stagedIn t.history).count h = 1 :=
    ((ht.stagedBy hcounted hload (List.suffix_refl _)).after (hst.subset hdone)).1
  have hstagedAtC := hc.stagedBy hcounted hload (hcs'.trans hst)
  have hcalls := calls_of_deliver hc hcs hkept hwhole hdeliver (hstagedAtT.trans hstagedAtS.symm)
  have hopen (hnot : .completed id ∉ c.state.history) :
      (Scene.calls ⟨⟨u, t⟩, due⟩).count (c.subscription h label code).id =
        (if (c.state.asset h).state.isLoaded then 1 else 0) + 1 := by
    have hnow := hstagedAtC.callsNow_of_open hc hnot
    have hstaged := hstagedAtC.before hnot
    omega
  refine ⟨fun himp => ?_, fun hloaded hnot => ?_⟩
  · by_cases hdone : .completed id ∈ c.state.history
    · have hstaged := (hstagedAtC.after hdone).1
      have hknown : h < c.state.assets.size :=
        hc.known_of_staged (List.count_pos_iff.1 (by rw [hstaged]; exact Nat.one_pos))
      have hbefore := Strides.whole_before (.head hfirst hcs) hknown hwhole
      have hnow := hstagedAtC.callsNow_of_completed hc hdone hbefore
      omega
    · rw [hopen hdone, if_neg fun hloaded => hdone (himp hloaded)]
  · rw [hopen hnot, if_pos hloaded]

/-- A task whose first action leaves the asset loaded, and the actions that follow. -/
def loadPlan (rest : List (Action Script)) : TaskPlan Script where
  name := "load"
  asset := .labelled "mesh"
  priority := 0
  complexity := 0
  data := []
  actions := ⟨.worker, [Op.anyway (.setState .surrounding .loaded)], true⟩ :: rest
  onFailure := none
  onFree := none

/-- A session without workers, in which a task is queued for an asset. -/
def loadQueued (rest : List (Action Script)) : State :=
  (Session.bare .single).start.after 8
    [(.main, .findOrCreate "mesh" (.standard .mesh) (.ofId ⟨1⟩)), (.main, .enqueue (loadPlan rest))]

/-- Someone subscribes before the only action runs. -/
@[irreducible]
def subscribedEarly : State :=
  (loadQueued []).afterRun (subscribe (run 8) .main 0 "s" [])

/-- The task is completed. -/
@[irreducible]
def loadedOnce : State :=
  subscribedEarly.after 8 [(.main, .work)]

/-- The load is delivered. -/
@[irreducible]
def deliveredOnce : State :=
  loadedOnce.afterRun (deliver (run 8) .main)

theorem deliveredOnce_notified :
    Occurs ⟨⟨[], loadQueued []⟩, []⟩ ∧ deliveredOnce.LoadedBy 1 0 ∧
      (Scene.calls ⟨⟨[], deliveredOnce⟩, []⟩).count 0 = 1 := by
  have hoccurs : Occurs ⟨⟨[], loadQueued []⟩, []⟩ := ((Reached.start _).after 8 _).occurs
  obtain ⟨id, hsubscribe⟩ : ∃ id, subscribe (run 8) .main 0 "s" [] (loadQueued []) =
      .ok id subscribedEarly := by
    unfold subscribedEarly
    exact State.run_of_isOk (by decide +kernel)
  obtain ⟨n, hdeliver⟩ : ∃ n, deliver (run 8) .main loadedOnce = .ok n deliveredOnce := by
    unfold deliveredOnce
    exact State.run_of_isOk (by decide +kernel)
  have hwork : Strides ⟨⟨[], subscribedEarly⟩, []⟩ ⟨⟨[], loadedOnce⟩, []⟩ := by
    unfold loadedOnce
    exact State.strides_after _ 8 _
  have hload : deliveredOnce.LoadedBy 1 0 := by decide +kernel
  have hmade : Strides (Scene.subscribed ⟨⟨[], loadQueued []⟩, []⟩ 0 "s" [])
      ⟨⟨[], subscribedEarly⟩, []⟩ := (strides_of_subscribe 0 "s" [] hsubscribe).2
  -- contents of a list of subscriptions are compared without their code
  have hlisted : (0, 0, "s", 0) ∈ (loadedOnce.notices.subscribers 0).map fun sub =>
      (sub.id, sub.asset, sub.label, sub.code.length) := by decide +kernel
  have hkept : Scene.subscription ⟨⟨[], loadQueued []⟩, []⟩ 0 "s" [] ∈
      loadedOnce.notices.subscribers 0 := by
    obtain ⟨⟨id, asset, label, code⟩, hsub, heq⟩ := List.mem_map.1 hlisted
    obtain ⟨rfl, rfl, rfl, hcode⟩ := by simpa only [Prod.mk.injEq] using heq
    rw [List.eq_nil_of_length_eq_zero hcode] at hsub
    have hid : (loadQueued []).notices.nextId = 0 := by decide +kernel
    show (⟨(loadQueued []).notices.nextId, 0, "s", []⟩ : Subscription) ∈ _
    rw [hid]
    exact hsub
  refine ⟨hoccurs, hload, ?_⟩
  refine (notified_of_load hoccurs 0 "s" [] (hmade.trans hwork) hkept ?_ ?_ hdeliver hload).1
    fun hloaded => ?_
  · decide +kernel
  · rw [← mem_endings]
    decide +kernel
  · exact absurd hloaded (by decide +kernel)

/-- The first of two actions has run; then someone subscribes, and the task is completed
and its load delivered. -/
@[irreducible]
def subscribedMidway : State :=
  (loadQueued [⟨.worker, [], true⟩]).after 8
    [(.main, .step 1), (.main, .onLoad (.labelled "mesh") "s" []), (.main, .step 1)]

/-- Client code set the load state of an asset outside of tasks. -/
def Event.setsFreely : Event → Bool
  | .stateSet _ _ none => true
  | _ => false

/-- Whoever subscribes to an asset that is loaded while its task is not completed is
called twice for the one load. -/
theorem load_can_be_notified_twice :
    Reached subscribedMidway ∧ subscribedMidway.LoadedBy 1 0 ∧
      subscribedMidway.history.any Event.setsFreely = false ∧
      (subscribedMidway.asset 0).destroyed = false ∧ subscribedMidway.notices.staged = [] ∧
      (subscribedMidway.notices.subscribers 0).map Subscription.id = [0] ∧
      calledIn subscribedMidway.history = [0, 0] := by
  refine ⟨?_, by decide +kernel, by decide +kernel, by decide +kernel, by decide +kernel,
    by decide +kernel, by decide +kernel⟩
  unfold subscribedMidway loadQueued
  exact ((Reached.start _).after 8 _).after 8 _

end AssetLoading

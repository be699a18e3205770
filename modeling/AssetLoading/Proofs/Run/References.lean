import AssetLoading.Proofs.Run.Traced

/-! # Tracing references and registries

  Taking and dropping references, destroying assets, and finding, making and
  naming them.
-/

namespace AssetLoading

/-! ### Log lines -/

theorem leads_record_line (u : List Activity) {e : Event} (he : e.IsLine) :
    Leads u (record e) u :=
  fun _ _ => .one (.plain (.note e he)) rfl ⟨rfl, rfl⟩

theorem leads_log (u : List Activity) (level : Level) (message : String)
    (fields : List (String × Field)) : Leads u (log level message fields) u :=
  leads_record_line u trivial

theorem Leads.getAsset (u : List Activity) (h : Handle) : Leads u (getAsset h) u :=
  fun s due => ⟨⟨⟨u, s⟩, due⟩, .refl, rfl, rfl, rfl⟩

/-- Code that begins by looking at an asset. -/
theorem TracedFrom.lookAsset {β : Type} {c : Scene} {s : State} {R : β → Scene → Prop} {h : Handle}
    {g : Asset → Exec β} (hg : TracedFrom c s (g (s.asset h)) R) :
    TracedFrom c s (AssetLoading.getAsset h >>= g) R :=
  hg

/-! ### Taking -/

/-- What taking a reference comes to. -/
theorem addref_run (holder : Holder) (h : Handle) (s : State) :
    addref holder h s =
      if (s.asset h).destroyed then
        .error (.fatal (.addedToDestroyed holder h (s.asset h).category (s.asset h).displayName)) s
      else .ok () (s.referenced holder h) := by
  show (if (s.asset h).destroyed = true then _ else _ : Exec Unit) s = _
  split
  next => rfl
  next =>
    unfold State.referenced
    split
    next => rfl
    next => rfl

/-- A reference that no part of the scheduler holds. -/
theorem leads_addref {u : List Activity} {holder : Holder} {h : Handle}
    (hholder : holder.isScheduler = false) : Leads u (addref holder h) u := by
  intro s due
  have hrun := addref_run holder h s
  split at hrun
  next hgone =>
    unfold Traced TracedFrom
    simp only [hrun]
    exact ⟨⟨u, s⟩, .refl, rfl, hgone, by rintro rfl; cases hholder⟩
  next hwhole =>
    rw [Bool.not_eq_true] at hwhole
    exact .one (.asset (.take holder h hholder (.inl hwhole))) hrun ⟨rfl, rfl⟩

/-! ### Dropping -/

theorem refs_dropped (s : State) (holder : Holder) (h : Handle) (hsome : 0 < (s.asset h).refs) :
    ((s.dropped holder h).asset h).refs = (s.asset h).refs - 1 := by
  have hknown : h < s.assets.size := by
    refine Nat.lt_of_not_le fun hh => ?_
    rw [State.asset_of_size_le hh] at hsome
    exact absurd hsome (by decide)
  rw [State.asset_dropped, if_pos ⟨rfl, hknown⟩]

theorem refs_dropped_neg {s : State} (holder : Holder) {h : Handle} (hnone : (s.asset h).refs ≤ 0) :
    ((s.dropped holder h).asset h).refs < 0 := by
  rw [State.asset_dropped]
  split
  next => exact Int.sub_one_lt_of_le hnone
  next hunknown =>
    have hh : s.assets.size ≤ h := Nat.le_of_not_lt fun hlt => hunknown ⟨rfl, hlt⟩
    rw [State.asset_of_size_le hh]
    decide

/-- What dropping a reference comes to. -/
theorem dropRef_run (holder : Holder) (h : Handle) (s : State) :
    dropRef holder h s =
      let t := s.dropped holder h
      let a := t.asset h
      if a.refs < 0 then
        .error (.fatal (.releasedTooMany holder h a.category a.displayName a.refs a.state)) t
      else .ok a.refs t := by
  show (if ((s.dropped holder h).asset h).refs < 0 then _ else _ : Exec Int)
    (s.dropped holder h) = _
  dsimp only
  split <;> rfl

/-- There was no reference to drop. -/
theorem endsIn_dropped {u : List Activity} {s : State} (holder : Holder) {h : Handle}
    (hnone : (s.asset h).refs ≤ 0) (category : Category) (name : String) (refs : Int)
    (state : LoadState) :
    (Halt.fatal (.releasedTooMany holder h category name refs state)).EndsIn
      ⟨gained holder h u, s⟩ (s.dropped holder h) :=
  ⟨rfl, hnone, u, rfl⟩

/-- A reference is dropped if there is one. What is done with the last one is a
part of the same stride. -/
theorem traced_dropRef {β : Type} {u : List Activity} {s : State} {due : List (List Subscription)}
    {R : β → Scene → Prop} {f : Int → Exec β} (holder : Holder) (h : Handle)
    (hmore : 1 < (s.asset h).refs → ∀ refs, refs ≠ 0 →
      Traced ⟨⟨u, s.dropped holder h⟩, due⟩ (f refs) R)
    (hlast : (s.asset h).refs = 1 →
      TracedFrom ⟨⟨gained holder h u, s⟩, due⟩ (s.dropped holder h) (f 0) R) :
    Traced ⟨⟨gained holder h u, s⟩, due⟩ (dropRef holder h >>= f) R := by
  have hrun := dropRef_run holder h s
  dsimp only at hrun
  by_cases hsome : 0 < (s.asset h).refs
  · have hrefs := refs_dropped s holder h hsome
    rw [if_neg (by omega), hrefs] at hrun
    by_cases hone : (s.asset h).refs = 1
    · rw [hone] at hrun
      exact .part hrun (hlast hone)
    · have hgt : 1 < (s.asset h).refs := by omega
      exact .first (.asset (.drop holder h hgt)) hrun (hmore hgt _ (by omega))
  · have hnone := Int.not_lt.1 hsome
    rw [if_pos (refs_dropped_neg holder hnone)] at hrun
    refine .halt ?_
    unfold TracedFrom
    simp only [hrun]
    exact ⟨⟨gained holder h u, s⟩, .refl, endsIn_dropped holder hnone _ _ _ _⟩

/-- What dropping a reference comes to if the last one leaves the asset to the
main thread. -/
theorem releaseDeferred_run (r : RegistryId) (holder : Holder) (h : Handle) (s : State) :
    releaseDeferred r holder h s =
      if 0 < (s.asset h).refs then .ok () (s.letGo r holder h)
      else
        let t := s.dropped holder h
        let a := t.asset h
        .error (.fatal (.releasedTooMany holder h a.category a.displayName a.refs a.state)) t := by
  have hrun := dropRef_run holder h s
  dsimp only at hrun ⊢
  show EStateM.bind (dropRef holder h) _ s = _
  rw [EStateM.bind]
  by_cases hsome : 0 < (s.asset h).refs
  · have hrefs := refs_dropped s holder h hsome
    rw [if_neg (by omega), hrefs] at hrun
    rw [if_pos hsome, hrun]
    unfold State.letGo
    -- the last reference leaves the asset to the main thread
    by_cases hone : (s.asset h).refs = 1
    · rw [if_pos hone, hone]
      rfl
    · have hleft : (s.asset h).refs - 1 ≠ 0 := by omega
      dsimp only
      rw [if_neg hone, if_neg hleft]
      rfl
  · rw [if_pos (refs_dropped_neg holder (Int.not_lt.1 hsome))] at hrun
    rw [if_neg hsome, hrun]

/-- A reference is dropped at the end of a stride, if there is one. -/
theorem traced_letGo {u v : List Activity} {s : State} {c : Scene} {r : RegistryId} {holder : Holder}
    {h : Handle} (hc : Moves c.toMoment ⟨gained holder h u, s⟩)
    (hstride : 0 < (s.asset h).refs → Stride c ⟨⟨v, s.letGo r holder h⟩, c.due⟩) :
    TracedFrom c s (releaseDeferred r holder h) fun _ => Scene.Has v c.due := by
  have hrun := releaseDeferred_run r holder h s
  split at hrun
  next hsome => exact .one (hstride hsome) hrun ⟨rfl, rfl⟩
  next hnone =>
    unfold TracedFrom
    simp only [hrun]
    exact ⟨_, hc, endsIn_dropped holder (Int.not_lt.1 hnone) _ _ _ _⟩

theorem leads_releaseDeferred {u : List Activity} {r : RegistryId} (hr : Serves u r) (hu : MayDefer u)
    (h : Handle) : Leads u (releaseDeferred r .client h) u :=
  fun _ _ => traced_letGo .refl fun hsome => .asset (.defer r h hr hu hsome)

/-! ### Destroying -/

/-- What unlinking an asset comes to. -/
theorem unlink_run (r : RegistryId) (h : Handle) (s : State) :
    unlink r h s = .ok () (s.unlinked r h) := by
  unfold unlink State.unlinked
  rw [Exec.get_bind]
  cases (s.asset h).slot with
  | none => rfl
  | some slot =>
    dsimp only
    split
    next =>
      cases (s.registry r).linked.take? slot <;> rfl
    next => rfl

section Destroying

variable {call : Runner} (hcall : call.IsTraced) {u : List Activity} {scope : Scope}
variable (hscope : Serves u scope.registry)

include hcall hscope

/-- An asset that falls is destroyed in the same stride. -/
theorem traced_destroy {c : Scene} {h : Handle} {s : State} (hfalls : Falls h c.toMoment ⟨u, s⟩) :
    TracedFrom c s (destroy call scope h) fun _ => Scene.Has u c.due := by
  unfold destroy
  refine .lookAsset ?_
  split
  next contents hwhole hc =>
    have hadmit : Scope.Admitted { thread := scope.thread, registry := scope.registry }
        (.destroying h :: u) := Scope.admitted_of_body_eq_none rfl (hscope.cons _)
    -- from here to where the destructor returns the asset is being destroyed
    have hbegun := (hfalls.moves.tail
      (.asset (.beginDestroy h contents hwhole hc hfalls.refs_eq_zero))).trans
      (moves_note (.logged .trace "Destroying asset" [("asset", .text (s.asset h).displayName),
        ("ty", .text (s.asset h).category.name)]) trivial)
    refine .part rfl (.part rfl ?_)
    refine .bind (hcall.destructor _ h contents u _ c.due c hadmit hbegun
      (.asset (.expire h contents hfalls hwhole hc))) ?_
    rintro _ ⟨⟨v, t⟩, l⟩ ⟨rfl, rfl⟩
    refine .part (unlink_run _ _ _) ?_
    exact .first (.asset (.bury scope.registry h hscope)) rfl (.pure ⟨rfl, rfl⟩)
  next hgone =>
    -- there is nothing to destroy: it was destroyed before, or never had contents
    have hgone : (s.asset h).destroyed = true ∨ (s.asset h).contents = none := by
      cases hd : (s.asset h).destroyed with
      | true => exact .inl rfl
      | false =>
        cases hc : (s.asset h).contents with
        | none => exact .inr rfl
        | some c => exact absurd hc (hgone c hd)
    exact .first (.asset (.again h hfalls hgone)) rfl (.pure ⟨rfl, rfl⟩)

theorem leads_release (holder : Holder) (h : Handle) :
    Leads (gained holder h u) (release call scope holder h) u := by
  intro s due
  unfold release
  refine traced_dropRef holder h (fun _ refs hrefs => ?_) fun hone => ?_
  · rw [if_neg hrefs]
    exact .pure ⟨rfl, rfl⟩
  · rw [if_pos rfl]
    exact .bind (traced_destroy hcall hscope (.last holder hone)) fun _ _ hn => .pure hn

/-- The references of delivered load events. -/
theorem leads_releaseAll (hs : List Handle) :
    Leads (.releasing hs :: u) (releaseAll call scope .notice hs) u := by
  induction hs with
  | nil => exact fun s due => .turn (.notice .released) (.pure ⟨rfl, rfl⟩)
  | cons h hs ih =>
    intro s due
    unfold releaseAll
    refine .turn (.notice (.releaseNext h hs)) ?_
    exact (leads_release hcall (hscope.cons _) .notice h).first fun _ t => ih t due

/-- References that no part of the scheduler holds. -/
theorem leads_swapReference (holder : Holder) (hholder : holder.isScheduler = false)
    (old new : Option Handle) : Leads u (swapReference call scope holder old new) u := by
  have hgained (h : Handle) (v : List Activity) : gained holder h v = v := by
    rw [gained, hholder]
    rfl
  have hold : Leads u (swapReference call scope holder old none) u := by
    cases old with
    | none => exact .pure u ()
    | some h =>
      have hrelease := leads_release hcall hscope holder h
      rwa [hgained] at hrelease
  cases new with
  | none => exact hold
  | some h => exact (leads_addref hholder).bind fun _ => hold

theorem leads_releaseDependencies (ds : List (Option Handle)) :
    Leads u (releaseDependencies call scope ds) u := by
  induction ds with
  | nil => exact .pure u ()
  | cons d ds ih =>
    exact (leads_swapReference hcall hscope .dependency rfl d none).bind fun _ => ih

theorem leads_destroyUnreferenced (hs : List Handle) :
    Leads (.flushing hs :: u) (destroyUnreferenced call scope hs) u := by
  induction hs with
  | nil => exact fun s due => .turn (.asset .flushed) (.pure ⟨rfl, rfl⟩)
  | cons h hs ih =>
    intro s due
    unfold destroyUnreferenced
    refine .lookAsset ?_
    split
    next hnone =>
      have hfalls : Falls h ⟨.flushing (h :: hs) :: u, s⟩ ⟨.flushing hs :: u, s⟩ :=
        .visited hs hnone
      refine .bind (traced_destroy hcall (hscope.cons _) hfalls) ?_
      rintro done ⟨⟨v, t⟩, l⟩ ⟨rfl, rfl⟩
      exact ih.first fun rest t => .pure ⟨rfl, rfl⟩
    next hsome =>
      refine .turn (.asset (.skip h hs hsome)) ?_
      exact (leads_log _ _ _ _).first fun _ t => ih t due

theorem leads_flush : Leads u (flush call scope) u := by
  intro s due
  unfold flush
  refine .look ?_
  exact .first (.asset (.flush scope.registry)) rfl (leads_destroyUnreferenced hcall hscope _ _ due)

end Destroying

/-! ### Leaks -/

theorem leads_logLeaks (u : List Activity) (hs : List Handle) : Leads u (logLeaks hs) u := by
  induction hs with
  | nil => exact .pure u ()
  | cons h hs ih =>
    exact (Leads.getAsset u h).bind fun _ => (leads_log u _ _ _).bind fun _ => ih

theorem leads_reportLeaks (u : List Activity) (r : RegistryId) : Leads u (reportLeaks r) u := by
  intro s due
  unfold reportLeaks
  refine .look ?_
  dsimp only
  split
  next => exact .pure ⟨rfl, rfl⟩
  next =>
    refine (leads_logLeaks u _).first fun _ t => ?_
    exact (leads_log u _ _ _).first fun _ t => .pure ⟨rfl, rfl⟩

/-! ### Finding, making and naming -/

/-- A reference on a live asset. -/
theorem take_run {s : State} (holder : Holder) {h : Handle} (hlive : 0 < (s.asset h).refs) :
    take holder h s = .ok () (s.referenced holder h) := by
  unfold State.referenced
  rw [if_neg (by omega)]
  rfl

/-- Nothing is found only if nothing answers to the id and the category. -/
theorem traced_findAddref {u : List Activity} {s : State} {due : List (List Subscription)}
    (r : RegistryId) (id : AssetId) (category : Category) :
    Traced ⟨⟨u, s⟩, due⟩ (findAddref r id category) fun found d =>
      d.Has u due ∧ (found = none → d.state.find? r id category = none) := by
  unfold findAddref
  refine .look ?_
  dsimp only
  split
  next hfind => exact .pure ⟨⟨rfl, rfl⟩, fun _ => hfind⟩
  next h hfind =>
    have hlive : 0 < (s.asset h).refs := by
      have hp := List.find?_some hfind
      simp only [State.answersTo, Bool.and_eq_true, decide_eq_true_eq] at hp
      exact hp.2
    exact .first (.asset (.take .client h rfl (.inr hlive))) (take_run .client hlive)
      (.pure ⟨⟨rfl, rfl⟩, nofun⟩)

/-- An asset is made only under an id that no live asset of its category has. -/
theorem traced_insertAsset {u : List Activity} {s : State} {due : List (List Subscription)}
    {r : RegistryId} {kind : Kind} {key : Key} (hr : Serves u r)
    (hfree : s.find? r key.id kind.category = none) :
    Traced ⟨⟨u, s⟩, due⟩ (insertAsset r kind key) fun _ => Scene.Has u due := by
  unfold insertAsset
  refine .look ?_
  dsimp only
  split
  next e he => exact .throw .refl rfl
  next slot linked hpush =>
    exact .one (.asset (.insert r kind key slot linked hr hfree hpush)) rfl ⟨rfl, rfl⟩

theorem leads_findOrCreate {u : List Activity} {r : RegistryId} (hr : Serves u r) (kind : Kind)
    (key : Key) : Leads u (findOrCreate r kind key) u := by
  intro s due
  unfold findOrCreate
  refine .bind (traced_findAddref r key.id kind.category) ?_
  rintro found ⟨⟨v, t⟩, l⟩ ⟨⟨rfl, rfl⟩, hnone⟩
  cases found with
  | some h => exact .pure ⟨rfl, rfl⟩
  | none =>
    refine .bind (traced_insertAsset hr (hnone rfl)) ?_
    rintro h ⟨⟨w, t⟩, l⟩ ⟨rfl, rfl⟩
    refine .lookAsset ?_
    exact (leads_log _ _ _ _).first fun _ t => .pure ⟨rfl, rfl⟩

/-- The number found is one whose automatic name is free. -/
theorem taken_freeAutoNumber {taken : String → Bool} {fuel : Nat} {start n : UInt64}
    (h : freeAutoNumber taken fuel start = some n) : taken (autoName n) = false := by
  induction fuel generalizing start with
  | zero => cases h
  | succ fuel ih =>
    rw [freeAutoNumber] at h
    split at h
    next => exact ih h
    next hfree =>
      cases h
      exact Bool.eq_false_iff.2 hfree

theorem State.find?_modifyRegistry_nextAuto (s : State) (r q : RegistryId) (n : UInt64)
    (id : AssetId) (category : Category) :
    (s.modifyRegistry r fun reg => { reg with nextAuto := n }).find? q id category =
      s.find? q id category := by
  have hlinked : (s.modifyRegistry r fun reg => { reg with nextAuto := n }).linked q =
      s.linked q := by
    unfold State.linked
    rw [State.registry_modifyRegistry]
    split <;> rfl
  unfold State.find?
  rw [hlinked]
  rfl

theorem leads_createAsset {u : List Activity} {r : RegistryId} (hr : Serves u r) (kind : Kind) :
    Leads u (createAsset r kind) u := by
  intro s due
  unfold createAsset
  refine .look ?_
  dsimp only
  split
  next => exact .throw .refl rfl
  next n hn =>
    have hfree : s.find? r (AssetId.ofName (autoName n)) kind.category = none := by
      have htaken := taken_freeAutoNumber hn
      rwa [State.nameTaken, Option.isSome_eq_false_iff, Option.isNone_iff_eq_none] at htaken
    refine .first (.asset (.countNames r n kind.category hn)) rfl ?_
    refine traced_insertAsset hr ?_
    rw [State.find?_modifyRegistry_nextAuto]
    exact hfree

theorem leads_rekey {u : List Activity} {r : RegistryId} (hr : Serves u r) (h : Handle) (key : Key) :
    Leads u (rekey r h key) u := by
  intro s due
  unfold rekey
  refine .look ?_
  dsimp only
  split
  next => exact .halt (.throw .refl rfl)
  next hfree =>
    rw [Bool.not_eq_true] at hfree
    exact .one (.asset (.rekey r h key hr hfree)) rfl ⟨rfl, rfl⟩

end AssetLoading

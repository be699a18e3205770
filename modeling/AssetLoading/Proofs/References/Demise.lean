import AssetLoading.Proofs.References.Lifetime
import AssetLoading.Proofs.Relations.Logic

/-! # What a destruction comes to

  An asset that is destroyed is marked, its destructor is called, and when that has
  returned the asset is unlinked. The destructor is client code and may do anything, but
  nothing brings the asset back: when its destruction has returned it is gone, and its
  destructor has started once.

  Code that destroys an asset is described here by the code that is left to run and the
  state it is run in, so that laws about releases and flushes need not open it again.
-/

namespace AssetLoading

/-- The state in which the destructor of an asset is called. -/
def State.condemned (s : State) (h : Handle) : State :=
  (s.modifyAsset h fun a => { a with destroyed := true, contents := none }).record
    (.logged .trace "Destroying asset"
      [("asset", .text (s.asset h).displayName), ("ty", .text (s.asset h).category.name)])

/-- The state after an asset that has no contents was marked as destroyed once more. -/
def State.remarked (s : State) (h : Handle) : State :=
  s.modifyAsset h fun a => { a with destroyed := true }

/-- An asset has nothing left to destroy, or it is whole. -/
theorem State.spent_or_whole (s : State) (h : Handle) :
    ((s.asset h).destroyed = true ∨ (s.asset h).contents = none) ∨
      (s.asset h).destroyed = false ∧ ∃ c, (s.asset h).contents = some c := by
  cases hd : (s.asset h).destroyed with
  | true => exact .inl (.inl rfl)
  | false =>
    cases hc : (s.asset h).contents with
    | none => exact .inl (.inr rfl)
    | some c => exact .inr ⟨rfl, c, rfl⟩

section Runs

variable {call : Runner} {scope : Scope} {s : State} {h : Handle}

/-- The destructor of an asset that is whole is called with its contents, and then the
asset is buried. -/
theorem destroy_of_whole {c : Contents} (hwhole : (s.asset h).destroyed = false)
    (hc : (s.asset h).contents = some c) :
    destroy call scope h s = (call (.destructor
        { thread := scope.thread, registry := scope.registry } h c) >>= fun _ => do
          unlink scope.registry h
          modifyAsset h fun a => { a with slot := none, state := .none }
          pure true) (s.condemned h) := by
  unfold destroy
  rw [Exec.getAsset_bind, hwhole, hc]
  rfl

/-- An asset that was destroyed before is only marked. -/
theorem destroy_of_gone (hgone : (s.asset h).destroyed = true ∨ (s.asset h).contents = none) :
    destroy call scope h s = .ok false (s.remarked h) := by
  unfold destroy
  rw [Exec.getAsset_bind]
  cases hd : (s.asset h).destroyed with
  | true => rfl
  | false =>
    cases hc : (s.asset h).contents with
    | none => rfl
    | some c => simp [hd, hc] at hgone

/-- A destruction that returns has run the destructor, and then buried the asset. -/
theorem destroy_eq_ok {c : Contents} {b : Bool} {t : State}
    (hwhole : (s.asset h).destroyed = false) (hc : (s.asset h).contents = some c)
    (hrun : destroy call scope h s = .ok b t) :
    b = true ∧ ∃ ran r, call (.destructor { thread := scope.thread, registry := scope.registry } h c)
      (s.condemned h) = .ok ran r ∧ t = r.buried scope.registry h := by
  rw [destroy_of_whole hwhole hc] at hrun
  obtain ⟨ran, r, hcalled, hrest⟩ := Exec.bind_eq_ok hrun
  rw [Exec.bind_of_ok (unlink_run scope.registry h r)] at hrest
  cases hrest
  exact ⟨rfl, ran, r, hcalled, rfl⟩

/-- A reference is dropped that is not the last one. -/
theorem release_of_more {holder : Holder} (hmore : 1 < (s.asset h).refs) :
    release call scope holder h s = .ok () (s.dropped holder h) := by
  have hrefs := refs_dropped s holder h (by omega)
  have hdrop : dropRef holder h s = .ok ((s.asset h).refs - 1) (s.dropped holder h) := by
    rw [dropRef_run]
    dsimp only
    rw [hrefs, if_neg (by omega)]
  unfold release
  rw [Exec.bind_of_ok hdrop, if_neg (by omega)]
  rfl

/-- With the last reference the asset is destroyed. -/
theorem release_of_last {holder : Holder} (hlast : (s.asset h).refs = 1) :
    release call scope holder h s =
      (destroy call scope h >>= fun _ => pure ()) (s.dropped holder h) := by
  have hrefs := refs_dropped s holder h (by omega)
  have hdrop : dropRef holder h s = .ok 0 (s.dropped holder h) := by
    rw [dropRef_run]
    dsimp only
    rw [hrefs, hlast]
    rfl
  unfold release
  rw [Exec.bind_of_ok hdrop]
  rfl

/-- A destructor starts, runs its script and gives up what the contents hold. -/
theorem run_destructor (fuel : Nat) (c : Contents) :
    run (fuel + 1) (.destructor scope h c) s =
      (runScript fuel (run fuel) scope c.onDestroy >>= fun _ =>
        releaseDependencies (run fuel) scope c.dependencies >>= fun _ => pure true)
          (s.record (.destroyed h (s.asset h).refs c.tag c.kind.category c.value)) :=
  rfl

end Runs

/-! ### Destructions in a run -/

section Scenes

variable {fuel : Nat} {scope : Scope} {u : List Activity} {s t : State} {h : Handle} {b : Bool}
  (hscope : Serves u scope.registry)

include hscope

/-- From the start of its destructor to its burial the destruction of an asset comes to
strides. -/
theorem strides_of_destroy {c : Contents} (hwhole : (s.asset h).destroyed = false)
    (hc : (s.asset h).contents = some c) (hrun : destroy (run fuel) scope h s = .ok b t)
    (due : List (List Subscription)) :
    b = true ∧ Strides ⟨⟨.destroying h :: u, s.expired h c⟩, due⟩ ⟨⟨u, t⟩, due⟩ := by
  obtain ⟨hb, ran, r, hcalled, rfl⟩ := destroy_eq_ok hwhole hc hrun
  refine ⟨hb, ?_⟩
  cases fuel with
  | zero => cases hcalled
  | succ fuel =>
    have hadmit : Scope.Admitted { thread := scope.thread, registry := scope.registry }
        (.destroying h :: u) := Scope.admitted_of_body_eq_none rfl (hscope.cons _)
    have htraced := run_isTraced fuel
    rw [run_destructor] at hcalled
    have hscript : Leads (.destroying h :: u) (runScript fuel (run fuel)
        { thread := scope.thread, registry := scope.registry } c.onDestroy) (.destroying h :: u) :=
      leads_runScript htraced _ hadmit c.onDestroy
    have hleads := hscript.bind fun _ =>
      (leads_releaseDependencies htraced hadmit.registry c.dependencies).bind fun _ =>
        Leads.pure (.destroying h :: u) true
    exact (hleads.strides hcalled due).tail (.asset (.bury scope.registry h hscope))

/-- When the destruction of an asset has returned the asset is gone, and it was gone from
the start of its destructor on. -/
theorem gone_of_destroy {c : Contents} (hwhole : (s.asset h).destroyed = false)
    (hc : (s.asset h).contents = some c) (hrun : destroy (run fuel) scope h s = .ok b t) :
    t.Gone h := by
  obtain ⟨-, hinside⟩ := strides_of_destroy hscope hwhole hc hrun []
  have hmade : h < s.assets.size := State.lt_size_of_whole (.inl hwhole)
  have hstarted : (s.expired h c).Gone h := by
    refine ⟨?_, ?_⟩
    · show h < (s.modifyAsset h _).assets.size
      rw [State.size_modifyAsset]
      exact hmade
    · show ((s.modifyAsset h _).asset h).destroyed = true
      rw [State.asset_modifyAsset, if_pos ⟨rfl, hmade⟩]
  exact hinside.moves.gone hstarted

end Scenes

end AssetLoading

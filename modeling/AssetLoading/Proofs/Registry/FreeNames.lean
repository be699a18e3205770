import AssetLoading.Proofs.Identity.Numerals
import AssetLoading.Proofs.Registry.Lookups
import AssetLoading.Proofs.Registry.Links
import AssetLoading.Proofs.Slot.Keys
import Mathlib.Order.Interval.Finset.Nat

/-! # Free names

  Names are tried one after the other until one is free: a stem alone and then followed by
  the numbers from one on, or the automatic name with the numbers from the one on that a
  registry has come to. A name is taken if its hash is the id of a live asset of the
  category, so names can be taken that nobody has ever used.

  The search ends all the same. No two numbers of nine digits make the same id behind a
  stem, and there are more of them than live assets, so one of them is free, long before the
  number overflows. The numbers of twelve digits do the same for automatic names.

  The number of the next automatic name is raised when a name is given out, and nothing
  else ever changes it. So as long as it does not start again at zero, no name is given out
  twice (`free_names_found`).
-/

namespace AssetLoading

/-! ### Names that are taken -/

namespace State

variable {s : State} {r : RegistryId} {category : Category}

/-- A live asset of a registry has an id and a category. -/
def Carries (s : State) (r : RegistryId) (id : AssetId) (category : Category) : Prop :=
  ∃ h ∈ s.leaks r, (s.asset h).id = id ∧ (s.asset h).category = category

theorem nameTaken_iff {name : String} :
    s.nameTaken r category name = true ↔ s.Carries r (AssetId.ofName name) category := by
  unfold nameTaken find? Carries leaks
  rw [List.find?_isSome]
  constructor
  · rintro ⟨h, hlinked, hanswers⟩
    obtain ⟨hid, hcategory, hlive⟩ := answersTo_iff.1 hanswers
    exact ⟨h, List.mem_filter.2 ⟨hlinked, decide_eq_true hlive⟩, hid, hcategory⟩
  · rintro ⟨h, hlive, hid, hcategory⟩
    obtain ⟨hlinked, hlive⟩ := List.mem_filter.1 hlive
    exact ⟨h, hlinked, answersTo_iff.2 ⟨hid, hcategory, of_decide_eq_true hlive⟩⟩

theorem nameTaken_eq_false_iff {name : String} :
    s.nameTaken r category name = false ↔ ¬ s.Carries r (AssetId.ofName name) category := by
  rw [← nameTaken_iff, Bool.not_eq_true]

/-- If there are more names with different ids than live assets, one of them is free. -/
theorem exists_free {name : Nat → String} {a b : Nat}
    (hinj : Set.InjOn (fun n => AssetId.ofName (name n)) (Set.Ico a b))
    (hfew : (s.leaks r).length < b - a) (category : Category) :
    ∃ n, a ≤ n ∧ n < b ∧ ¬ s.Carries r (AssetId.ofName (name n)) category := by
  by_contra hnone
  push Not at hnone
  -- then every one of them is the id of some live asset
  let ids := ((s.leaks r).map fun h => (s.asset h).id).toFinset
  have hsub : (Finset.Ico a b).image (fun n => AssetId.ofName (name n)) ⊆ ids := by
    intro id hid
    obtain ⟨n, hn, rfl⟩ := Finset.mem_image.1 hid
    obtain ⟨hle, hlt⟩ := Finset.mem_Ico.1 hn
    obtain ⟨h, hlive, hsame, -⟩ := hnone n hle hlt
    exact List.mem_toFinset.2 (List.mem_map.2 ⟨h, hlive, hsame⟩)
  have hcard : b - a ≤ (s.leaks r).length := by
    calc b - a = (Finset.Ico a b).card := (Nat.card_Ico a b).symm
      _ = ((Finset.Ico a b).image fun n => AssetId.ofName (name n)).card := by
        rw [Finset.card_image_of_injOn]
        rwa [Finset.coe_Ico]
      _ ≤ ids.card := Finset.card_le_card hsub
      _ ≤ (s.leaks r).length := by
        rw [← List.length_map (fun h => (s.asset h).id)]
        exact List.toFinset_card_le _
  omega

end State

/-- What some number from a start on has, a first one has. -/
theorem exists_first {p : Nat → Prop} {a b : Nat} (hab : a ≤ b) (hb : p b) :
    ∃ n, a ≤ n ∧ n ≤ b ∧ p n ∧ ∀ j, a ≤ j → j < n → ¬ p j := by
  classical
  have hsome : ∃ n, a ≤ n ∧ p n := ⟨b, hab, hb⟩
  obtain ⟨hle, hn⟩ := Nat.find_spec hsome
  refine ⟨Nat.find hsome, hle, Nat.find_min' hsome ⟨hab, hb⟩, hn, fun j hj hlt hfree => ?_⟩
  exact Nat.find_min hsome hlt ⟨hj, hfree⟩

theorem toNat_add_one {n : UInt64} (hn : n.toNat + 1 < 2 ^ 64) : (n + 1).toNat = n.toNat + 1 := by
  rw [UInt64.toNat_add]
  exact Nat.mod_eq_of_lt hn

/-! ### Stems with numbers -/

/-- The names that are tried for a stem: the stem alone, and then with each number. -/
def numbered (stem : String) : Nat → String
  | 0 => stem
  | n + 1 => stem ++ toString (n + 1)

theorem numbered_of_pos (stem : String) {n : Nat} (hn : 0 < n) :
    numbered stem n = stem ++ toString n := by
  cases n with
  | zero => omega
  | succ n => rfl

section Search

variable {taken : String → Bool} {stem : String}

theorem freeNumberedName_of_first {n k fuel : Nat} (hnk : n ≤ k) (hfuel : k < n + fuel)
    (hfree : taken (stem ++ toString k) = false)
    (hbefore : ∀ j, n ≤ j → j < k → taken (stem ++ toString j) = true) :
    freeNumberedName taken stem fuel n = some (stem ++ toString k) := by
  induction fuel generalizing n with
  | zero => omega
  | succ fuel ih =>
    rw [freeNumberedName]
    by_cases hlast : n = k
    · rw [hlast, if_neg (Bool.eq_false_iff.1 hfree)]
    · have htaken := hbefore n (Nat.le_refl n) (by omega)
      rw [if_pos htaken]
      exact ih (by omega) (by omega) fun j hj => hbefore j (by omega)

/-- The first free name is found if its number is small enough. -/
theorem uniqueName_of_first {k : Nat} (hsmall : k < 2147483647)
    (hfree : taken (numbered stem k) = false)
    (hbefore : ∀ j, j < k → taken (numbered stem j) = true) :
    uniqueName taken stem = some (numbered stem k) := by
  unfold uniqueName
  cases k with
  | zero =>
    have hfree : taken stem = false := hfree
    simp [hfree, numbered]
  | succ k =>
    have hstem : taken stem = true := hbefore 0 (Nat.succ_pos k)
    rw [if_pos hstem]
    refine freeNumberedName_of_first (Nat.succ_pos k) (by omega) hfree fun j hj hlt => ?_
    rw [← numbered_of_pos stem hj]
    exact hbefore j hlt

theorem freeAutoNumber_of_first {n k : UInt64} {fuel : Nat} (hnk : n ≤ k)
    (hfuel : k.toNat < n.toNat + fuel) (hfree : taken (autoName k) = false)
    (hbefore : ∀ j, n ≤ j → j < k → taken (autoName j) = true) :
    freeAutoNumber taken fuel n = some k := by
  induction fuel generalizing n with
  | zero =>
    rw [UInt64.le_iff_toNat_le] at hnk
    omega
  | succ fuel ih =>
    rw [freeAutoNumber]
    by_cases hlast : n = k
    · rw [hlast, if_neg (Bool.eq_false_iff.1 hfree)]
    · -- a number before another one is not the largest, so the next one does not wrap
      have hlt : n < k := UInt64.lt_of_le_of_ne hnk hlast
      rw [if_pos (hbefore n (UInt64.le_refl n) hlt)]
      rw [UInt64.lt_iff_toNat_lt] at hlt
      have hbound := k.toNat_lt
      have hnext : (n + 1).toNat = n.toNat + 1 := toNat_add_one (by omega)
      refine ih ?_ (by omega) fun j hj => hbefore j ?_
      · rw [UInt64.le_iff_toNat_le]
        omega
      · rw [UInt64.le_iff_toNat_le] at hj ⊢
        omega

end Search

theorem autoName_inj {m n : UInt64} (h : autoName m = autoName n) : m = n :=
  UInt64.toNat_inj.1 (toString_inj ((String.append_right_inj _).1 h))

/-- If few assets are alive, a stem has a free name with at most nine digits. -/
theorem State.exists_numbered {s : State} {r : RegistryId} (hfew : (s.leaks r).length < 900000000)
    (category : Category) (stem : String) :
    ∃ k, k < 1000000000 ∧ ¬ s.Carries r (AssetId.ofName (numbered stem k)) category ∧
      ∀ j, j < k → s.Carries r (AssetId.ofName (numbered stem j)) category := by
  -- there are nine hundred million numbers with nine digits
  have hinj : Set.InjOn (fun n => AssetId.ofName (stem ++ toString n))
      (Set.Ico 100000000 1000000000) := ofName_numeral_injOn stem (d := 8) (by decide)
  obtain ⟨b, hle, hlt, hfree⟩ := s.exists_free hinj (by omega) category
  rw [← numbered_of_pos stem (by omega)] at hfree
  obtain ⟨k, -, hkb, hk, hbefore⟩ :=
    exists_first (p := fun n => ¬ s.Carries r (AssetId.ofName (numbered stem n)) category)
      (Nat.zero_le b) hfree
  exact ⟨k, by omega, hk, fun j hj => not_not.1 (hbefore j (Nat.zero_le j) hj)⟩

/-! ### Automatic names -/

namespace State

variable {s : State} {r : RegistryId} {category : Category} {n : UInt64}

/-- Names abound: few assets are alive, and the registry has not come far. -/
structure Abounds (s : State) (r : RegistryId) : Prop where
  few : (s.leaks r).length < 900000000
  early : (s.registry r).nextAuto.toNat < 100000000000

/-- A number is the first one whose automatic name is free, from the one on that the registry
has come to. -/
structure FirstFree (s : State) (r : RegistryId) (category : Category) (n : UInt64) : Prop where
  reached : (s.registry r).nextAuto ≤ n
  free : ¬ s.Carries r (AssetId.ofName (autoName n)) category
  first : ∀ j, (s.registry r).nextAuto ≤ j → j < n →
    s.Carries r (AssetId.ofName (autoName j)) category

theorem FirstFree.freeAutoNumber_eq (h : s.FirstFree r category n) :
    freeAutoNumber (s.nameTaken r category) UInt64.size (s.registry r).nextAuto = some n := by
  refine freeAutoNumber_of_first h.reached ?_ (nameTaken_eq_false_iff.2 h.free) fun j hj hlt => ?_
  · exact Nat.lt_of_lt_of_le n.toNat_lt (Nat.le_add_left _ _)
  · exact nameTaken_iff.2 (h.first j hj hlt)

/-- Where names abound, the first free one has at most twelve digits. -/
theorem Abounds.exists_firstFree (hs : s.Abounds r) (category : Category) :
    ∃ n, s.FirstFree r category n ∧ n.toNat < 100900000000 := by
  -- as many of the numbers with twelve digits are more than enough, and none was passed yet
  have hinj : Set.InjOn (fun n => AssetId.ofName ("auto/asset_" ++ toString n))
      (Set.Ico 100000000000 100900000000) :=
    (ofName_numeral_injOn "auto/asset_" (d := 11) (by decide)).mono
      (Set.Ico_subset_Ico (by decide) (by decide))
  have hfew := hs.few
  have hearly := hs.early
  obtain ⟨b, hle, hlt, hfree⟩ := s.exists_free hinj (by omega) category
  obtain ⟨k, hk, hkb, hfree, hbefore⟩ := exists_first
    (p := fun n => ¬ s.Carries r (AssetId.ofName ("auto/asset_" ++ toString n)) category)
    (show (s.registry r).nextAuto.toNat ≤ b by omega) hfree
  have hnumber : (UInt64.ofNat k).toNat = k := UInt64.toNat_ofNat_of_lt' (by show k < 2 ^ 64; omega)
  refine ⟨UInt64.ofNat k, ⟨?_, ?_, fun j hj hlt => ?_⟩, by omega⟩
  · rw [UInt64.le_iff_toNat_le]
    omega
  · unfold autoName
    rw [hnumber]
    exact hfree
  · rw [UInt64.le_iff_toNat_le] at hj
    rw [UInt64.lt_iff_toNat_lt] at hlt
    exact not_not.1 (hbefore j.toNat hj (by omega))

/-- The state after an automatic name was given out. -/
def gaveOut (s : State) (r : RegistryId) (n : UInt64) : State :=
  s.modifyRegistry r fun reg => { reg with nextAuto := n + 1 }

theorem registry_gaveOut (hr : r < s.registries.size) (n : UInt64) :
    (s.gaveOut r n).registry r = { s.registry r with nextAuto := n + 1 } := by
  rw [gaveOut, registry_modifyRegistry, if_pos ⟨rfl, hr⟩]

/-- A registry as code finds it: it exists, its links are sound, and every place that holds
none is free. -/
structure Maintains (s : State) (r : RegistryId) : Prop where
  known : r < s.registries.size
  sound : (s.registry r).linked.Sound
  filled : (s.registry r).linked.Filled

end State

theorem Occurs.maintains {c : Scene} (hc : Occurs c) {r : RegistryId} (hr : Serves c.underWay r) :
    c.state.Maintains r where
  known := hc.lt_of_serves hr
  sound := (hc.arenas Arena.isKept_filled r).1
  filled := (hc.arenas Arena.isKept_filled r).2

theorem Reached.maintains {s : State} (hs : Reached s) : s.Maintains 0 :=
  hs.occurs.maintains (.inl rfl)

section Creating

variable {s : State} {r : RegistryId} {kind : Kind} {n : UInt64}

/-- What making an asset under an automatic name comes to. -/
theorem createAsset_run (hn : s.FirstFree r kind.category n) : createAsset r kind s =
    insertAsset r kind (Key.ofName (autoName n)) (s.gaveOut r n) := by
  unfold createAsset
  rw [Exec.get_bind, hn.freeAutoNumber_eq]
  rfl

/-- What becomes of a registry in which an asset was made under the automatic name with a
number. -/
structure Created (s : State) (r : RegistryId) (kind : Kind) (n : UInt64) (h : Handle)
    (t : State) : Prop where
  /-- The registry goes on with the next number. -/
  counted : (t.registry r).nextAuto = n + 1
  /-- The asset is new, and has a reference. -/
  fresh : h = s.assets.size
  live : h ∈ t.leaks r
  /-- It is named and addressed by the name. -/
  named : (t.asset h).name = some (autoName n)
  addressed : (t.asset h).id = AssetId.ofName (autoName n) ∧ (t.asset h).category = kind.category
  /-- No other live asset has that address. -/
  alone : ∀ k ∈ t.leaks r, (t.asset k).id = (t.asset h).id →
    (t.asset k).category = (t.asset h).category → k = h

theorem created_of_push (hs : s.Maintains r) (hn : s.FirstFree r kind.category n) {slot : Slot}
    {linked : Arena Handle} (hpush : (s.registry r).linked.push s.assets.size = .ok (slot, linked)) :
    Created s r kind n s.assets.size
      ((s.gaveOut r n).inserted r kind (Key.ofName (autoName n)) slot linked) := by
  let t := (s.gaveOut r n).inserted r kind (Key.ofName (autoName n)) slot linked
  have hregistry : t.registry r = { s.registry r with nextAuto := n + 1, linked := linked } := by
    have hknown : r < (s.gaveOut r n).registries.size := by
      show r < (s.registries.modify r _).size
      rw [Array.size_modify]
      exact hs.known
    rw [State.registry_inserted hknown, State.registry_gaveOut hs.known]
  have hasset (k : Handle) : t.asset k = if k = s.assets.size then
      { Asset.fresh kind (Key.ofName (autoName n)) with slot := some slot } else s.asset k :=
    State.asset_inserted (s.gaveOut r n) r kind _ slot linked k
  have hself := (hasset s.assets.size).trans (if_pos rfl)
  obtain ⟨front, back, hold, hnew⟩ := hs.sound.toList_of_push hpush
  have hlinked : t.linked r = front ++ s.assets.size :: back := by
    unfold State.linked
    rw [hregistry, ← hnew]
  change Created s r kind n s.assets.size t
  constructor
  · rw [hregistry]
  · rfl
  · unfold State.leaks
    rw [hlinked, List.mem_filter, hself]
    exact ⟨List.mem_append_right _ List.mem_cons_self, rfl⟩
  · rw [hself]
    rfl
  · rw [hself]
    exact ⟨rfl, rfl⟩
  · intro k hk hid hcategory
    by_contra hne
    -- any other was alive before, and then the name was not free
    apply hn.free
    unfold State.leaks at hk
    rw [hlinked, List.mem_filter, hasset, if_neg hne] at hk
    rw [hself, hasset, if_neg hne] at hid hcategory
    have hmem : k ∈ s.linked r := by
      unfold State.linked
      rw [hold]
      simpa [hne] using hk.1
    exact ⟨k, List.mem_filter.2 ⟨hmem, hk.2⟩, hid, hcategory⟩

/-- An asset is made, or there is no place left for one. The number is used up in both cases. -/
theorem createAsset_cases (hs : s.Maintains r) (hn : s.FirstFree r kind.category n) :
    (∃ t, createAsset r kind s = .ok s.assets.size t ∧ Created s r kind n s.assets.size t) ∨
    (2 ^ 32 - 1 ≤ (s.linked r).length ∧
      ∃ e, createAsset r kind s = .error (.panic (.slot e)) (s.gaveOut r n)) := by
  have hlinked : ((s.gaveOut r n).registry r).linked = (s.registry r).linked := by
    rw [State.registry_gaveOut hs.known]
  have hassets : (s.gaveOut r n).assets.size = s.assets.size := rfl
  rw [createAsset_run hn, insertAsset_run, hlinked, hassets]
  cases hpush : (s.registry r).linked.push s.assets.size with
  | ok placed => exact .inl ⟨_, rfl, created_of_push hs hn hpush⟩
  | error e =>
    -- a place that is not in use could have been taken
    refine .inr ⟨?_, e, rfl⟩
    by_contra hroom
    obtain ⟨slot, linked, hok⟩ :=
      hs.sound.exists_push_of_filled hs.filled (Nat.not_le.1 hroom) s.assets.size
    rw [hpush] at hok
    cases hok

theorem name_of_createAsset (hn : s.FirstFree r kind.category n) {h : Handle} {t : State}
    (hrun : createAsset r kind s = .ok h t) : (t.asset h).name = some (autoName n) := by
  rw [createAsset_run hn, insertAsset_run] at hrun
  split at hrun
  next => cases hrun
  next =>
    cases hrun
    rw [State.asset_inserted, if_pos rfl]
    rfl

end Creating

/-! ### Names along a run -/

section Runs

variable {m n : Moment} {r : RegistryId}

/-- The number that a registry has come to changes only when a name is given out. -/
theorem Move.nextAuto_or (h : Move m n) (r : RegistryId) :
    (n.state.registry r).nextAuto = (m.state.registry r).nextAuto ∨
    ∃ category k, freeAutoNumber (m.state.nameTaken r category) UInt64.size
      (m.state.registry r).nextAuto = some k ∧ (n.state.registry r).nextAuto = k + 1 := by
  have hkept {s : State} {q : RegistryId} {f : Registry → Registry}
      (hf : ∀ reg, (f reg).nextAuto = reg.nextAuto) :
      ((s.modifyRegistry q f).registry r).nextAuto = (s.registry r).nextAuto := by
    rw [State.registry_modifyRegistry]
    split
    next => exact hf _
    next => rfl
  rcases h.asset_or_same with hasset | ⟨hsame, -⟩
  · cases hasset with
    | doom q h => exact .inl (hkept fun _ => rfl)
    | flush q => exact .inl (hkept fun _ => rfl)
    | unlink q h k slot linked => exact .inl (hkept fun _ => rfl)
    | insert q kind key slot linked => exact .inl (hkept fun _ => rfl)
    | @newRegistry u s =>
      left
      rw [s.registry_newRegistry]
    | @countNames u s q k category hfirst =>
      -- only naming an asset counts on, in the registry where the name is needed
      by_cases hq : q = r ∧ r < s.registries.size
      · obtain ⟨rfl, hknown⟩ := hq
        refine .inr ⟨category, k, hfirst, ?_⟩
        rw [State.registry_modifyRegistry, if_pos ⟨rfl, hknown⟩]
      · left
        rw [State.registry_modifyRegistry, if_neg hq]
    | _ => exact .inl rfl
  · left
    rw [hsame.registry]

/-- Where names abound the number is not lowered. -/
theorem Move.nextAuto_le (h : Move m n) (hm : m.state.Abounds r) :
    (m.state.registry r).nextAuto ≤ (n.state.registry r).nextAuto := by
  rcases h.nextAuto_or r with hsame | ⟨category, k, hk, hnext⟩
  · rw [hsame]
    exact UInt64.le_refl _
  · -- the name that is given out is the first free one, and its number is far from the largest
    obtain ⟨l, hl, hbound⟩ := hm.exists_firstFree category
    obtain rfl : l = k := Option.some.inj (hl.freeAutoNumber_eq.symm.trans hk)
    have hreached := hl.reached
    have hsucc : (l + 1).toNat = l.toNat + 1 := toNat_add_one (by omega)
    rw [UInt64.le_iff_toNat_le] at hreached ⊢
    rw [hnext]
    omega

/-- A run goes on by a move, or with the end of a call that came to an early end, which leaves
the registries as they are. -/
def Moment.GoesOn (m n : Moment) : Prop :=
  Move m n ∨ n.state.registries = m.state.registries

/-- A run goes on, and a registry does not start again with its numbers. Where names abound it
could not do so anyway. -/
def Moment.CountsOn (r : RegistryId) (m n : Moment) : Prop :=
  m.GoesOn n ∧
    (m.state.Abounds r ∨ (m.state.registry r).nextAuto ≤ (n.state.registry r).nextAuto)

theorem Moves.goesOn (h : Moves m n) : Relation.ReflTransGen Moment.GoesOn m n :=
  Relation.ReflTransGen.mono (fun _ _ => .inl) _ _ h

/-- Calls are runs, however they end. -/
theorem goesOn_of_performOn {fuel : Nat} {s t : State} {thread : Thread} {op : Op}
    {outcome : Outcome} (h : performOn fuel s thread op = (outcome, t)) :
    Relation.ReflTransGen Moment.GoesOn ⟨[], s⟩ ⟨[], t⟩ := by
  cases outcome with
  | answered reply => exact (moves_of_answered h).goesOn
  | halted reason =>
    obtain ⟨n, hn, hend⟩ := moves_of_halted h
    refine hn.goesOn.tail (.inr ?_)
    rcases hend.state_eq with rfl | ⟨holder, k, rfl⟩ <;> rfl

theorem nextAuto_le_of_countsOn (h : Relation.ReflTransGen (Moment.CountsOn r) m n) :
    (m.state.registry r).nextAuto ≤ (n.state.registry r).nextAuto := by
  induction h with
  | refl => exact UInt64.le_refl _
  | tail _ hstep ih =>
    refine UInt64.le_trans ih ?_
    obtain ⟨hmove | hsame, habounds | hle⟩ := hstep
    · exact hmove.nextAuto_le habounds
    · exact hle
    · unfold State.registry
      rw [hsame]
      exact UInt64.le_refl _
    · exact hle

end Runs

/-! ### The law -/

/-- What is known of the names in a registry of which few assets are alive. -/
structure NamingLaw (s : State) (r : RegistryId) : Prop where
  /-- A stem gets the first number that makes it free, none if it is free alone. It has at
  most nine digits, and the operation that asks for it is answered. -/
  unique : ∀ category stem, ∃ k, k < 1000000000 ∧
    uniqueName (s.nameTaken r category) stem = some (numbered stem k) ∧
    (∀ fuel call scope, scope.registry = r →
      execute fuel call scope (.uniqueName category stem) s = .ok (.text (numbered stem k)) s) ∧
    ¬ s.Carries r (AssetId.ofName (numbered stem k)) category ∧
    ∀ j, j < k → s.Carries r (AssetId.ofName (numbered stem j)) category
  /-- An asset is made under the first automatic name that is free, unless every place that
  a slot can lead to is in use. The registry goes on behind its number either way. -/
  created : s.Maintains r → s.Abounds r → ∀ kind,
    ∃ n, s.FirstFree r kind.category n ∧ n.toNat < 100900000000 ∧
      ((∃ h t, createAsset r kind s = .ok h t ∧ Created s r kind n h t) ∨
        2 ^ 32 - 1 ≤ (s.linked r).length ∧ ∃ e t,
          createAsset r kind s = .error (.panic (.slot e)) t ∧ (t.registry r).nextAuto = n + 1)
  /-- Calls are runs, -/
  runs : ∀ {fuel thread op outcome t}, performOn fuel s thread op = (outcome, t) →
    Relation.ReflTransGen Moment.GoesOn ⟨[], s⟩ ⟨[], t⟩
  /-- and no asset that is made so later in a run gets the same name, whatever happens in
  between, as long as the registry does not start again with its numbers. -/
  apart : s.Maintains r → s.Abounds r →
    ∀ {kind kind' h k s' t t' u v}, createAsset r kind s = .ok h s' →
      Relation.ReflTransGen (Moment.CountsOn r) ⟨u, s'⟩ ⟨v, t⟩ → t.Abounds r →
      createAsset r kind' t = .ok k t' → (s'.asset h).name ≠ (t'.asset k).name

/-- **Free names are found.** For every state and every registry of which fewer than nine
hundred million assets are alive. -/
theorem free_names_found {s : State} {r : RegistryId} (hfew : (s.leaks r).length < 900000000) :
    NamingLaw s r := by
  constructor
  · intro category stem
    obtain ⟨k, hsmall, hfree, hbefore⟩ := s.exists_numbered hfew category stem
    have hname : uniqueName (s.nameTaken r category) stem = some (numbered stem k) :=
      uniqueName_of_first (by omega) (State.nameTaken_eq_false_iff.2 hfree) fun j hj =>
        State.nameTaken_iff.2 (hbefore j hj)
    refine ⟨k, hsmall, hname, fun fuel call scope hscope => ?_, hfree, hbefore⟩
    show (get >>= _ : Exec Reply) s = _
    rw [Exec.get_bind, hscope, hname]
    rfl
  · intro hs habounds kind
    obtain ⟨n, hn, hbound⟩ := habounds.exists_firstFree kind.category
    refine ⟨n, hn, hbound, ?_⟩
    rcases createAsset_cases hs hn with ⟨t, hrun, ht⟩ | ⟨hfull, e, hrun⟩
    · exact .inl ⟨_, t, hrun, ht⟩
    · refine .inr ⟨hfull, e, _, hrun, ?_⟩
      rw [State.registry_gaveOut hs.known]
  · exact goesOn_of_performOn
  · intro hs habounds kind kind' h k s' t t' u v hfirst hbetween ht hsecond heq
    obtain ⟨n, hn, hbound⟩ := habounds.exists_firstFree kind.category
    obtain ⟨n', hn', hbound'⟩ := ht.exists_firstFree kind'.category
    rw [name_of_createAsset hn hfirst, name_of_createAsset hn' hsecond] at heq
    obtain rfl : n = n' := autoName_inj (Option.some.inj heq)
    -- the registry has gone on behind the first number and has not come back
    have hcounted : (s'.registry r).nextAuto = n + 1 := by
      rcases createAsset_cases hs hn with ⟨t, hrun, hmade⟩ | ⟨-, e, hrun⟩
      · rw [hrun] at hfirst
        cases hfirst
        exact hmade.counted
      · rw [hrun] at hfirst
        cases hfirst
    have hle := UInt64.le_trans (nextAuto_le_of_countsOn hbetween) hn'.reached
    have hsucc : (n + 1).toNat = n.toNat + 1 := toNat_add_one (by omega)
    change (s'.registry r).nextAuto ≤ n at hle
    rw [hcounted, UInt64.le_iff_toNat_le] at hle
    omega

/-- Some names are in use, among them an automatic one that was given otherwise, and the
asset with the next automatic name is gone. -/
def namesInUse : State :=
  (Session.bare .manual).start.after 4
    [(.main, .findOrCreate "first" (.standard .tex) (.ofName "zbuffer/")),
      (.main, .findOrCreate "second" (.standard .tex) (.ofName "zbuffer/1")),
      (.main, .findOrCreate "third" (.standard .tex) (.ofName "auto/asset_0")),
      (.main, .create "fourth" (.standard .tex)), (.main, .release (.labelled "fourth"))]

theorem namesInUse_named :
    (namesInUse.leaks 0).length < 900000000 ∧ NamingLaw namesInUse 0 ∧
      namesInUse.Maintains 0 ∧ namesInUse.Abounds 0 ∧
      uniqueName (namesInUse.nameTaken 0 .tex) "zbuffer/" = some "zbuffer/2" ∧
      ∃ t, createAsset 0 (.standard .tex) namesInUse = .ok 4 t ∧
        (t.asset 4).name = some "auto/asset_2" := by
  have hmaintains : namesInUse.Maintains 0 := ((Reached.start _).after 4 _).maintains
  have hfew : (namesInUse.leaks 0).length < 900000000 := by decide +kernel
  have hcounter : (namesInUse.registry 0).nextAuto = 2 := by decide +kernel
  have hearly : (namesInUse.registry 0).nextAuto.toNat < 100000000000 := by
    rw [hcounter]
    decide
  have habounds : namesInUse.Abounds 0 := ⟨hfew, hearly⟩
  have hfree : namesInUse.nameTaken 0 .tex (autoName 2) = false := by decide +kernel
  have hfirst : namesInUse.FirstFree 0 .tex 2 := by
    constructor
    · rw [hcounter]
      exact UInt64.le_refl 2
    · exact State.nameTaken_eq_false_iff.1 hfree
    · intro j hj hlt
      rw [hcounter] at hj
      exact absurd hlt (UInt64.not_lt.2 hj)
  have hunique : uniqueName (namesInUse.nameTaken 0 .tex) "zbuffer/" = some "zbuffer/2" := by
    decide +kernel
  have hsize : namesInUse.assets.size = 4 := by decide +kernel
  have hlinked : (namesInUse.linked 0).length = 3 := by decide +kernel
  refine ⟨hfew, free_names_found hfew, hmaintains, habounds, hunique, ?_⟩
  -- the registry is not full, so the asset is made and gets the first free number
  rcases @createAsset_cases namesInUse 0 (.standard .tex) 2 hmaintains hfirst with
    ⟨t, hrun, ht⟩ | ⟨hfull, -⟩
  · have hname : autoName 2 = "auto/asset_2" := by decide +kernel
    rw [hsize] at hrun ht
    exact ⟨t, hrun, hname ▸ ht.named⟩
  · rw [hlinked] at hfull
    exact absurd hfull (by decide)

end AssetLoading

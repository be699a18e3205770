import AssetLoading.Proofs.References.Releases
import AssetLoading.Proofs.Registry.Links
import AssetLoading.Proofs.Registry.Lookups
import AssetLoading.Proofs.Slot.Keys

/-! # Racing lookups agree

  Several callers may look for assets at once, each to find the live one under an id and
  a category or to make it. Every call goes through alone, so a race of any number of
  callers is some order of their calls.

  Whatever the order, all who look for one address come away with one asset, which holds
  one more reference for each of them. If none lived there, the first of them has made it
  and the others have found it, no matter what lies at that address without references
  and in which of its places the registry put the new one. The asset then dies with the
  last of these references (`racing_lookups_agree`).
-/

namespace AssetLoading

/-! ### Single calls -/

/-- A call of somebody who looks for the asset under a key, and takes a new one of a kind
if there is none. -/
structure Request where
  kind : Kind
  key : Key

namespace Request

/-- The live asset that a call looks for. -/
def find? (p : Request) (s : State) (r : RegistryId) : Option Handle :=
  s.find? r p.key.id p.kind.category

/-- Two calls look for one id and one category. -/
def Rivals (p q : Request) : Prop :=
  p.key.id = q.key.id ∧ p.kind.category = q.kind.category

instance (p q : Request) : Decidable (p.Rivals q) :=
  inferInstanceAs (Decidable (_ ∧ _))

theorem Rivals.find?_eq {p q : Request} (h : p.Rivals q) (s : State) (r : RegistryId) :
    p.find? s r = q.find? s r := by
  unfold find?
  rw [h.1, h.2]

/-- Calls that find one asset are rivals. -/
theorem rivals_of_find? {p q : Request} {s : State} {r : RegistryId} {h : Handle}
    (hp : p.find? s r = some h) (hq : q.find? s r = some h) : p.Rivals q := by
  obtain ⟨hid, hcategory, -⟩ := State.answersTo_iff.1 (List.find?_some hp)
  obtain ⟨hid', hcategory', -⟩ := State.answersTo_iff.1 (List.find?_some hq)
  exact ⟨hid.symm.trans hid', hcategory.symm.trans hcategory'⟩

end Request

section Calls

variable {s t : State} {r : RegistryId} {h : Handle}

/-- A lookup that returns has found a live asset, which has a reference more, or has made
one where none lived. -/
theorem findOrCreate_cases {kind : Kind} {key : Key} {answer : Lookup × Handle}
    (hrun : findOrCreate r kind key s = .ok answer t) :
    (∃ h, s.find? r key.id kind.category = some h ∧ answer = (.found, h) ∧ t = s.took .client h) ∨
    (s.find? r key.id kind.category = none ∧ answer = (.created, s.assets.size) ∧
      ∃ slot linked fields, (s.registry r).linked.push s.assets.size = .ok (slot, linked) ∧
        t = (s.inserted r kind key slot linked).record (.logged .trace "Created asset" fields)) := by
  cases hfind : s.find? r key.id kind.category with
  | some h =>
    rw [findOrCreate_of_find? hfind] at hrun
    cases hrun
    exact .inl ⟨h, rfl, rfl, rfl⟩
  | none =>
    rcases findOrCreate_of_find?_eq_none hfind with ⟨e, -, hfail⟩ | ⟨slot, linked, fields, hpush, hmade⟩
    · rw [hfail] at hrun
      cases hrun
    · rw [hmade] at hrun
      cases hrun
      exact .inr ⟨rfl, rfl, slot, linked, fields, hpush, rfl⟩

/-- A lookup keeps links sound and takes up one place at most. -/
theorem findOrCreate_links (hsound : s.SoundLinks) (hr : r < s.registries.size) {kind : Kind}
    {key : Key} {answer : Lookup × Handle} (hrun : findOrCreate r kind key s = .ok answer t) :
    t.SoundLinks ∧ r < t.registries.size ∧
      (t.registry r).linked.places.size ≤ (s.registry r).linked.places.size + 1 := by
  rcases findOrCreate_cases hrun with ⟨h, -, -, rfl⟩ | ⟨-, -, slot, linked, fields, hpush, rfl⟩
  · exact ⟨hsound, hr, Nat.le_succ _⟩
  · have hs : State.SoundLinks
        { s with assets := s.assets.push { Asset.fresh kind key with slot := some slot } } := hsound
    refine ⟨hs.modifyRegistry ((hsound r).push hpush), ?_, ?_⟩
    · show r < (s.registries.modify r _).size
      rw [Array.size_modify]
      exact hr
    · show ((s.inserted r kind key slot linked).registry r).linked.places.size ≤ _
      rw [State.registry_inserted hr]
      rcases Arena.push_eq_ok hpush with ⟨i, free, -, -, rfl⟩ | ⟨-, -, rfl⟩
      · rw [Array.size_modify]
        exact Nat.le_succ _
      · rw [Array.size_push]

/-- A lookup returns if there is room for one more place. -/
theorem findOrCreate_returns (hsound : s.SoundLinks)
    (hroom : (s.registry r).linked.places.size < 2 ^ 32 - 1) (kind : Kind) (key : Key) :
    ∃ answer t, findOrCreate r kind key s = .ok answer t := by
  cases hfind : s.find? r key.id kind.category with
  | some h => exact ⟨_, _, findOrCreate_of_find? hfind⟩
  | none =>
    rcases findOrCreate_of_find?_eq_none hfind with ⟨e, hfull, -⟩ | ⟨_, _, _, -, hmade⟩
    · obtain ⟨slot, linked, hpush⟩ := (hsound r).exists_push hroom s.assets.size
      rw [hpush] at hfull
      cases hfull
    · exact ⟨_, _, hmade⟩

/-- Another reference on a live asset changes no lookup. -/
theorem State.find?_took (hlive : 0 < (s.asset h).refs) (id : AssetId) (category : Category) :
    (s.took .client h).find? r id category = s.find? r id category := by
  have hanswers : (s.took .client h).answersTo id category = s.answersTo id category := by
    funext k
    rw [Bool.eq_iff_iff, State.answersTo_iff, State.answersTo_iff, State.asset_took]
    split
    next heq =>
      rw [heq.1] at hlive
      have hmore : 0 < (s.asset k).refs + 1 := by omega
      simp only [hlive, hmore]
    next => rfl
  unfold State.find?
  rw [hanswers]
  rfl

/-- A new asset is found under its own address, and nothing else is found elsewhere than
before. -/
theorem State.find?_inserted (hsound : s.SoundLinks) (hr : r < s.registries.size) {kind : Kind}
    {key : Key} {slot : Slot} {linked : Arena Handle}
    (hpush : (s.registry r).linked.push s.assets.size = .ok (slot, linked))
    (hfree : s.find? r key.id kind.category = none) (id : AssetId) (category : Category) :
    (s.inserted r kind key slot linked).find? r id category =
      if key.id = id ∧ kind.category = category then some s.assets.size
      else s.find? r id category := by
  let t := s.inserted r kind key slot linked
  have hlinked : t.linked r = linked.toList := by
    unfold State.linked
    rw [State.registry_inserted hr]
  obtain ⟨front, back, hold, hnew⟩ := (hsound r).toList_of_push hpush
  -- what was not made yet answers to nothing
  have hunmade (id : AssetId) (category : Category) :
      s.answersTo id category s.assets.size = false := by
    rw [← Bool.not_eq_true, State.answersTo_iff, State.asset_of_size_le (Nat.le_refl _)]
    rintro ⟨-, -, hlive⟩
    exact absurd hlive (by decide)
  have hself : t.answersTo id category s.assets.size = true ↔
      key.id = id ∧ kind.category = category := by
    rw [State.answersTo_iff, State.asset_inserted, if_pos rfl]
    simp [Asset.fresh]
  have hothers {k : Handle} (hk : k ≠ s.assets.size) (id : AssetId) (category : Category) :
      t.answersTo id category k = s.answersTo id category k := by
    unfold State.answersTo
    rw [State.asset_inserted, if_neg hk]
  unfold State.find? State.linked at hfree ⊢
  rw [hold, List.find?_eq_none] at hfree
  change (t.linked r).find? (t.answersTo id category) = _
  rw [hlinked, hnew, hold]
  split
  next haddress =>
    -- nobody but the new one answers, wherever it was put
    obtain ⟨rfl, rfl⟩ := haddress
    have hfront : ∀ k ∈ front, k ≠ s.assets.size → ¬ t.answersTo key.id kind.category k = true := by
      intro k hk hne
      rw [hothers hne]
      exact hfree k (List.mem_append_left back hk)
    rw [List.find?_append]
    cases hfirst : front.find? (t.answersTo key.id kind.category) with
    | some k =>
      have hk : k = s.assets.size := by
        by_contra hne
        exact hfront k (List.mem_of_find?_eq_some hfirst) hne (List.find?_some hfirst)
      rw [hk, Option.some_or]
    | none => rw [Option.none_or, List.find?_cons_of_pos (hself.2 ⟨rfl, rfl⟩)]
  next haddress =>
    have hsilent : ¬ t.answersTo id category s.assets.size = true := fun hyes =>
      haddress (hself.1 hyes)
    have hsame : t.answersTo id category = s.answersTo id category := by
      funext k
      by_cases hk : k = s.assets.size
      · rw [hk, hunmade]
        exact Bool.eq_false_iff.2 hsilent
      · exact hothers hk id category
    rw [List.find?_append, List.find?_append, List.find?_cons_of_neg hsilent, hsame]

end Calls

/-! ### Many calls -/

/-- Several calls, in the order in which they go through. -/
def findOrCreateAll (r : RegistryId) : List Request → Exec (List (Lookup × Handle))
  | [] => pure []
  | p :: ps => do
    let answer ← findOrCreate r p.kind p.key
    let answers ← findOrCreateAll r ps
    pure (answer :: answers)

theorem leads_findOrCreateAll {u : List Activity} {r : RegistryId} (hr : Serves u r)
    (calls : List Request) : Leads u (findOrCreateAll r calls) u := by
  induction calls with
  | nil => exact .pure u []
  | cons p ps ih =>
    refine (leads_findOrCreate hr p.kind p.key).bind fun answer => ?_
    exact ih.bind fun answers => .pure u _

namespace Request

/-- How many of several calls look for the address that a call looks for. -/
def times (p : Request) (calls : List Request) : Nat :=
  calls.countP fun q => q.Rivals p

/-- What those of several calls were answered that look for the same address. -/
def answersIn (p : Request) (calls : List Request) (answers : List (Lookup × Handle)) :
    List (Lookup × Handle) :=
  ((calls.zip answers).filter fun x => x.1.Rivals p).map Prod.snd

variable {p q : Request} {calls : List Request} {answers : List (Lookup × Handle)}
  {answer : Lookup × Handle}

theorem times_cons_of_rivals (h : q.Rivals p) : p.times (q :: calls) = p.times calls + 1 :=
  List.countP_cons_of_pos (decide_eq_true h)

theorem times_cons_of_not_rivals (h : ¬ q.Rivals p) : p.times (q :: calls) = p.times calls :=
  List.countP_cons_of_neg fun hyes => h (of_decide_eq_true hyes)

theorem answersIn_cons_of_rivals (h : q.Rivals p) :
    p.answersIn (q :: calls) (answer :: answers) = answer :: p.answersIn calls answers := by
  simp [answersIn, h]

theorem answersIn_cons_of_not_rivals (h : ¬ q.Rivals p) :
    p.answersIn (q :: calls) (answer :: answers) = p.answersIn calls answers := by
  simp [answersIn, h]

/-- Where nobody looks for an address, nobody is answered. -/
theorem answersIn_of_times_eq_zero (h : p.times calls = 0) : p.answersIn calls answers = [] := by
  rw [times, List.countP_eq_zero] at h
  rw [answersIn, List.map_eq_nil_iff, List.filter_eq_nil_iff]
  exact fun x hx => h x.1 (List.of_mem_zip hx).1

end Request

/-- How often an asset was the answer. -/
def timesReturned (h : Handle) (answers : List (Lookup × Handle)) : Nat :=
  answers.countP fun answer => answer.2 = h

/-- What one call does to the assets, and to what lives at the addresses. -/
structure Answered (r : RegistryId) (p : Request) (s : State) (answer : Lookup × Handle)
    (t : State) : Prop where
  grows : s.assets.size ≤ t.assets.size
  known : answer.2 < t.assets.size
  /-- The asset lives at the address, and at no other has anything changed. -/
  find : ∀ q : Request, q.find? t r = if p.Rivals q then some answer.2 else q.find? s r
  lookup : answer.1 = if p.find? s r = none then Lookup.created else .found
  /-- What lived at the address is what is returned. -/
  same : ∀ k, p.find? s r = some k → k = answer.2
  new : p.find? s r = none → s.assets.size ≤ answer.2
  kept : ∀ h, h < s.assets.size →
    t.asset h = { s.asset h with refs := (s.asset h).refs + if answer.2 = h then 1 else 0 }
  fresh : ∀ h, s.assets.size ≤ h → h < t.assets.size → answer.2 = h ∧
    ∃ kind key slot, t.asset h = { Asset.fresh kind key with slot := some slot }
  made : ∀ h, (.created, h) = answer ↔ s.assets.size ≤ h ∧ h < t.assets.size

section Calling

variable {r : RegistryId} {p : Request} {s t : State} {answer : Lookup × Handle} {h : Handle}

/-- A live asset is found. -/
theorem Answered.of_found (hfind : p.find? s r = some h) :
    Answered r p s (.found, h) (s.took .client h) := by
  have hlive : 0 < (s.asset h).refs := (State.answersTo_iff.1 (List.find?_some hfind)).2.2
  have hknown : h < s.assets.size := State.lt_size_of_whole (.inr hlive)
  have hsize := s.size_took .client h
  constructor
  · rw [hsize]
  · rw [hsize]
    exact hknown
  · -- no lookup changes: a reference more on a live asset is not seen by it
    intro q
    have hq : q.find? (s.took .client h) r = q.find? s r := State.find?_took hlive _ _
    rw [hq]
    split
    next hrivals =>
      rw [← hrivals.find?_eq]
      exact hfind
    next => rfl
  · rw [hfind]
    rfl
  · intro k hk
    exact Option.some.inj (hk.symm.trans hfind)
  · intro hnone
    rw [hfind] at hnone
    cases hnone
  · intro k hk
    rw [State.asset_took]
    by_cases heq : h = k
    · rw [if_pos ⟨heq, hk⟩, if_pos heq]
    · rw [if_neg fun hboth => heq hboth.1, if_neg heq, Int.add_zero]
  · intro k hle hlt
    rw [hsize] at hlt
    exact absurd hlt (Nat.not_lt.2 hle)
  · intro k
    rw [hsize]
    constructor
    · intro heq
      cases heq
    · rintro ⟨hle, hlt⟩
      exact absurd hlt (Nat.not_lt.2 hle)

/-- Nothing is found, and an asset is made. -/
theorem Answered.of_created (hsound : s.SoundLinks) (hr : r < s.registries.size)
    (hfind : p.find? s r = none) {slot : Slot} {linked : Arena Handle} {fields : List (String × Field)}
    (hpush : (s.registry r).linked.push s.assets.size = .ok (slot, linked)) :
    Answered r p s (.created, s.assets.size) ((s.inserted r p.kind p.key slot linked).record
      (.logged .trace "Created asset" fields)) := by
  have hsize : ((s.inserted r p.kind p.key slot linked).record
    (.logged .trace "Created asset" fields)).assets.size = s.assets.size + 1 :=
    s.size_inserted r p.kind p.key slot linked
  have hasset (k : Handle) := s.asset_inserted r p.kind p.key slot linked k
  -- everything that existed is as before, and the new asset is the last one
  constructor
  · rw [hsize]
    exact Nat.le_succ _
  · rw [hsize]
    exact Nat.lt_succ_self _
  · intro q
    exact State.find?_inserted hsound hr hpush hfind q.key.id q.kind.category
  · rw [hfind, if_pos rfl]
  · intro k hk
    rw [hfind] at hk
    cases hk
  · intro _
    exact Nat.le_refl _
  · intro k hk
    have hne : s.assets.size ≠ k := Nat.ne_of_gt hk
    rw [if_neg hne, Int.add_zero]
    exact (hasset k).trans (if_neg hne.symm)
  · intro k hle hlt
    rw [hsize] at hlt
    obtain rfl : k = s.assets.size := Nat.le_antisymm (Nat.le_of_lt_succ hlt) hle
    exact ⟨rfl, p.kind, p.key, slot, (hasset _).trans (if_pos rfl)⟩
  · intro k
    rw [hsize]
    constructor
    · intro heq
      cases heq
      exact ⟨Nat.le_refl _, Nat.lt_succ_self _⟩
    · rintro ⟨hle, hlt⟩
      obtain rfl : k = s.assets.size := Nat.le_antisymm (Nat.le_of_lt_succ hlt) hle
      rfl

/-- Each call that returns does this. -/
theorem Answered.of_run (hsound : s.SoundLinks) (hr : r < s.registries.size)
    (hrun : findOrCreate r p.kind p.key s = .ok answer t) : Answered r p s answer t := by
  rcases findOrCreate_cases hrun with
    ⟨h, hfind, rfl, rfl⟩ | ⟨hfind, rfl, slot, linked, fields, hpush, rfl⟩
  · exact .of_found hfind
  · exact .of_created hsound hr hfind hpush

end Calling

/-- What several calls that find or make assets have agreed on. -/
structure Agreed (r : RegistryId) (calls : List Request) (s : State)
    (answers : List (Lookup × Handle)) (t : State) : Prop where
  /-- Every call was answered. -/
  length : answers.length = calls.length
  /-- No asset was forgotten. -/
  grows : s.assets.size ≤ t.assets.size
  /-- Nothing has changed at an address that no call looked for. -/
  quiet : ∀ p : Request, p.times calls = 0 → p.find? t r = p.find? s r
  /-- The calls that looked for one address have one asset, which lives there now. If
  nothing lived there before, the first of them has made it; all others have found it. -/
  one : ∀ p : Request, 0 < p.times calls → ∃ h, p.find? t r = some h ∧
    (∀ k, p.find? s r = some k → k = h) ∧ (p.find? s r = none → s.assets.size ≤ h) ∧
    p.answersIn calls answers = (if p.find? s r = none then Lookup.created else .found, h) ::
      List.replicate (p.times calls - 1) (.found, h)
  /-- No other call has that asset. -/
  apart : ∀ (p : Request) h, p.find? t r = some h → timesReturned h answers = p.times calls
  /-- An asset that was there has one reference more for each time that it was returned,
  and is the same otherwise. -/
  kept : ∀ h, h < s.assets.size →
    t.asset h = { s.asset h with refs := (s.asset h).refs + timesReturned h answers }
  /-- The assets that were made have just these references. -/
  fresh : ∀ h, s.assets.size ≤ h → h < t.assets.size → ∃ kind key slot, t.asset h =
    { Asset.fresh kind key with slot := some slot, refs := timesReturned h answers }
  /-- They are those that some call has made. -/
  made : ∀ h, (.created, h) ∈ answers ↔ s.assets.size ≤ h ∧ h < t.assets.size

namespace Agreed

variable {r : RegistryId} {calls : List Request} {s t : State} {answers : List (Lookup × Handle)}
  {p : Request} {h : Handle}

theorem nil (r : RegistryId) (s : State) : Agreed r [] s [] s where
  length := rfl
  grows := Nat.le_refl _
  quiet _ _ := rfl
  one _ hnone := absurd hnone (Nat.lt_irrefl 0)
  apart _ _ _ := rfl
  kept h _ := by
    show s.asset h = { s.asset h with refs := (s.asset h).refs + 0 }
    rw [Int.add_zero]
  fresh h hle hlt := absurd hlt (Nat.not_lt.2 hle)
  made h := by
    constructor
    · exact fun hmem => absurd hmem List.not_mem_nil
    · exact fun ⟨hle, hlt⟩ => absurd hlt (Nat.not_lt.2 hle)

/-- What lives at an address goes on living there. -/
theorem persists (hst : Agreed r calls s answers t) (hfind : p.find? s r = some h) :
    p.find? t r = some h := by
  by_cases hp : 0 < p.times calls
  · obtain ⟨k, hk, hsame, -⟩ := hst.one p hp
    rw [hk, hsame h hfind]
  · rw [hst.quiet p (by omega), hfind]

section Cons

variable {q : Request} {s' : State} {answer : Lookup × Handle}

theorem timesReturned_cons (h : Handle) (answer : Lookup × Handle)
    (answers : List (Lookup × Handle)) : timesReturned h (answer :: answers) =
      timesReturned h answers + if answer.2 = h then 1 else 0 := by
  simp [timesReturned, List.countP_cons]

/-- The first call leaves an asset at its address, which all others find there. -/
theorem answersIn_cons (hfirst : Answered r p s answer s') (hst : Agreed r calls s' answers t)
    (hrivals : p.Rivals q) : q.answersIn (p :: calls) (answer :: answers) =
      (if q.find? s r = none then Lookup.created else .found, answer.2) ::
        List.replicate (q.times (p :: calls) - 1) (.found, answer.2) := by
  have hfind : q.find? s' r = some answer.2 := by rw [hfirst.find, if_pos hrivals]
  rw [Request.answersIn_cons_of_rivals hrivals, Request.times_cons_of_rivals hrivals,
    Nat.add_sub_cancel, ← hrivals.find?_eq, ← hfirst.lookup]
  refine congrArg (answer :: ·) ?_
  by_cases hmore : 0 < q.times calls
  · obtain ⟨k, -, hk, -, hanswers⟩ := hst.one q hmore
    obtain rfl := hk answer.2 hfind
    rw [hanswers, hfind, if_neg (by simp), ← List.replicate_succ, Nat.sub_add_cancel hmore]
  · have hnone : q.times calls = 0 := by omega
    rw [Request.answersIn_of_times_eq_zero hnone, hnone, List.replicate_zero]

/-- Only the calls that look for its address have the asset that lives there. -/
theorem apart_cons (hfirst : Answered r p s answer s') (hst : Agreed r calls s' answers t)
    (hq : q.find? t r = some h) :
    timesReturned h (answer :: answers) = q.times (p :: calls) := by
  have hself : p.find? t r = some answer.2 :=
    hst.persists (by rw [hfirst.find, if_pos ⟨rfl, rfl⟩])
  rw [timesReturned_cons, hst.apart q h hq]
  by_cases hrivals : p.Rivals q
  · rw [hrivals.find?_eq, hq] at hself
    rw [if_pos (Option.some.inj hself).symm, Request.times_cons_of_rivals hrivals]
  · have hne : answer.2 ≠ h := by
      rintro rfl
      exact hrivals (Request.rivals_of_find? hself hq)
    rw [if_neg hne, Request.times_cons_of_not_rivals hrivals]
    rfl

/-- What the answers to a call and to those after it have in common. -/
theorem cons (hfirst : Answered r p s answer s') (hst : Agreed r calls s' answers t) :
    Agreed r (p :: calls) s (answer :: answers) t := by
  constructor
  · rw [List.length_cons, List.length_cons, hst.length]
  · exact Nat.le_trans hfirst.grows hst.grows
  · intro q hq
    have hnot : ¬ p.Rivals q := by
      intro hrivals
      rw [Request.times_cons_of_rivals hrivals] at hq
      omega
    rw [Request.times_cons_of_not_rivals hnot] at hq
    rw [hst.quiet q hq, hfirst.find, if_neg hnot]
  · intro q hq
    by_cases hrivals : p.Rivals q
    · -- what answered the first call answers all its later rivals
      refine ⟨answer.2, hst.persists (by rw [hfirst.find, if_pos hrivals]), ?_, ?_,
        answersIn_cons hfirst hst hrivals⟩
      · rw [← hrivals.find?_eq]
        exact hfirst.same
      · rw [← hrivals.find?_eq]
        exact hfirst.new
    · rw [Request.times_cons_of_not_rivals hrivals] at hq ⊢
      rw [Request.answersIn_cons_of_not_rivals hrivals]
      obtain ⟨h, hh, hk, hfree, hanswers⟩ := hst.one q hq
      rw [hfirst.find, if_neg hrivals] at hk hfree hanswers
      exact ⟨h, hh, hk, fun hnone => Nat.le_trans hfirst.grows (hfree hnone), hanswers⟩
  · exact fun q h hq => apart_cons hfirst hst hq
  · intro h hh
    rw [hst.kept h (Nat.lt_of_lt_of_le hh hfirst.grows), hfirst.kept h hh, timesReturned_cons]
    simp only [Asset.mk.injEq, true_and, and_true]
    split
    next => simp only [Nat.cast_add, Nat.cast_one]; omega
    next => simp
  · intro h hle hlt
    rw [timesReturned_cons]
    -- it is new by the first call, or by a later one
    by_cases hh : h < s'.assets.size
    · obtain ⟨hanswer, kind, key, slot, hasset⟩ := hfirst.fresh h hle hh
      refine ⟨kind, key, slot, ?_⟩
      rw [hst.kept h hh, hasset, if_pos hanswer]
      simp [Asset.fresh, Int.add_comm]
    · obtain ⟨kind, key, slot, hasset⟩ := hst.fresh h (Nat.not_lt.1 hh) hlt
      have hne : answer.2 ≠ h := by
        rintro rfl
        exact hh hfirst.known
      refine ⟨kind, key, slot, ?_⟩
      rw [hasset, if_neg hne]
      rfl
  · intro h
    have hgrows := hst.grows
    rw [List.mem_cons, hst.made, hfirst.made]
    constructor
    · rintro (⟨hle, hlt⟩ | ⟨hle, hlt⟩)
      · exact ⟨hle, Nat.lt_of_lt_of_le hlt hgrows⟩
      · exact ⟨Nat.le_trans hfirst.grows hle, hlt⟩
    · rintro ⟨hle, hlt⟩
      by_cases hh : h < s'.assets.size
      · exact .inl ⟨hle, hh⟩
      · exact .inr ⟨Nat.not_lt.1 hh, hlt⟩

end Cons

/-- Calls that return have agreed. -/
theorem of_run (hsound : s.SoundLinks) (hr : r < s.registries.size)
    (hrun : findOrCreateAll r calls s = .ok answers t) : Agreed r calls s answers t := by
  induction calls generalizing s answers with
  | nil =>
    cases hrun
    exact .nil r _
  | cons p calls ih =>
    obtain ⟨answer, s', hfirst, hrest⟩ := Exec.bind_eq_ok hrun
    obtain ⟨answers', t', hothers, hpure⟩ := Exec.bind_eq_ok hrest
    cases hpure
    obtain ⟨hsound', hr', -⟩ := findOrCreate_links hsound hr hfirst
    exact .cons (.of_run hsound hr hfirst) (ih hsound' hr' hothers)

/-- Every answer is that of a call, and the asset lives at the address of the call. -/
theorem exists_call (hst : Agreed r calls s answers t) {answer : Lookup × Handle}
    (hmem : answer ∈ answers) :
    ∃ p : Request, 0 < p.times calls ∧ p.find? t r = some answer.2 := by
  obtain ⟨i, hi, rfl⟩ := List.getElem_of_mem hmem
  have hi' : i < calls.length := hst.length ▸ hi
  let p := calls[i]
  have htimes : 0 < p.times calls :=
    List.countP_pos_iff.2 ⟨p, List.getElem_mem hi', decide_eq_true ⟨rfl, rfl⟩⟩
  have hzip : (p, answers[i]) ∈ calls.zip answers := by
    have hlt : i < (calls.zip answers).length := by
      rw [List.length_zip]
      exact Nat.lt_min.2 ⟨hi', hi⟩
    rw [← List.getElem_zip (h := hlt)]
    exact List.getElem_mem hlt
  have hanswer : answers[i] ∈ p.answersIn calls answers := by
    rw [Request.answersIn, List.mem_map]
    exact ⟨(p, answers[i]), List.mem_filter.2 ⟨hzip, decide_eq_true ⟨rfl, rfl⟩⟩, rfl⟩
  obtain ⟨h, hfind, -, -, hall⟩ := hst.one p htimes
  refine ⟨p, htimes, ?_⟩
  -- all answers at this address name one asset
  rw [hall] at hanswer
  rcases List.mem_cons.1 hanswer with heq | hmem
  · rw [heq, hfind]
  · rw [List.eq_of_mem_replicate hmem, hfind]

/-- An asset that was returned and not made lived before. -/
theorem live_of_returned (hst : Agreed r calls s answers t) (hknown : h < s.assets.size)
    (hreturned : 0 < timesReturned h answers) : 0 < (s.asset h).refs := by
  obtain ⟨answer, hmem, hanswer⟩ := List.countP_pos_iff.1 hreturned
  obtain rfl : answer.2 = h := of_decide_eq_true hanswer
  obtain ⟨p, htimes, hfind⟩ := hst.exists_call hmem
  obtain ⟨k, hk, hsame, hnew, -⟩ := hst.one p htimes
  obtain rfl : answer.2 = k := Option.some.inj (hfind.symm.trans hk)
  cases hbefore : p.find? s r with
  | none => exact absurd (hnew hbefore) (Nat.not_le.2 hknown)
  | some k =>
    rw [← hsame k hbefore]
    exact (State.answersTo_iff.1 (List.find?_some hbefore)).2.2

/-- Every asset that was returned has a reference for each time that it was. If it has no
other it was made by the calls, and its contents are plain. -/
theorem releasable (hst : Agreed r calls s answers t) (hreturned : 0 < timesReturned h answers) :
    (timesReturned h answers : Int) ≤ (t.asset h).refs ∧
      ((t.asset h).refs = timesReturned h answers → (t.asset h).destroyed = false ∧
        ∃ c, (t.asset h).contents = some c ∧ c.IsPlain) := by
  by_cases hold : h < s.assets.size
  · -- what was found has a reference of somebody else besides
    have hlive := hst.live_of_returned hold hreturned
    rw [hst.kept h hold]
    show (timesReturned h answers : Int) ≤ (s.asset h).refs + _ ∧
      ((s.asset h).refs + _ = _ → _)
    exact ⟨by omega, fun heq => by omega⟩
  · obtain ⟨answer, hmem, hanswer⟩ := List.countP_pos_iff.1 hreturned
    obtain rfl : answer.2 = h := of_decide_eq_true hanswer
    obtain ⟨p, -, hfind⟩ := hst.exists_call hmem
    have hknown := State.lt_size_of_whole (.inr (State.answersTo_iff.1 (List.find?_some hfind)).2.2)
    obtain ⟨kind, key, slot, hasset⟩ := hst.fresh _ (Nat.not_lt.1 hold) hknown
    rw [hasset]
    exact ⟨Int.le_refl _, fun _ => ⟨rfl, _, rfl, rfl, rfl⟩⟩

/-- An asset that was made has one reference for each time that it was returned. -/
theorem refs_of_made (hst : Agreed r calls s answers t) (hmade : (.created, h) ∈ answers) :
    (t.asset h).refs = timesReturned h answers := by
  obtain ⟨hle, hlt⟩ := (hst.made h).1 hmade
  obtain ⟨kind, key, slot, hasset⟩ := hst.fresh h hle hlt
  rw [hasset]

/-- Releases of what was returned return. An asset that was made is destroyed if it is
released as many times as it was returned. -/
theorem releaseAll_returned (hst : Agreed r calls s answers t) (hmade : (.created, h) ∈ answers)
    (hnever : t.endsOf h = 0) (fuel : Nat) (scope : Scope) {hs : List Handle}
    (hle : ∀ k, hs.count k ≤ timesReturned k answers) :
    ∃ e, releaseAll (run (fuel + 1)) scope .client hs t = .ok () e ∧
      (e.asset h).refs = timesReturned h answers - hs.count h ∧
      ((e.asset h).destroyed = true ↔ hs.count h = timesReturned h answers) ∧
      e.endsOf h = if hs.count h = timesReturned h answers then 1 else 0 := by
  have hreturned (k : Handle) (hk : k ∈ hs) : 0 < timesReturned k answers :=
    Nat.lt_of_lt_of_le (List.count_pos_iff.2 hk) (hle k)
  -- nobody gives back more than was returned, so every release finds a reference
  have haffords : t.Affords hs := by
    constructor
    · exact fun k hk => Int.le_trans (Int.ofNat_le.2 (hle k)) (hst.releasable (hreturned k hk)).1
    · intro k hk
      obtain ⟨hmore, hlast⟩ := hst.releasable (hreturned k hk.1)
      have hcount := hle k
      have hall := hk.2
      exact hlast (by omega)
  obtain ⟨e, hreleased, he⟩ := releaseAll_returns fuel scope .client haffords
  refine ⟨e, hreleased, ?_⟩
  obtain ⟨hnew, hknown⟩ := (hst.made h).1 hmade
  obtain ⟨kind, key, slot, hasset⟩ := hst.fresh h hnew hknown
  have hrefs := hst.refs_of_made hmade
  have hwhole : (t.asset h).destroyed = false := by
    rw [hasset]
    rfl
  -- all references are those that were returned, so giving back all of them ends it
  have hexhausts : t.Exhausts hs h ↔ hs.count h = timesReturned h answers := by
    have htimes : 0 < timesReturned h answers :=
      List.countP_pos_iff.2 ⟨_, hmade, decide_eq_true rfl⟩
    unfold State.Exhausts
    rw [hrefs]
    constructor
    · rintro ⟨-, heq⟩
      exact_mod_cast heq
    · intro heq
      exact ⟨List.count_pos_iff.1 (by omega), by exact_mod_cast heq⟩
  obtain ⟨hleft, hdestroyed, hends⟩ := he h hknown
  refine ⟨?_, ?_, ?_⟩
  · rw [hleft, hrefs]
  · rw [hdestroyed, hwhole, hexhausts]
    simp
  · rw [hends, hnever]
    simp only [hexhausts, Nat.zero_add]

/-- The count of the asset at an address has grown by the number of the calls that looked
for it, and from zero if it was made. -/
theorem refs_of_find? (hst : Agreed r calls s answers t) (hfind : p.find? t r = some h)
    (htimes : 0 < p.times calls) : (t.asset h).refs =
      (if p.find? s r = none then 0 else (s.asset h).refs) + p.times calls := by
  have hlive : 0 < (t.asset h).refs := (State.answersTo_iff.1 (List.find?_some hfind)).2.2
  have hknown : h < t.assets.size := State.lt_size_of_whole (.inr hlive)
  obtain ⟨k, hk, hsame, hnew, -⟩ := hst.one p htimes
  obtain rfl : h = k := Option.some.inj (hfind.symm.trans hk)
  rw [← hst.apart p h hfind]
  cases hbefore : p.find? s r with
  | none =>
    obtain ⟨kind, key, slot, hasset⟩ := hst.fresh h (hnew hbefore) hknown
    rw [hasset, if_pos rfl, Int.zero_add]
  | some k =>
    obtain rfl := hsame k hbefore
    have hlive : 0 < (s.asset k).refs := (State.answersTo_iff.1 (List.find?_some hbefore)).2.2
    rw [hst.kept k (State.lt_size_of_whole (.inr hlive)), if_neg (by simp)]

end Agreed

/-- Calls return if there is room for all that they may make. -/
theorem findOrCreateAll_returns {r : RegistryId} {s : State} (hsound : s.SoundLinks)
    (hr : r < s.registries.size) (calls : List Request)
    (hroom : (s.registry r).linked.places.size + calls.length < 2 ^ 32) :
    ∃ answers t, findOrCreateAll r calls s = .ok answers t := by
  induction calls generalizing s with
  | nil => exact ⟨[], s, rfl⟩
  | cons p calls ih =>
    rw [List.length_cons] at hroom
    have hone : (s.registry r).linked.places.size < 2 ^ 32 - 1 := by omega
    obtain ⟨answer, s', hfirst⟩ := findOrCreate_returns hsound hone p.kind p.key
    obtain ⟨hsound', hr', hplaces⟩ := findOrCreate_links hsound hr hfirst
    obtain ⟨answers, t, hrest⟩ := ih hsound' hr' (by omega)
    refine ⟨answer :: answers, t, ?_⟩
    unfold findOrCreateAll
    rw [Exec.bind_of_ok hfirst, Exec.bind_of_ok hrest]
    rfl

/-! ### The law -/

/-- What becomes of an asset that racing calls have made, in a scene right after them, if
its references are released and no other is taken. -/
structure GoesWithLast (c : Scene) (answers : List (Lookup × Handle)) (h : Handle) : Prop where
  /-- Whatever else happens, it goes with the last release, and not before. -/
  lasts : LastsFor c h (timesReturned h answers)
  /-- If nothing happens but that assets are released which were returned, in any order,
  then all of this returns. -/
  released : ∀ fuel scope (hs : List Handle),
    (∀ k, hs.count k ≤ timesReturned k answers) → ∃ t,
      releaseAll (run (fuel + 1)) scope .client hs c.state = .ok () t ∧
        (t.asset h).refs = timesReturned h answers - hs.count h ∧
        ((t.asset h).destroyed = true ↔ hs.count h = timesReturned h answers) ∧
        t.endsOf h = if hs.count h = timesReturned h answers then 1 else 0

/-- What holds of any number of calls that find or make assets, after which the state is
the one given. -/
structure RaceLaw (c : Scene) (r : RegistryId) (calls : List Request)
    (answers : List (Lookup × Handle)) (t : State) : Prop where
  agreed : Agreed r calls c.state answers t
  /-- The count at each address has grown by the number of calls that looked for it. -/
  counted : ∀ (p : Request) h, p.find? t r = some h → 0 < p.times calls → (t.asset h).refs =
    (if p.find? c.state r = none then 0 else (c.state.asset h).refs) + p.times calls
  /-- As long as the scheduler's registry is the only one, nothing at all lived at the
  address of an asset that was made. -/
  alone : c.state.Sole → ∀ p : Request, p.find? c.state r = none →
    ∀ h, c.state.answersTo p.key.id p.kind.category h = false
  goes : ∀ h, (.created, h) ∈ answers → GoesWithLast ⟨⟨c.underWay, t⟩, c.due⟩ answers h

/-- **Racing lookups agree.** Wherever client code may run, whatever it has done before,
and in whatever order any number of callers come to look for assets. -/
theorem racing_lookups_agree {c : Scene} (hc : Occurs c) {r : RegistryId}
    (hr : Serves c.underWay r) (calls : List Request) :
    ((c.state.registry r).linked.places.size + calls.length < 2 ^ 32 →
      ∃ answers t, findOrCreateAll r calls c.state = .ok answers t) ∧
    ∀ answers t, findOrCreateAll r calls c.state = .ok answers t →
      RaceLaw c r calls answers t := by
  have hsound := hc.soundLinks
  have hlt := hc.lt_of_serves hr
  refine ⟨findOrCreateAll_returns hsound hlt calls, fun answers t hrun => ?_⟩
  have hagreed := Agreed.of_run hsound hlt hrun
  have hafter : Occurs ⟨⟨c.underWay, t⟩, c.due⟩ :=
    hc.strides ((leads_findOrCreateAll hr calls).strides hrun c.due)
  refine ⟨hagreed, fun p h hfind htimes => hagreed.refs_of_find? hfind htimes, ?_, ?_⟩
  · -- with one registry, a lookup that finds nothing means that no live asset has the name
    intro hsole p hnone h
    have haddressed : Addressed c.toMoment := hc.moves_invariant Addressed.start Addressed.move
    have hzero : r = 0 := hc.expiring.1.eq_zero hsole hr
    subst hzero
    exact haddressed.silent_of_find?_eq_none hsole hnone h
  · intro h hmade
    refine ⟨hafter.lastsFor (hagreed.refs_of_made hmade), fun fuel scope hs hle => ?_⟩
    obtain ⟨hnew, hknown⟩ := (hagreed.made h).1 hmade
    obtain ⟨kind, key, slot, hasset⟩ := hagreed.fresh h hnew hknown
    -- the asset was made in this run and is whole, so it has no end yet
    have hnever : t.endsOf h = 0 := by
      refine hafter.expiring.2.never h fun hgone => ?_
      have hdestroyed : (t.asset h).destroyed = true := hgone.2
      rw [hasset] at hdestroyed
      cases hdestroyed
    exact hagreed.releaseAll_returned hmade hnever fuel scope hle

/-- Five callers look for the asset that waits for its destruction, for the live one, and
for one of another category. -/
def fiveCalls : List Request :=
  [⟨.standard .mesh, .ofId ⟨2⟩⟩, ⟨.standard .mesh, .ofId ⟨1⟩⟩, ⟨.standard .mesh, .ofId ⟨2⟩⟩,
    ⟨.standard .tex, .ofId ⟨1⟩⟩, ⟨.standard .mesh, .ofId ⟨2⟩⟩]

theorem fiveCalls_agree :
    ∃ t, findOrCreateAll 0 fiveCalls placeReused =
        .ok [(.created, 3), (.found, 2), (.found, 3), (.created, 4), (.found, 3)] t ∧
      RaceLaw ⟨⟨[], placeReused⟩, []⟩ 0 fiveCalls
        [(.created, 3), (.found, 2), (.found, 3), (.created, 4), (.found, 3)] t ∧
      (t.asset 3).refs = 3 ∧ (t.asset 2).refs = 2 := by
  have hc : Occurs ⟨⟨[], placeReused⟩, []⟩ := ((Reached.start _).after 4 _).occurs
  obtain ⟨hreturns, hlaw⟩ := racing_lookups_agree hc (.inl rfl) fiveCalls
  obtain ⟨answers, t, hrun⟩ := hreturns (by decide +kernel)
  have hanswers : (match findOrCreateAll 0 fiveCalls placeReused with
      | .ok given t => decide (given =
          [(.created, 3), (.found, 2), (.found, 3), (.created, 4), (.found, 3)]) &&
            decide ((t.asset 3).refs = 3) && decide ((t.asset 2).refs = 2)
      | .error _ _ => false) = true := by decide +kernel
  change findOrCreateAll 0 fiveCalls placeReused = .ok answers t at hrun
  rw [hrun] at hanswers
  simp only [Bool.and_eq_true, decide_eq_true_eq] at hanswers
  obtain ⟨⟨rfl, hthree⟩, htwo⟩ := hanswers
  exact ⟨t, hrun, hlaw _ t hrun, hthree, htwo⟩

end AssetLoading

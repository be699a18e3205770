import AssetLoading.Proofs.Slot.Arena

/-! # Slots are keys that open once

  The slot under which an element is stored leads to that element and to no other,
  however often the place is used again: the generation of a place counts how often it
  was given up, so no slot is handed out twice. An arena is thus a map whose keys are
  never used again, and what is in it can be read off the changes that were made to it
  (`keys_open_once`).
-/

namespace AssetLoading

namespace Arena

variable {α : Type}

/-! ### Changes -/

/-- One use of an arena. -/
inductive Operation (α : Type) where
  | push (a : α)
  | get (slot : Slot)
  | tryTake (slot : Slot)
  | take (slot : Slot)

/-- What a use can change. -/
inductive Change (α : Type) where
  /-- An element was stored and can be found under a slot. -/
  | stored (slot : Slot) (a : α)
  /-- The element under a slot was taken out. -/
  | removed (slot : Slot)

namespace Change

/-- The slots that were handed out. -/
def issued : List (Change α) → List Slot
  | [] => []
  | .stored slot _ :: earlier => slot :: issued earlier
  | .removed _ :: earlier => issued earlier

/-- How often the place with an index was given up. -/
def removals (i : UInt32) : List (Change α) → Nat
  | [] => 0
  | .stored _ _ :: earlier => removals i earlier
  | .removed slot :: earlier =>
    if slot.index = .ok i then removals i earlier + 1 else removals i earlier

/-- The elements that have not been taken out since they were stored, by their slots. -/
def live : List (Change α) → List (Slot × α)
  | [] => []
  | .stored slot a :: earlier => (slot, a) :: live earlier
  | .removed slot :: earlier => (live earlier).filter fun entry => entry.1 ≠ slot

/-- An element is live if its slot was not used to take it out later. -/
theorem mem_live {changes : List (Change α)} {slot : Slot} {a : α} :
    (slot, a) ∈ live changes ↔
      ∃ later earlier, changes = later ++ .stored slot a :: earlier ∧ .removed slot ∉ later := by
  -- on the changes, the latest first: the latest one stores, or it removes
  induction changes with
  | nil => simp [live]
  | cons change earlier ih =>
    constructor
    · intro h
      cases change with
      | stored s b =>
        rcases List.mem_cons.1 h with heq | h
        · cases heq
          exact ⟨[], earlier, rfl, List.not_mem_nil⟩
        · obtain ⟨later, earliest, rfl, hkept⟩ := ih.1 h
          exact ⟨.stored s b :: later, earliest, rfl, by simp [hkept]⟩
      | removed s =>
        obtain ⟨h, hne⟩ := List.mem_filter.1 h
        obtain ⟨later, earliest, rfl, hkept⟩ := ih.1 h
        have hne : slot ≠ s := of_decide_eq_true hne
        exact ⟨.removed s :: later, earliest, rfl, by simp [hkept, hne]⟩
    · rintro ⟨later, earliest, hchanges, hkept⟩
      cases later with
      | nil =>
        cases hchanges
        exact List.mem_cons_self
      | cons latest later =>
        cases hchanges
        rw [List.mem_cons, not_or] at hkept
        -- no later change removed it, so neither did the latest
        have hbefore : (slot, a) ∈ live (later ++ .stored slot a :: earliest) :=
          ih.2 ⟨later, earliest, rfl, hkept.2⟩
        cases change with
        | stored s b => exact List.mem_cons_of_mem _ hbefore
        | removed s =>
          have hne : slot ≠ s := fun heq => hkept.1 (heq ▸ rfl)
          exact List.mem_filter.2 ⟨hbefore, decide_eq_true hne⟩

/-- Live elements have slots that were handed out, in the order in which they were. -/
theorem live_sublist (changes : List (Change α)) :
    ((live changes).map Prod.fst).Sublist (issued changes) := by
  induction changes with
  | nil => exact List.Sublist.slnil
  | cons change earlier ih =>
    cases change with
    | stored slot a => exact ih.cons_cons slot
    | removed slot =>
      have hfilter : ((live earlier).filter fun entry => entry.1 ≠ slot).Sublist (live earlier) :=
        List.filter_sublist
      exact (hfilter.map Prod.fst).trans ih

/-- Places are not given up more often than there are changes. -/
theorem removals_le (i : UInt32) (changes : List (Change α)) :
    removals i changes ≤ changes.length := by
  induction changes with
  | nil => exact Nat.le_refl 0
  | cons change earlier ih =>
    cases change with
    | stored slot a => exact Nat.le_succ_of_le ih
    | removed slot =>
      unfold removals
      split <;> simp only [List.length_cons] <;> omega

end Change

/-- An arena with the changes that were made to it, the latest first. -/
structure Logbook (α : Type) where
  arena : Arena α := {}
  changes : List (Change α) := []

/-- Use the arena and write down what changed. -/
def Logbook.perform (l : Logbook α) : Operation α → Logbook α
  | .push a =>
    match l.arena.push a with
    | .ok (slot, arena) => ⟨arena, .stored slot a :: l.changes⟩
    | .error _ => l
  | .get _ => l
  | .tryTake slot =>
    match l.arena.take? slot with
    | some (_, arena) => ⟨arena, .removed slot :: l.changes⟩
    | none => l
  | .take slot =>
    match l.arena.take slot with
    | .ok (_, arena) => ⟨arena, .removed slot :: l.changes⟩
    | .error _ => l

/-- Use an empty arena some number of times. -/
def Logbook.after (operations : List (Operation α)) : Logbook α :=
  operations.foldl Logbook.perform {}

/-! ### Single operations -/

section Operations

variable {s t : Arena α} {slot : Slot} {a : α}

/-- Nothing is taken out exactly if nothing is found. -/
theorem take?_eq_none : s.take? slot = none ↔ s.get? slot = none := by
  constructor
  · intro htake
    cases hget : s.get? slot with
    | none => rfl
    | some a => exact absurd htake (take?_ne_none hget)
  · intro hget
    unfold take?
    rw [hget]
    split
    next heq => cases heq
    next => rfl

/-- The place of a new element was empty, at the generation that the slot has, or it
is a new place of the first generation. -/
theorem Sound.place_before_push (hs : s.Sound) (h : s.push a = .ok (slot, t)) {i : UInt32}
    (hi : slot.index = .ok i) :
    s.places[i.toNat]? = some ⟨slot.generation, none⟩ ∨
      s.places[i.toNat]? = none ∧ slot.generation = 0 := by
  rcases push_eq_ok h with ⟨j, free, hfree, hpack, -⟩ | ⟨-, hpack, -⟩
  · left
    obtain rfl : i = j := by simpa [hi] using Slot.index_of_pack hpack
    obtain ⟨g, hplace⟩ := hs.free_empty i (by simp [hfree])
    rw [hplace] at hpack
    rw [hplace, Slot.generation_of_pack hpack]
    rfl
  · right
    have hsize : s.places.size.toUInt32.toNat = s.places.size := Nat.mod_eq_of_lt hs.bounded
    obtain rfl : i = s.places.size.toUInt32 := by simpa [hi] using Slot.index_of_pack hpack
    exact ⟨by simp [hsize], Slot.generation_of_pack hpack⟩

/-- There is room in every free place. -/
theorem Sound.exists_push_of_free (hs : s.Sound) {i : UInt32} {free : List UInt32}
    (hfree : s.free = i :: free) (a : α) : ∃ slot t, s.push a = .ok (slot, t) := by
  obtain ⟨g, hplace⟩ := hs.free_empty i (by simp [hfree])
  have hlt : i.toNat < s.places.size := (Array.getElem?_eq_some_iff.1 hplace).1
  have hindex : i ≠ 4294967295 := by
    rintro rfl
    have hbounded := hs.bounded
    have hlt : 4294967295 < s.places.size := hlt
    omega
  obtain ⟨slot, hslot⟩ := Slot.exists_pack ((s.places[i.toNat]?).elim 0 Place.generation) hindex
  unfold Arena.push
  rw [hfree]
  simp only [hslot]
  exact ⟨_, _, rfl⟩

/-- There is room as long as the next index can be packed. -/
theorem Sound.exists_push (hs : s.Sound) (hroom : s.places.size < 2 ^ 32 - 1) (a : α) :
    ∃ slot t, s.push a = .ok (slot, t) := by
  cases hfree : s.free with
  | cons i free => exact hs.exists_push_of_free hfree a
  | nil =>
    have hsize : s.places.size.toUInt32.toNat = s.places.size := Nat.mod_eq_of_lt hs.bounded
    have hindex : s.places.size.toUInt32 ≠ 4294967295 := by
      intro hmax
      have hmax : s.places.size = 4294967295 := hsize.symm.trans (congrArg UInt32.toNat hmax)
      omega
    obtain ⟨slot, hslot⟩ := Slot.exists_pack 0 hindex
    unfold Arena.push
    rw [hfree]
    simp only [hslot]
    exact ⟨_, _, rfl⟩

/-- So there is room as long as there are not as many elements as indices. -/
theorem Sound.exists_push_of_filled (hs : s.Sound) (hfilled : s.Filled)
    (hroom : s.toList.length < 2 ^ 32 - 1) (a : α) : ∃ slot t, s.push a = .ok (slot, t) := by
  cases hfree : s.free with
  | cons i free => exact hs.exists_push_of_free hfree a
  | nil =>
    unfold Filled at hfilled
    rw [hfree, List.length_nil, Nat.zero_add] at hfilled
    exact hs.exists_push (hfilled ▸ hroom) a

/-- A new element comes somewhere between the others, which keep their order. -/
theorem Sound.toList_of_push (hs : s.Sound) (h : s.push a = .ok (slot, t)) :
    ∃ front back, s.toList = front ++ back ∧ t.toList = front ++ a :: back := by
  unfold toList
  rcases push_eq_ok h with ⟨i, free, hfree, -, rfl⟩ | ⟨-, -, rfl⟩
  · obtain ⟨g, hplace⟩ := hs.free_empty i (by simp [hfree])
    obtain ⟨front, back, hold, hnew⟩ :=
      toList_modify (f := fun p => { p with content := some a }) hplace
    refine ⟨front.filterMap Place.content, back.filterMap Place.content, ?_, ?_⟩
    · simp [hold]
    · rw [hnew, List.filterMap_append]
      rfl
  · refine ⟨s.places.toList.filterMap Place.content, [], ?_, ?_⟩
    · rw [List.append_nil]
    · simp

/-- The new slot leads to the new element, and every other slot where it did. -/
theorem Sound.get?_push_iff (hs : s.Sound) (h : s.push a = .ok (slot, t)) {k : Slot} {b : α} :
    t.get? k = some b ↔ (k, b) = (slot, a) ∨ s.get? k = some b := by
  obtain ⟨i, hi, hplace, hother, -⟩ := hs.push_places h
  constructor
  · intro hk
    obtain ⟨j, hj, hplaceK⟩ := get?_eq_some.1 hk
    by_cases hij : j = i
    · -- at one place only one generation is alive
      left
      subst hij
      rw [hplace, Option.some.injEq, Place.mk.injEq] at hplaceK
      obtain ⟨hgeneration, ha⟩ := hplaceK
      have hpack := Slot.pack_of_index hj
      rw [← hgeneration, Slot.pack_of_index hi] at hpack
      cases hpack
      cases ha
      rfl
    · right
      rw [hother j.toNat fun heq => hij (UInt32.toNat_inj.1 heq)] at hplaceK
      exact get?_eq_some.2 ⟨j, hj, hplaceK⟩
  · rintro (heq | hk)
    · cases heq
      exact hs.get?_push h
    · exact hs.get?_push_of_get? h hk

/-- The slot that was used leads nowhere any more, and every other slot where it did. -/
theorem get?_take?_iff (h : s.take? slot = some (a, t)) {k : Slot} {b : α} :
    t.get? k = some b ↔ s.get? k = some b ∧ k ≠ slot := by
  obtain ⟨hget, i, hi, rfl⟩ := take?_eq_some h
  obtain ⟨i', hi', hplace⟩ := get?_eq_some.1 hget
  obtain rfl : i = i' := by simpa [hi] using hi'
  constructor
  · intro hk
    obtain ⟨j, hj, hplaceK⟩ := get?_eq_some.1 hk
    rw [Array.getElem?_modify] at hplaceK
    by_cases hij : i.toNat = j.toNat
    · rw [if_pos hij, ← hij, hplace] at hplaceK
      simp at hplaceK
    · rw [if_neg hij] at hplaceK
      refine ⟨get?_eq_some.2 ⟨j, hj, hplaceK⟩, fun heq => hij ?_⟩
      subst heq
      rw [hi] at hj
      cases hj
      rfl
  · rintro ⟨hk, hne⟩
    apply get?_of_place_eq hk
    intro j hj
    rw [Array.getElem?_modify, if_neg]
    intro hij
    -- two slots that find the same place are the same
    obtain ⟨j', hj', hplaceK⟩ := get?_eq_some.1 hk
    obtain rfl : j = j' := by simpa [hj] using hj'
    obtain rfl : i = j := UInt32.toNat_inj.1 hij
    rw [hplace, Option.some.injEq, Place.mk.injEq] at hplaceK
    have hpack := Slot.pack_of_index hj
    rw [← hplaceK.1, Slot.pack_of_index hi] at hpack
    cases hpack
    exact hne rfl

end Operations

/-! ### Elements by slot -/

/-- The elements in index order, with their slots. -/
def elements (s : Arena α) : List (Slot × α) :=
  s.places.toList.zipIdx.filterMap fun (place, i) =>
    place.content.bind fun a => (Slot.pack place.generation i.toUInt32).toOption.map (·, a)

/-- One slot has the smaller index. -/
def Precedes (x y : Slot) : Prop :=
  ∃ i j, x.index = .ok i ∧ y.index = .ok j ∧ i < j

section Elements

variable {s : Arena α}

/-- What is listed for a place is its element, under the slot of the place. -/
theorem entry_eq_some {place : Place α} {i : Nat} {x : Slot × α}
    (h : (place.content.bind fun a =>
      (Slot.pack place.generation i.toUInt32).toOption.map (·, a)) = some x) :
    place = ⟨x.1.generation, some x.2⟩ ∧ x.1.index = .ok i.toUInt32 := by
  obtain ⟨a, ha, h⟩ := Option.bind_eq_some_iff.1 h
  obtain ⟨slot, hslot, rfl⟩ := Option.map_eq_some_iff.1 h
  cases hpack : Slot.pack place.generation i.toUInt32 with
  | error e => rw [hpack] at hslot; cases hslot
  | ok k =>
    rw [hpack] at hslot
    cases hslot
    rw [Slot.generation_of_pack hpack, ← ha]
    exact ⟨rfl, Slot.index_of_pack hpack⟩

theorem mem_elements (hs : s.Sound) {slot : Slot} {a : α} :
    (slot, a) ∈ s.elements ↔ s.get? slot = some a := by
  have hindex (i : Nat) (place : Place α) (hplace : s.places[i]? = some place) :
      i.toUInt32.toNat = i := by
    have hlt := (Array.getElem?_eq_some_iff.1 hplace).1
    exact Nat.mod_eq_of_lt (Nat.lt_trans hlt hs.bounded)
  rw [elements, List.mem_filterMap, get?_eq_some]
  constructor
  · rintro ⟨⟨place, i⟩, hmem, hentry⟩
    have hplace : s.places[i]? = some place := by
      rw [← Array.getElem?_toList]
      exact List.mem_zipIdx_iff_getElem?.1 hmem
    obtain ⟨rfl, hi⟩ := entry_eq_some hentry
    refine ⟨i.toUInt32, hi, ?_⟩
    rw [hindex i _ hplace, hplace]
  · rintro ⟨i, hi, hplace⟩
    refine ⟨(⟨slot.generation, some a⟩, i.toNat), ?_, ?_⟩
    · apply List.mem_zipIdx_iff_getElem?.2
      rw [Array.getElem?_toList]
      exact hplace
    · have hback : i.toNat.toUInt32 = i := by simp
      simp only [Option.bind_some, hback, Slot.pack_of_index hi]
      rfl

/-- Elements are listed in the order of their indices. -/
theorem elements_pairwise (hs : s.Sound) :
    s.elements.Pairwise fun x y => Precedes x.1 y.1 := by
  rw [elements, List.pairwise_filterMap, List.pairwise_iff_getElem]
  intro i j hi hj hij x hx y hy
  rw [List.getElem_zipIdx, Nat.zero_add] at hx hy
  refine ⟨_, _, (entry_eq_some hx).2, (entry_eq_some hy).2, ?_⟩
  have hsize : j < s.places.size := by simpa using hj
  have hbounded := hs.bounded
  have hindex (k : Nat) (hk : k ≤ j) : k.toUInt32.toNat = k := Nat.mod_eq_of_lt (by omega)
  rw [UInt32.lt_iff_toNat_lt, hindex i (Nat.le_of_lt hij), hindex j (Nat.le_refl j)]
  exact hij

/-- Without their slots these are all elements. -/
theorem map_snd_elements (hs : s.Sound) : s.elements.map Prod.snd = s.toList := by
  have hplaces : s.toList = s.places.toList.zipIdx.filterMap (Place.content ∘ Prod.fst) := by
    rw [← List.filterMap_map, List.zipIdx_map_fst]
    rfl
  rw [hplaces, elements, List.map_filterMap]
  apply List.filterMap_congr
  rintro ⟨place, i⟩ hmem
  have hlt : i < s.places.size := by
    have hplace := List.mem_zipIdx_iff_getElem?.1 hmem
    simpa using (List.getElem?_eq_some_iff.1 hplace).1
  have hpacked : i.toUInt32 ≠ 4294967295 := by
    intro hmax
    have hbounded := hs.bounded
    have hsame : i.toUInt32.toNat = i := Nat.mod_eq_of_lt (Nat.lt_trans hlt hbounded)
    rw [hmax] at hsame
    have hsame : 4294967295 = i := hsame
    omega
  cases hcontent : place.content with
  | none => simp [hcontent]
  | some a => simp [Slot.pack, hpacked, Except.toOption, hcontent]

end Elements

/-! ### Every sequence of uses -/

namespace Logbook

variable {l : Logbook α}

/-- How the arena and its changes fit together. -/
structure Kept (l : Logbook α) : Prop where
  sound : l.arena.Sound
  counted : l.arena.size = l.arena.toList.length
  live : ∀ slot a, (slot, a) ∈ Change.live l.changes ↔ l.arena.get? slot = some a
  /-- The generation of a place counts how often it was given up. -/
  generation : ∀ i : UInt32,
    (l.arena.places[i.toNat]?.elim 0 fun place => place.generation.toNat) =
      Change.removals i l.changes
  /-- A slot that was handed out is that of the element in its place, or is older. -/
  issued : ∀ slot ∈ Change.issued l.changes, ∃ i place, slot.index = .ok i ∧
    l.arena.places[i.toNat]? = some place ∧
      (slot.generation.toNat < place.generation.toNat ∨ l.arena.get? slot ≠ none)
  once : (Change.issued l.changes).Nodup

/-- No index was given up so often that its generations started again. -/
def Fresh (l : Logbook α) : Prop :=
  ∀ i, Change.removals i l.changes < 2 ^ 32

namespace Kept

theorem empty : Kept ({} : Logbook α) where
  sound := Sound.empty
  counted := rfl
  live slot a := by simp [Change.live, get?_eq_some]
  generation i := by simp [Change.removals]
  issued slot h := by simp [Change.issued] at h
  once := List.nodup_nil

/-- A slot is not handed out twice: the place that it addresses was empty, and older
slots of that place have older generations. -/
theorem not_issued (h : Kept l) {slot : Slot} {a : α} {s : Arena α}
    (hpush : l.arena.push a = .ok (slot, s)) : slot ∉ Change.issued l.changes := by
  intro hmem
  obtain ⟨i, place, hi, hplace, hold⟩ := h.issued slot hmem
  rcases h.sound.place_before_push hpush hi with hempty | ⟨hnew, -⟩
  · obtain rfl : place = ⟨slot.generation, none⟩ :=
      Option.some.inj (hplace.symm.trans hempty)
    rcases hold with hlt | hlive
    · exact Nat.lt_irrefl _ hlt
    · apply hlive
      unfold get?
      simp [hi, hempty]
  · rw [hnew] at hplace
    cases hplace

theorem push (h : Kept l) {slot : Slot} {a : α} {s : Arena α}
    (hpush : l.arena.push a = .ok (slot, s)) : Kept ⟨s, .stored slot a :: l.changes⟩ := by
  obtain ⟨hperm, hsize⟩ := h.sound.toList_push hpush
  obtain ⟨i, hi, hplace, hother, -⟩ := h.sound.push_places hpush
  have hbefore := h.sound.place_before_push hpush hi
  constructor
  · exact h.sound.push hpush
  · rw [hsize, hperm.length_eq, h.counted, List.length_cons]
  · intro k b
    rw [h.sound.get?_push_iff hpush, ← h.live]
    exact List.mem_cons
  · intro j
    show _ = Change.removals j l.changes
    rw [← h.generation j]
    by_cases hij : j = i
    · subst hij
      rw [hplace]
      rcases hbefore with hempty | ⟨hnew, hzero⟩
      · rw [hempty]
        rfl
      · rw [hnew]
        simp [hzero]
    · rw [hother j.toNat fun heq => hij (UInt32.toNat_inj.1 heq)]
  · intro k hk
    rcases List.mem_cons.1 hk with rfl | hk
    · refine ⟨i, _, hi, hplace, .inr ?_⟩
      rw [h.sound.get?_push hpush]
      exact Option.some_ne_none a
    · obtain ⟨j, place, hj, hplaceK, hold⟩ := h.issued k hk
      by_cases hij : j = i
      · -- an older slot of the place that is filled again
        subst hij
        rcases hbefore with hempty | ⟨hnew, -⟩
        · obtain rfl : place = ⟨slot.generation, none⟩ :=
            Option.some.inj (hplaceK.symm.trans hempty)
          refine ⟨j, _, hj, hplace, hold.imp id fun hlive => ?_⟩
          obtain ⟨b, hb⟩ := Option.ne_none_iff_exists'.1 hlive
          rw [h.sound.get?_push_of_get? hpush hb]
          exact Option.some_ne_none b
        · rw [hnew] at hplaceK
          cases hplaceK
      · refine ⟨j, place, hj, ?_, hold.imp id fun hlive => ?_⟩
        · rw [hother j.toNat fun heq => hij (UInt32.toNat_inj.1 heq)]
          exact hplaceK
        · obtain ⟨b, hb⟩ := Option.ne_none_iff_exists'.1 hlive
          rw [h.sound.get?_push_of_get? hpush hb]
          exact Option.some_ne_none b
  · exact List.nodup_cons.2 ⟨h.not_issued hpush, h.once⟩

theorem take (h : Kept l) {slot : Slot} {a : α} {s : Arena α}
    (htake : l.arena.take? slot = some (a, s))
    (hfresh : Fresh ⟨s, .removed slot :: l.changes⟩) : Kept ⟨s, .removed slot :: l.changes⟩ := by
  have hsound := h.sound.take? htake
  have hcounted : s.size = s.toList.length := by
    obtain ⟨hperm, hsize⟩ := toList_take? htake
    rw [hsize, h.counted, hperm.length_eq, List.length_cons, Nat.add_sub_cancel]
  have hlive (k : Slot) (b : α) : s.get? k = some b ↔ l.arena.get? k = some b ∧ k ≠ slot :=
    get?_take?_iff htake
  obtain ⟨hget, i, hi, rfl⟩ := take?_eq_some htake
  obtain ⟨i', hi', hplace⟩ := get?_eq_some.1 hget
  obtain rfl : i = i' := by simpa [hi] using hi'
  -- the generation of the place that is given up does not start again
  have hcount : Change.removals i (.removed slot :: l.changes) =
      Change.removals i l.changes + 1 := if_pos hi
  have hgeneration := h.generation i
  rw [hplace] at hgeneration
  have hgeneration : slot.generation.toNat = Change.removals i l.changes := hgeneration
  have hnext : (slot.generation + 1).toNat = slot.generation.toNat + 1 := by
    have hroom := hfresh i
    rw [hcount] at hroom
    rw [UInt32.toNat_add]
    exact Nat.mod_eq_of_lt (by show slot.generation.toNat + 1 < 2 ^ 32; omega)
  have hplaces (j : UInt32) : (l.arena.places.modify i.toNat
      fun p => (⟨p.generation + 1, none⟩ : Place α))[j.toNat]? =
        if j = i then some ⟨slot.generation + 1, none⟩ else l.arena.places[j.toNat]? := by
    rw [Array.getElem?_modify]
    by_cases hij : j = i
    · subst hij
      rw [if_pos rfl, if_pos rfl, hplace]
      rfl
    · rw [if_neg fun heq => hij (UInt32.toNat_inj.1 heq).symm, if_neg hij]
  constructor
  · exact hsound
  · exact hcounted
  · intro k b
    rw [hlive, ← h.live]
    show (k, b) ∈ (Change.live l.changes).filter _ ↔ _
    simp
  · intro j
    show Option.elim ((l.arena.places.modify i.toNat _)[j.toNat]?) _ _ = _
    rw [hplaces]
    by_cases hij : j = i
    · subst hij
      rw [if_pos rfl, hcount, ← hgeneration, ← hnext]
      rfl
    · have hne : ¬ slot.index = .ok j := by
        rw [hi]
        exact fun heq => hij (Except.ok.inj heq).symm
      rw [if_neg hij, h.generation]
      exact (if_neg hne).symm
  · intro k hk
    obtain ⟨j, place, hj, hplaceK, hold⟩ := h.issued k hk
    by_cases hij : j = i
    · -- whatever was found in the place is older now
      subst hij
      obtain rfl : place = ⟨slot.generation, some a⟩ :=
        Option.some.inj (hplaceK.symm.trans hplace)
      refine ⟨j, _, hj, (hplaces j).trans (if_pos rfl), .inl ?_⟩
      show k.generation.toNat < (slot.generation + 1).toNat
      rcases hold with hlt | hfound
      · have hlt : k.generation.toNat < slot.generation.toNat := hlt
        omega
      · obtain ⟨b, hb⟩ := Option.ne_none_iff_exists'.1 hfound
        obtain ⟨j', hj', hplaceB⟩ := get?_eq_some.1 hb
        obtain rfl : j = j' := by simpa [hj] using hj'
        rw [hplace, Option.some.injEq, Place.mk.injEq] at hplaceB
        rw [← hplaceB.1]
        omega
    · refine ⟨j, place, hj, (hplaces j).trans ((if_neg hij).trans hplaceK), ?_⟩
      refine hold.imp id fun hfound => ?_
      obtain ⟨b, hb⟩ := Option.ne_none_iff_exists'.1 hfound
      have hne : k ≠ slot := by
        rintro rfl
        rw [hi] at hj
        exact hij (Except.ok.inj hj).symm
      rw [(hlive k b).2 ⟨hb, hne⟩]
      exact Option.some_ne_none b
  · exact h.once

end Kept

/-- An operation stores one element, takes one out or changes nothing. -/
theorem perform_cases (l : Logbook α) (operation : Operation α) :
    (∃ slot a s, l.arena.push a = .ok (slot, s) ∧
      l.perform operation = ⟨s, .stored slot a :: l.changes⟩) ∨
    (∃ slot a s, l.arena.take? slot = some (a, s) ∧
      l.perform operation = ⟨s, .removed slot :: l.changes⟩) ∨
    l.perform operation = l := by
  cases operation with
  | push a =>
    cases hpush : l.arena.push a with
    | error e => exact .inr (.inr (by simp [perform, hpush]))
    | ok stored => exact .inl ⟨stored.1, a, stored.2, hpush, by simp [perform, hpush]⟩
  | get slot => exact .inr (.inr rfl)
  | tryTake slot =>
    cases htake : l.arena.take? slot with
    | none => exact .inr (.inr (by simp [perform, htake]))
    | some taken => exact .inr (.inl ⟨slot, taken.1, taken.2, htake, by simp [perform, htake]⟩)
  | take slot =>
    cases htake : l.arena.take? slot with
    | none => exact .inr (.inr (by simp [perform, Arena.take, htake]))
    | some taken =>
      exact .inr (.inl ⟨slot, taken.1, taken.2, htake, by simp [perform, Arena.take, htake]⟩)

theorem removals_perform (l : Logbook α) (operation : Operation α) (i : UInt32) :
    Change.removals i l.changes ≤ Change.removals i (l.perform operation).changes := by
  rcases l.perform_cases operation with ⟨slot, a, s, -, hperform⟩ | ⟨slot, a, s, -, hperform⟩ |
    hperform
  · rw [hperform]
    exact Nat.le_refl _
  · rw [hperform]
    show _ ≤ if slot.index = .ok i then _ else _
    split <;> omega
  · exact Nat.le_of_eq (by rw [hperform])

theorem removals_foldl (operations : List (Operation α)) (l : Logbook α) (i : UInt32) :
    Change.removals i l.changes ≤ Change.removals i (operations.foldl perform l).changes := by
  induction operations generalizing l with
  | nil => exact Nat.le_refl _
  | cons operation rest ih => exact Nat.le_trans (removals_perform l operation i) (ih _)

/-- One step of a run. -/
theorem Kept.perform (h : Kept l) (operation : Operation α)
    (hfresh : Fresh (l.perform operation)) : Kept (l.perform operation) := by
  rcases l.perform_cases operation with ⟨slot, a, s, hpush, hperform⟩ |
    ⟨slot, a, s, htake, hperform⟩ | hperform
  · rw [hperform]
    exact h.push hpush
  · rw [hperform] at hfresh ⊢
    exact h.take htake hfresh
  · rw [hperform]
    exact h

theorem Kept.foldl (h : Kept l) {operations : List (Operation α)}
    (hfresh : Fresh (operations.foldl Logbook.perform l)) :
    Kept (operations.foldl Logbook.perform l) := by
  induction operations generalizing l with
  | nil => exact h
  | cons operation rest ih =>
    apply ih _ hfresh
    apply h.perform operation
    -- what a run gives up bounds what its first step gives up
    intro i
    exact Nat.lt_of_le_of_lt (removals_foldl rest _ i) (hfresh i)

/-- A whole run. -/
theorem Kept.after {operations : List (Operation α)} (hfresh : Fresh (after operations)) :
    Kept (after operations) :=
  Kept.empty.foldl hfresh

end Logbook

/-! ### The map -/

/-- The arena is a map from slots to elements, and what is in it follows from the
changes that were made. -/
structure IsMap (l : Logbook α) : Prop where
  /-- No slot is handed out twice. -/
  once : (Change.issued l.changes).Nodup
  /-- An element is found under the slot under which it was stored, until that is used
  to take it out. -/
  found : ∀ slot a, l.arena.get? slot = some a ↔
    ∃ later earlier, l.changes = later ++ .stored slot a :: earlier ∧ .removed slot ∉ later
  /-- Storing an element makes a new slot lead to it. -/
  stores : ∀ a, ∃ slot s, l.arena.push a = .ok (slot, s) ∧ slot ∉ Change.issued l.changes ∧
    ∀ k, s.get? k = if k = slot then some a else l.arena.get? k
  /-- Taking an element out gives it back and makes its slot lead nowhere. -/
  takes : ∀ slot a, l.arena.get? slot = some a → ∃ s, l.arena.take? slot = some (a, s) ∧
    l.arena.take slot = .ok (a, s) ∧ s.size + 1 = l.arena.size ∧
      ∀ k, s.get? k = if k = slot then none else l.arena.get? k
  /-- With any other slot nothing is taken out, which is an error if it has to succeed. -/
  refuses : ∀ slot, (l.arena.take slot = .error .stale ↔ l.arena.get? slot = none) ∧
    (l.arena.get? slot = none → l.arena.take? slot = none ∧
      l.perform (.tryTake slot) = l ∧ l.perform (.take slot) = l)
  /-- Live elements have different slots, -/
  apart : ((Change.live l.changes).map Prod.fst).Nodup
  /-- the size is their number, -/
  counted : l.arena.size = (Change.live l.changes).length
  /-- and they are listed once each, in the order of their indices. -/
  listed : ∃ elements : List (Slot × α), elements.Perm (Change.live l.changes) ∧
    elements.Pairwise (fun x y => Precedes x.1 y.1) ∧ l.arena.toList = elements.map Prod.snd

/-- **Slots open once.** Whatever an arena was used for, as long as there is room for
one more index and no index was given up so often that its generations started again. -/
theorem keys_open_once (operations : List (Operation α))
    (hroom : (Logbook.after operations).arena.places.size < 2 ^ 32 - 1)
    (hfresh : ∀ i, Change.removals i (Logbook.after operations).changes < 2 ^ 32) :
    IsMap (Logbook.after operations) := by
  have hkept := Logbook.Kept.after hfresh
  generalize Logbook.after operations = l at hkept hroom
  have happart := (Change.live_sublist l.changes).nodup hkept.once
  -- in order of place, the arena holds just what was stored and not removed
  have hlisted : l.arena.elements.Perm (Change.live l.changes) := by
    have hpairwise := elements_pairwise hkept.sound
    have hnodup : l.arena.elements.Nodup := by
      apply hpairwise.imp
      rintro x y ⟨i, j, hi, hj, hij⟩ rfl
      obtain rfl : i = j := by simpa [hi] using hj
      exact UInt32.lt_irrefl i hij
    apply (List.perm_ext_iff_of_nodup hnodup (List.Nodup.of_map Prod.fst happart)).2
    rintro ⟨slot, a⟩
    rw [mem_elements hkept.sound, hkept.live]
  have hvalues := map_snd_elements hkept.sound
  constructor
  · exact hkept.once
  · intro slot a
    rw [← hkept.live, Change.mem_live]
  · intro a
    -- a push is answered by a key that was never given out, and opens nothing else
    obtain ⟨slot, s, hpush⟩ := hkept.sound.exists_push hroom a
    refine ⟨slot, s, hpush, hkept.not_issued hpush, fun k => ?_⟩
    by_cases hk : k = slot
    · rw [if_pos hk, hk, hkept.sound.get?_push hpush]
    · rw [if_neg hk]
      apply Option.ext
      intro b
      rw [hkept.sound.get?_push_iff hpush]
      simp [hk]
  · intro slot a hget
    -- a key that opens is taken back with its value, and then opens nothing
    cases htake : l.arena.take? slot with
    | none => exact absurd htake (take?_ne_none hget)
    | some taken =>
      obtain ⟨b, s⟩ := taken
      obtain rfl : a = b := Option.some.inj (hget.symm.trans (take?_eq_some htake).1)
      refine ⟨s, rfl, by simp [take, htake], ?_, fun k => ?_⟩
      · obtain ⟨hperm, hsize⟩ := toList_take? htake
        have hcounted := hkept.counted
        rw [hperm.length_eq, List.length_cons] at hcounted
        omega
      · by_cases hk : k = slot
        · rw [if_pos hk]
          apply Option.eq_none_iff_forall_ne_some.2
          intro c hc
          exact ((get?_take?_iff htake).1 hc).2 hk
        · rw [if_neg hk]
          apply Option.ext
          intro c
          rw [get?_take?_iff htake]
          simp [hk]
  · intro slot
    -- a key that opens nothing leaves everything as it is
    have hnone : l.arena.get? slot = none → l.arena.take? slot = none := take?_eq_none.2
    refine ⟨?_, fun hget => ⟨hnone hget, ?_, ?_⟩⟩
    · rw [← take?_eq_none, take]
      cases l.arena.take? slot <;> simp
    · simp [Logbook.perform, hnone hget]
    · simp [Logbook.perform, take, hnone hget]
  · exact happart
  · rw [hkept.counted, ← hvalues, List.length_map, hlisted.length_eq]
  · exact ⟨l.arena.elements, hlisted, elements_pairwise hkept.sound, hvalues.symm⟩

/-- A place is used again. -/
def usedAgain : List (Operation Nat) :=
  let first : Slot := ⟨Slot.word 0 0, Slot.word_ne_zero 0 0⟩
  [.push 15, .take first, .push 45, .push 7, .take first, .get first]

theorem usedAgain_isMap : IsMap (Logbook.after usedAgain) ∧
    (Logbook.after usedAgain).arena.toList = [45, 7] ∧
    (Logbook.after usedAgain).arena.get? ⟨Slot.word 0 0, Slot.word_ne_zero 0 0⟩ = none ∧
    (Logbook.after usedAgain).arena.get? ⟨Slot.word 1 0, Slot.word_ne_zero 1 0⟩ = some 45 := by
  refine ⟨keys_open_once usedAgain (by decide +kernel) fun i => ?_, by decide +kernel,
    by decide +kernel, by decide +kernel⟩
  have hlength : (Logbook.after usedAgain).changes.length = 4 := by decide +kernel
  have hbound := Change.removals_le i (Logbook.after usedAgain).changes
  omega

end Arena

end AssetLoading

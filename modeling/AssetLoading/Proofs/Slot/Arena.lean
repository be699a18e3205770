import AssetLoading.Proofs.Slot.Packing
import AssetLoading.Slot.Arena
import Mathlib.Data.List.Nodup

/-! # Sound arenas

  Every free place of an arena is empty and is named once, and indices do not
  run out of their type. Then storing an element fills one empty place and
  taking one out empties its place, and neither touches any other element.
-/

namespace AssetLoading

namespace Arena

variable {α : Type}

/-- The free places are empty, each of them is free once, and every index fits. -/
structure Sound (s : Arena α) : Prop where
  free_nodup : s.free.Nodup
  free_empty : ∀ i ∈ s.free, ∃ g, s.places[i.toNat]? = some ⟨g, none⟩
  bounded : s.places.size < 2 ^ 32

theorem Sound.empty : Sound ({} : Arena α) where
  free_nodup := List.nodup_nil
  free_empty := by simp
  bounded := by simp

/-! ### Finding elements -/

/-- A slot addresses an element where its index says, if the generation is right. -/
theorem get?_eq_some {s : Arena α} {slot : Slot} {a : α} :
    s.get? slot = some a ↔
      ∃ i, slot.index = .ok i ∧ s.places[i.toNat]? = some ⟨slot.generation, some a⟩ := by
  unfold get?
  constructor
  · intro h
    split at h
    next => cases h
    next i hi =>
      split at h
      next => cases h
      next place hplace =>
        split at h
        next hgeneration =>
          have hwhole : place = ⟨slot.generation, some a⟩ := by
            rw [← hgeneration, ← h]
          exact ⟨i, hi, hwhole ▸ hplace⟩
        next => cases h
  · rintro ⟨i, hi, hplace⟩
    simp [hi, hplace]

theorem mem_toList_of_get? {s : Arena α} {slot : Slot} {a : α} (h : s.get? slot = some a) :
    a ∈ s.toList := by
  obtain ⟨i, -, hplace⟩ := get?_eq_some.1 h
  have hmem : ⟨slot.generation, some a⟩ ∈ s.places.toList :=
    Array.mem_toList_iff.2 (Array.mem_of_getElem? hplace)
  exact List.mem_filterMap.2 ⟨_, hmem, rfl⟩

/-- An element that is in the arena stays where it is if its place does. -/
theorem get?_of_place_eq {s t : Arena α} {slot : Slot} {a : α} (h : s.get? slot = some a)
    (hplaces : ∀ i, slot.index = .ok i → t.places[i.toNat]? = s.places[i.toNat]?) :
    t.get? slot = some a := by
  obtain ⟨i, hi, hplace⟩ := get?_eq_some.1 h
  rw [← hplaces i hi] at hplace
  exact get?_eq_some.2 ⟨i, hi, hplace⟩

/-! ### Storing an element -/

/-- An element goes to the next free place, or to a new one of the first generation. -/
theorem push_eq_ok {s t : Arena α} {a : α} {slot : Slot} (h : s.push a = .ok (slot, t)) :
    (∃ i free, s.free = i :: free ∧
      Slot.pack ((s.places[i.toNat]?).elim 0 Place.generation) i = .ok slot ∧
      t = { places := s.places.modify i.toNat fun p => { p with content := some a }
            free
            size := s.size + 1 }) ∨
    (s.free = [] ∧ Slot.pack 0 s.places.size.toUInt32 = .ok slot ∧
      t = { s with places := s.places.push ⟨0, some a⟩, size := s.size + 1 }) := by
  unfold push at h
  split at h
  next i free hfree =>
    dsimp only at h
    split at h
    next => cases h
    next hpack =>
      cases h
      exact .inl ⟨i, free, hfree, hpack, rfl⟩
  next hfree =>
    split at h
    next => cases h
    next hpack =>
      cases h
      exact .inr ⟨hfree, hpack, rfl⟩

/-- An element is stored at one place, which was empty or is new, and the place is
not free any more. -/
theorem Sound.push_places {s t : Arena α} (hs : s.Sound) {a : α} {slot : Slot}
    (h : s.push a = .ok (slot, t)) :
    ∃ i, slot.index = .ok i ∧ t.places[i.toNat]? = some ⟨slot.generation, some a⟩ ∧
      (∀ j, j ≠ i.toNat → t.places[j]? = s.places[j]?) ∧
      (∀ p, s.places[i.toNat]? = some p → p.content = none) := by
  rcases push_eq_ok h with ⟨i, free, hfree, hpack, rfl⟩ | ⟨hfree, hpack, rfl⟩
  · -- A free place is filled again and keeps its generation.
    obtain ⟨g, hplace⟩ := hs.free_empty i (by simp [hfree])
    rw [hplace] at hpack
    have hgeneration : slot.generation = g := Slot.generation_of_pack hpack
    refine ⟨i, Slot.index_of_pack hpack, ?_, ?_, ?_⟩
    · rw [Array.getElem?_modify, if_pos rfl, hplace, hgeneration]
      rfl
    · intro j hj
      rw [Array.getElem?_modify, if_neg (Ne.symm hj)]
    · intro p hp
      rw [hplace, Option.some.injEq] at hp
      rw [← hp]
  · have hsize : s.places.size.toUInt32.toNat = s.places.size := Nat.mod_eq_of_lt hs.bounded
    have hgeneration : slot.generation = 0 := Slot.generation_of_pack hpack
    refine ⟨_, Slot.index_of_pack hpack, ?_, ?_, ?_⟩
    · rw [hsize, Array.getElem?_push_size, hgeneration]
    · intro j hj
      rw [hsize] at hj
      rw [Array.getElem?_push, if_neg hj]
    · intro p hp
      rw [hsize, Array.getElem?_eq_none (Nat.le_refl _)] at hp
      cases hp

/-- The new element is found under its slot. -/
theorem Sound.get?_push {s t : Arena α} (hs : s.Sound) {a : α} {slot : Slot}
    (h : s.push a = .ok (slot, t)) : t.get? slot = some a := by
  obtain ⟨i, hindex, hplace, -, -⟩ := hs.push_places h
  exact get?_eq_some.2 ⟨i, hindex, hplace⟩

/-- Every other element stays where it is. -/
theorem Sound.get?_push_of_get? {s t : Arena α} (hs : s.Sound) {a b : α} {slot slot' : Slot}
    (h : s.push a = .ok (slot, t)) (hb : s.get? slot' = some b) : t.get? slot' = some b := by
  obtain ⟨i, -, -, hother, hempty⟩ := hs.push_places h
  apply get?_of_place_eq hb
  intro j hj
  apply hother
  intro heq
  -- The place of an element is not empty.
  obtain ⟨j', hj', hplace⟩ := get?_eq_some.1 hb
  obtain rfl : j = j' := by simpa [hj] using hj'
  have hnone := hempty _ (heq ▸ hplace)
  cases hnone

theorem Sound.push {s t : Arena α} (hs : s.Sound) {a : α} {slot : Slot}
    (h : s.push a = .ok (slot, t)) : t.Sound := by
  rcases push_eq_ok h with ⟨i, free, hfree, -, rfl⟩ | ⟨hfree, hpack, rfl⟩
  · have hnodup := hs.free_nodup
    rw [hfree, List.nodup_cons] at hnodup
    constructor
    · exact hnodup.2
    · intro j hj
      have hne : i.toNat ≠ j.toNat := fun heq => hnodup.1 (UInt32.toNat_inj.1 heq ▸ hj)
      rw [Array.getElem?_modify, if_neg hne]
      exact hs.free_empty j (by simp [hfree, hj])
    · rw [Array.size_modify]
      exact hs.bounded
  · -- The largest index cannot be packed, so one more place is not too many.
    have hroom := Slot.toNat_succ_lt (Slot.index_ne_of_pack hpack)
    have hsize : s.places.size.toUInt32.toNat = s.places.size := Nat.mod_eq_of_lt hs.bounded
    constructor
    · exact hs.free_nodup
    · simp [hfree]
    · rw [Array.size_push]
      rwa [hsize] at hroom

/-! ### Taking an element out -/

theorem take?_eq_some {s t : Arena α} {slot : Slot} {a : α} (h : s.take? slot = some (a, t)) :
    s.get? slot = some a ∧ ∃ i, slot.index = .ok i ∧
      t = { places := s.places.modify i.toNat fun p => ⟨p.generation + 1, none⟩
            free := i :: s.free
            size := s.size - 1 } := by
  unfold take? at h
  split at h
  next i b hi hb =>
    cases h
    exact ⟨hb, i, hi, rfl⟩
  next => cases h

theorem Sound.take? {s t : Arena α} (hs : s.Sound) {slot : Slot} {a : α}
    (h : s.take? slot = some (a, t)) : t.Sound := by
  obtain ⟨hget, i, hi, rfl⟩ := take?_eq_some h
  obtain ⟨k, hk, hplace⟩ := get?_eq_some.1 hget
  obtain rfl : i = k := by simpa [hi] using hk
  have hnotFree : i ∉ s.free := by
    intro hfree
    obtain ⟨g, hempty⟩ := hs.free_empty i hfree
    simp [hempty] at hplace
  constructor
  · exact List.nodup_cons.2 ⟨hnotFree, hs.free_nodup⟩
  · intro j hj
    rw [Array.getElem?_modify]
    rcases List.mem_cons.1 hj with rfl | hfree
    · exact ⟨slot.generation + 1, by simp [hplace]⟩
    · have hne : i.toNat ≠ j.toNat := fun heq => hnotFree (UInt32.toNat_inj.1 heq ▸ hfree)
      rw [if_neg hne]
      exact hs.free_empty j hfree
  · rw [Array.size_modify]
    exact hs.bounded

/-- Every other element stays where it is. -/
theorem get?_take?_of_ne {s t : Arena α} {slot slot' : Slot} {a b : α}
    (h : s.take? slot = some (a, t)) (hb : s.get? slot' = some b) (hne : b ≠ a) :
    t.get? slot' = some b := by
  obtain ⟨hget, i, hi, rfl⟩ := take?_eq_some h
  apply get?_of_place_eq hb
  intro j hj
  have hplaces : i.toNat ≠ j.toNat := by
    intro heq
    -- One place holds one element.
    obtain ⟨k, hk, hplaceA⟩ := get?_eq_some.1 hget
    obtain ⟨l, hl, hplaceB⟩ := get?_eq_some.1 hb
    obtain rfl : i = k := by simpa [hi] using hk
    obtain rfl : j = l := by simpa [hj] using hl
    rw [heq, hplaceB] at hplaceA
    simp only [Option.some.injEq, Place.mk.injEq] at hplaceA
    exact hne hplaceA.2
  rw [Array.getElem?_modify, if_neg hplaces]

/-! ### All elements -/

/-- One place changes, and all others stay. -/
theorem toList_modify {places : Array (Place α)} {i : Nat} {p : Place α}
    {f : Place α → Place α} (hp : places[i]? = some p) :
    ∃ front back, places.toList = front ++ p :: back ∧
      (places.modify i f).toList = front ++ f p :: back := by
  obtain ⟨hi, rfl⟩ := Array.getElem?_eq_some_iff.1 hp
  obtain ⟨front, q, back, hplaces, hlength, hmodify⟩ :=
    List.exists_of_modify f (Array.length_toList ▸ hi : i < places.toList.length)
  have hq : places[i] = q := by
    rw [← Array.getElem_toList]
    simp [hplaces, ← hlength]
  rw [hq, Array.toList_modify]
  exact ⟨front, back, hplaces, hmodify⟩

/-- Storing an element adds it to all. -/
theorem Sound.toList_push {s t : Arena α} (hs : s.Sound) {a : α} {slot : Slot}
    (h : s.push a = .ok (slot, t)) : t.toList.Perm (a :: s.toList) ∧ t.size = s.size + 1 := by
  unfold toList
  rcases push_eq_ok h with ⟨i, free, hfree, -, rfl⟩ | ⟨-, -, rfl⟩
  · obtain ⟨g, hplace⟩ := hs.free_empty i (by simp [hfree])
    obtain ⟨front, back, hold, hnew⟩ :=
      toList_modify (f := fun p => { p with content := some a }) hplace
    rw [hold, hnew, List.filterMap_append, List.filterMap_append]
    exact ⟨List.perm_middle, rfl⟩
  · rw [Array.toList_push, List.filterMap_append]
    exact ⟨List.perm_append_comm, rfl⟩

/-- Taking an element out removes it from all. -/
theorem toList_take? {s t : Arena α} {slot : Slot} {a : α} (h : s.take? slot = some (a, t)) :
    s.toList.Perm (a :: t.toList) ∧ t.size = s.size - 1 := by
  unfold toList
  obtain ⟨hget, i, hi, rfl⟩ := take?_eq_some h
  obtain ⟨k, hk, hplace⟩ := get?_eq_some.1 hget
  obtain rfl : i = k := by simpa [hi] using hk
  obtain ⟨front, back, hold, hnew⟩ :=
    toList_modify (f := fun p => ⟨p.generation + 1, none⟩) hplace
  rw [hold, hnew, List.filterMap_append, List.filterMap_append]
  exact ⟨List.perm_middle, rfl⟩

/-! ### Places in use -/

/-- Every place is free or holds an element. -/
def Filled (s : Arena α) : Prop :=
  s.places.size = s.free.length + s.toList.length

theorem Filled.empty : Filled ({} : Arena α) := rfl

theorem Filled.push {s t : Arena α} (hfilled : s.Filled) (hs : s.Sound) {a : α} {slot : Slot}
    (h : s.push a = .ok (slot, t)) : t.Filled := by
  have hmore := (hs.toList_push h).1.length_eq
  unfold Filled at hfilled ⊢
  rw [hmore, List.length_cons]
  rcases push_eq_ok h with ⟨i, free, hfree, -, rfl⟩ | ⟨hfree, -, rfl⟩
  · rw [hfree, List.length_cons] at hfilled
    show (s.places.modify i.toNat _).size = free.length + _
    rw [Array.size_modify]
    omega
  · show (s.places.push _).size = s.free.length + _
    rw [Array.size_push]
    omega

theorem Filled.take? {s t : Arena α} (hfilled : s.Filled) {slot : Slot} {a : α}
    (h : s.take? slot = some (a, t)) : t.Filled := by
  have hless := (toList_take? h).1.length_eq
  unfold Filled at hfilled ⊢
  rw [hless, List.length_cons] at hfilled
  obtain ⟨-, i, -, rfl⟩ := take?_eq_some h
  show (s.places.modify i.toNat _).size = (i :: s.free).length + _
  rw [Array.size_modify, List.length_cons]
  omega

/-- Laws of arenas that hold while nothing is stored, and that storing an element and taking
one out preserve. -/
structure IsKept (P : Arena α → Prop) : Prop where
  empty : P {}
  push : ∀ {s t : Arena α} {a : α} {slot : Slot}, P s → s.push a = .ok (slot, t) → P t
  take? : ∀ {s t : Arena α} {a : α} {slot : Slot}, P s → s.take? slot = some (a, t) → P t

theorem isKept_sound : IsKept (Sound : Arena α → Prop) where
  empty := .empty
  push := fun hs h => hs.push h
  take? := fun hs h => hs.take? h

theorem isKept_filled : IsKept fun s : Arena α => s.Sound ∧ s.Filled where
  empty := ⟨.empty, .empty⟩
  push := fun hs h => ⟨hs.1.push h, hs.2.push hs.1 h⟩
  take? := fun hs h => ⟨hs.1.take? h, hs.2.take? h⟩

/-- An element that a slot addresses can be taken out. -/
theorem take?_ne_none {s : Arena α} {slot : Slot} {a : α} (h : s.get? slot = some a) :
    s.take? slot ≠ none := by
  obtain ⟨i, hi, -⟩ := get?_eq_some.1 h
  unfold take?
  rw [hi, h]
  exact Option.some_ne_none _

end Arena

end AssetLoading

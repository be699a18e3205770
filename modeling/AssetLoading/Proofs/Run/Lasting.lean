import AssetLoading.Proofs.Run.Growth

/-! # What lasts

  An operation of a script is under way until it is answered, and the answer is
  recorded. A reference that a client holds is nobody's business: nothing that
  happens ends such an activity. So if it stands below everything else that is under
  way, it tells that the code above it has not returned.
-/

namespace AssetLoading

/-- Activities that nothing but an answer ends. -/
def Activity.lasts : Activity → Bool
  | performing _ | holding .client _ => true
  | _ => false

section Lasting

variable {m n : Moment} {a : Activity} {u : List Activity}

theorem Activity.MayAct.lasts {b : BodyId} {i : Nat} {onGpu : Bool} (h : a.MayAct b i onGpu) :
    a.lasts = false := by
  cases a <;> first | exact h.elim | rfl

theorem Activity.MayFree.lasts {b : BodyId} (h : a.MayFree b) : a.lasts = false := by
  cases a <;> first | exact h.elim | rfl

theorem lasting_of_mem_cons {b : Activity} (ha : a.lasts = true) (hb : b.lasts = false)
    (hmem : a ∈ b :: u) : a ∈ u := by
  refine (List.mem_cons.1 hmem).resolve_left ?_
  rintro rfl
  exact Bool.false_ne_true (hb.symm.trans ha)

theorem lasting_mem_gained (ha : a.lasts = true) (holder : Holder) (h : Handle) :
    a ∈ gained holder h u ↔ a ∈ u := by
  cases holder with
  | client | dependency => rfl
  | task | notice => exact ⟨lasting_of_mem_cons ha rfl, List.mem_cons_of_mem _⟩

theorem AssetMove.lasting (h : AssetMove m n) (ha : a.lasts = true) (hm : a ∈ m.underWay) :
    a ∈ n.underWay := by
  cases h with
  | take holder h | revive holder h => exact (lasting_mem_gained ha holder h).2 hm
  | drop holder h => exact (lasting_mem_gained ha holder h).1 hm
  | visit => exact List.mem_cons_of_mem _ (lasting_of_mem_cons ha rfl hm)
  | destructor | unlink => exact hm
  | flushed | endDestroy | leaveRegistry => exact lasting_of_mem_cons ha rfl hm
  | flush | beginDestroy | newRegistry => exact List.mem_cons_of_mem _ hm
  | _ => exact hm

theorem BodyMove.lasting (h : BodyMove m n) (ha : a.lasts = true) (hm : a ∈ m.underWay) :
    a ∈ n.underWay := by
  cases h with
  | plan => exact List.mem_cons_of_mem _ hm
  | forget => exact lasting_of_mem_cons ha rfl hm
  | estimate | write => exact hm
  | act b c i onGpu hmay | actSkip b c i onGpu hmay =>
    exact List.mem_cons_of_mem _ (lasting_of_mem_cons ha hmay.lasts hm)
  | free b c h hmay | freeSkip b c hmay =>
    exact List.mem_cons_of_mem _ (lasting_of_mem_cons ha hmay.lasts hm)
  | actEnd | fail | failEnd | failSkip | freeEnd =>
    exact List.mem_cons_of_mem _ (lasting_of_mem_cons ha rfl hm)

theorem JobMove.lasting (h : JobMove m n) (ha : a.lasts = true) (hm : a ∈ m.underWay) :
    a ∈ n.underWay := by
  have hpicked {j : JobId} {u v : List Activity} (hpick : Picks j u v) (hu : a ∈ u) : a ∈ v := by
    cases hpick with
    | next => exact List.mem_cons_of_mem _ (lasting_of_mem_cons ha rfl hu)
    | outOfTurn => exact hu
  cases h with
  | make | submit => exact hm
  | drain => exact List.mem_cons_of_mem _ hm
  | start j hpick => exact List.mem_cons_of_mem _ (hpicked hpick hm)
  | skip j hpick => exact hpicked hpick hm
  | work => exact List.mem_cons_of_mem _ (lasting_of_mem_cons ha rfl hm)
  | finish | drained => exact lasting_of_mem_cons ha rfl hm

theorem TaskMove.lasting (h : TaskMove m n) (ha : a.lasts = true) (hm : a ∈ m.underWay) :
    a ∈ n.underWay := by
  cases h with
  | accept => exact lasting_of_mem_cons ha rfl (lasting_of_mem_cons ha rfl hm)
  | acquire | unshelve | drain => exact List.mem_cons_of_mem _ hm
  | forget => exact hm
  | exchange es e => exact (mem_exchange es e _).2 hm
  | shelve | handOver | wait | proceed | discardEnd => exact lasting_of_mem_cons ha rfl hm
  | discardNext =>
    exact List.mem_cons_of_mem _ (List.mem_cons_of_mem _ (lasting_of_mem_cons ha rfl hm))
  | _ => exact List.mem_cons_of_mem _ (lasting_of_mem_cons ha rfl hm)

theorem NoticeMove.lasting (h : NoticeMove m n) (ha : a.lasts = true) (hm : a ∈ m.underWay) :
    a ∈ n.underWay := by
  cases h with
  | subscribe => exact hm
  | stage | released => exact lasting_of_mem_cons ha rfl hm
  | takeUp => exact List.mem_cons_of_mem _ hm
  | releaseNext =>
    exact List.mem_cons_of_mem _ (List.mem_cons_of_mem _ (lasting_of_mem_cons ha rfl hm))

/-- What lasts is still under way, or it was an operation and has been answered just
now. -/
theorem Move.lasting_or_answered (h : Move m n) (ha : a.lasts = true) (hm : a ∈ m.underWay) :
    a ∈ n.underWay ∨ ∃ op reply, a = .performing op ∧
      n.state.history = .answered op reply :: m.state.history := by
  cases h with
  | asset h => exact .inl (h.lasting ha hm)
  | body h => exact .inl (h.lasting ha hm)
  | job h => exact .inl (h.lasting ha hm)
  | task h => exact .inl (h.lasting ha hm)
  | notice h => exact .inl (h.lasting ha hm)
  | plain h =>
    cases h with
    | answer op reply =>
      rcases List.mem_cons.1 hm with heq | hm
      · exact .inr ⟨op, reply, heq, rfl⟩
      · exact .inl hm
    | perform => exact .inl (List.mem_cons_of_mem _ hm)
    | _ => exact .inl hm

/-! ### Several moves -/

/-- Events are only added. -/
theorem Moves.history (h : Moves m n) : ∃ fresh, n.state.history = fresh ++ m.state.history := by
  induction h with
  | refl => exact ⟨[], rfl⟩
  | tail _ hmove ih =>
    obtain ⟨fresh, hfresh⟩ := ih
    obtain ⟨more, hmore⟩ := hmove.extends.history
    exact ⟨more ++ fresh, by rw [← hmore, hfresh, List.append_assoc]⟩

theorem Moves.lasting_or_answered (h : Moves m n) (ha : a.lasts = true) (hm : a ∈ m.underWay) :
    a ∈ n.underWay ∨ ∃ op reply fresh, a = .performing op ∧ .answered op reply ∈ fresh ∧
      n.state.history = fresh ++ m.state.history := by
  induction h with
  | refl => exact .inl hm
  | @tail k l hmk hmove ih =>
    have hmore : ∃ more, l.state.history = more ++ k.state.history := by
      obtain ⟨more, hmore⟩ := hmove.extends.history
      exact ⟨more, hmore.symm⟩
    obtain ⟨more, hmore⟩ := hmore
    rcases ih with hk | ⟨op, reply, fresh, heq, hmem, hfresh⟩
    · rcases hmove.lasting_or_answered ha hk with hl | ⟨op, reply, heq, hanswered⟩
      · exact .inl hl
      · obtain ⟨fresh, hfresh⟩ := Moves.history hmk
        refine .inr ⟨op, reply, .answered op reply :: fresh, heq, List.mem_cons_self, ?_⟩
        rw [hanswered, hfresh, List.cons_append]
    · refine .inr ⟨op, reply, more ++ fresh, heq, List.mem_append_right more hmem, ?_⟩
      rw [hmore, hfresh, List.append_assoc]

/-- A client's reference that is under way stays under way. -/
theorem Moves.floor (h : Moves m n) {k : Handle} (hm : .holding .client k ∈ m.underWay) :
    .holding .client k ∈ n.underWay := by
  rcases h.lasting_or_answered rfl hm with hn | ⟨op, reply, fresh, heq, -⟩
  · exact hn
  · cases heq

/-! ### What may be told -/

/-- Since a history an event of a kind may have been recorded, or an operation is under
way whose answer will be one. -/
def Moment.MayTell (kind : Event → Bool) (old : List Event) (m : Moment) : Prop :=
  (∃ fresh, m.state.history = fresh ++ old ∧ ∃ e ∈ fresh, kind e = true) ∨
    ∃ op, .performing op ∈ m.underWay ∧ ∀ reply, kind (.answered op reply) = true

namespace Moment.MayTell

variable {kind : Event → Bool} {old more : List Event}

/-- What may be told since a history may be told since an earlier one. -/
theorem since (h : m.MayTell kind (more ++ old)) : m.MayTell kind old := by
  refine h.imp_left ?_
  rintro ⟨fresh, hfresh, e, hmem, he⟩
  exact ⟨fresh ++ more, by rw [hfresh, List.append_assoc], e, List.mem_append_left more hmem, he⟩

/-- Nothing that happens takes back what may be told. -/
theorem moves (hm : m.MayTell kind old) (h : Moves m n)
    (hold : ∃ fresh, m.state.history = fresh ++ old) : n.MayTell kind old := by
  rcases hm with ⟨fresh, hfresh, e, hmem, he⟩ | ⟨op, hop, hkind⟩
  · obtain ⟨more, hmore⟩ := h.history
    refine .inl ⟨more ++ fresh, ?_, e, List.mem_append_right more hmem, he⟩
    rw [hmore, hfresh, List.append_assoc]
  · rcases h.lasting_or_answered rfl hop with hstill | ⟨op', reply, later, heq, hmem, hlater⟩
    · exact .inr ⟨op, hstill, hkind⟩
    · cases heq
      obtain ⟨fresh, hfresh⟩ := hold
      refine .inl ⟨later ++ fresh, ?_, _, List.mem_append_left fresh hmem, hkind reply⟩
      rw [hlater, hfresh, List.append_assoc]

/-- Where only a client's reference is under way, it has been told. -/
theorem told {k : Handle} (h : m.MayTell kind old) (hm : m.underWay = [.holding .client k]) :
    ∃ fresh, m.state.history = fresh ++ old ∧ ∃ e ∈ fresh, kind e = true := by
  refine h.resolve_right ?_
  rintro ⟨op, hop, -⟩
  rw [hm] at hop
  simp at hop

end Moment.MayTell

/-- What no step ends, unless something is told, holds all along, unless it was told. Steps
are moves, or made of moves. -/
theorem holds_or_told {α : Type} (moment : α → Moment) {step : α → α → Prop} {P : α → Prop}
    {kind : Event → Bool} {a b : α}
    (hmoves : ∀ a b, step a b → Moves (moment a) (moment b))
    (hstep : ∀ b c, Relation.ReflTransGen step a b → step b c → P b →
      P c ∨ (moment c).MayTell kind (moment b).state.history)
    (h : Relation.ReflTransGen step a b) (ha : P a) :
    P b ∨ (moment b).MayTell kind (moment a).state.history := by
  have hall {b : α} (h : Relation.ReflTransGen step a b) : Moves (moment a) (moment b) := by
    induction h with
    | refl => exact .refl
    | tail _ hnext ih => exact ih.trans (hmoves _ _ hnext)
  induction h with
  | refl => exact .inl ha
  | @tail b c hab hbc ih =>
    obtain ⟨before, hbefore⟩ := (hall hab).history
    rcases ih with hb | htold
    · refine (hstep b c hab hbc hb).imp_right fun htold => ?_
      rw [hbefore] at htold
      exact htold.since
    · exact .inr (htold.moves (hmoves b c hbc) ⟨before, hbefore⟩)

end Lasting

end AssetLoading

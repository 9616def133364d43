import StackSeq.Proofs.Symbolic.Path

/-!
# Merged stacks cover what they were merged from

`Covers r s` says that the stack `r` allows for everything that `s` describes: `r` reaches at least
as far down, each slot of the padded `s` lies in the slot of `r` at the same place, and `r` promises
no more about the height. It is a preorder, and a merge is above both of its parts
(`covers_merge_left`, `covers_merge_right`). So the outcome of an exploration covers all of its ends
(`covers_outcome`), however the merges are nested.
-/

namespace StackSeq

namespace SymbolicStack

/-! ## Slots place by place -/

/-- Each slot of the first list has a slot at the same place of the second that holds all its
expressions; the second list may go on. -/
def SlotsWithin (xs ys : List ExprSet) : Prop :=
  ∀ (i : Nat) (x : ExprSet), xs[i]? = some x → ∃ y, ys[i]? = some y ∧ ∀ e ∈ x, e ∈ y

namespace SlotsWithin

variable {xs ys zs : List ExprSet}

theorem refl (xs : List ExprSet) : SlotsWithin xs xs :=
  fun _ x hx => ⟨x, hx, fun _ he => he⟩

theorem trans (hxy : SlotsWithin xs ys) (hyz : SlotsWithin ys zs) : SlotsWithin xs zs := by
  intro i x hx
  obtain ⟨y, hy, hsub⟩ := hxy i x hx
  obtain ⟨z, hz, hsub'⟩ := hyz i y hy
  exact ⟨z, hz, fun e he => hsub' e (hsub e he)⟩

theorem append_left (h : SlotsWithin xs ys) (zs : List ExprSet) :
    SlotsWithin (zs ++ xs) (zs ++ ys) := by
  intro i x hx
  by_cases hi : i < zs.length
  · rw [List.getElem?_append_left hi] at hx ⊢
    exact ⟨x, hx, fun _ he => he⟩
  · rw [List.getElem?_append_right (Nat.not_lt.1 hi)] at hx ⊢
    exact h _ x hx

theorem unionSlots_left (xs ys : List ExprSet) : SlotsWithin xs (unionSlots xs ys) := by
  intro i x hx
  rw [getElem?_unionSlots, hx]
  cases ys[i]? with
  | none => exact ⟨x, rfl, fun _ he => he⟩
  | some y => exact ⟨x.union y, rfl, fun _ he => ExprSet.mem_union.2 (.inl he)⟩

theorem unionSlots_right (xs ys : List ExprSet) : SlotsWithin ys (unionSlots xs ys) := by
  intro i y hy
  rw [getElem?_unionSlots, hy]
  cases xs[i]? with
  | none => exact ⟨y, rfl, fun _ he => he⟩
  | some x => exact ⟨x.union y, rfl, fun _ he => ExprSet.mem_union.2 (.inr he)⟩

theorem length_le (h : SlotsWithin xs ys) : xs.length ≤ ys.length := by
  rcases Nat.eq_zero_or_pos xs.length with h0 | hpos
  · omega
  · obtain ⟨y, hy, -⟩ := h (xs.length - 1) _ (List.getElem?_eq_getElem (by omega))
    have := (List.getElem?_eq_some_iff.1 hy).1
    omega

end SlotsWithin

/-! ## The preorder -/

/-- The stack `r` allows for everything that `s` describes. -/
structure Covers (r s : SymbolicStack) : Prop where
  originDepth_eq : s.originDepth = r.originDepth
  reached_le : s.reached ≤ r.reached
  within : SlotsWithin (s.paddedSlots r.reached) r.slots
  /-- A level stack covers only level stacks of its own height. -/
  level : r.ragged = false → s.ragged = false ∧ (s.paddedSlots r.reached).length = r.slots.length
  bound : r.lengthBound ≤ s.lengthBound

theorem Covers.refl (s : SymbolicStack) : Covers s s where
  originDepth_eq := rfl
  reached_le := Nat.le_refl _
  within := by
    rw [paddedSlots_reached]
    exact .refl _
  level := fun h => ⟨h, by rw [paddedSlots_reached]⟩
  bound := Nat.le_refl _

theorem Covers.trans {q r s : SymbolicStack} (hqr : Covers q r) (hrs : Covers r s) :
    Covers q s := by
  -- Padding `s` as far as `q` reaches is padding it as far as `r` does, and then the rest.
  have hpad : s.paddedSlots q.reached
      = refSlots (.initial r.originDepth) r.reached q.reached ++ s.paddedSlots r.reached := by
    rw [paddedSlots_of_le hrs.reached_le hqr.reached_le, hrs.originDepth_eq]
  refine ⟨hrs.originDepth_eq.trans hqr.originDepth_eq,
    Nat.le_trans hrs.reached_le hqr.reached_le, ?_, ?_, Nat.le_trans hqr.bound hrs.bound⟩
  · rw [hpad]
    exact (hrs.within.append_left _).trans hqr.within
  · intro hq
    obtain ⟨hr, hlen⟩ := hqr.level hq
    obtain ⟨hs, hlen'⟩ := hrs.level hr
    refine ⟨hs, ?_⟩
    rw [← hlen, hpad, List.length_append, hlen', ← List.length_append]
    rfl

section

variable {a b : SymbolicStack} (ha : a.WellFormed) (hb : b.WellFormed)
  (hab : a.originDepth = b.originDepth)

include ha hb hab

theorem covers_merge_left : Covers (a.merge b) a where
  originDepth_eq := rfl
  reached_le := reached_le_merge_left a b
  within := by
    rw [ha.slots_merge hb hab]
    exact .unionSlots_left _ _
  level := by
    intro h
    obtain ⟨hra, -, hlen⟩ := (ha.ragged_merge_eq_false hb hab).1 h
    refine ⟨hra, ?_⟩
    rw [ha.slots_merge hb hab, length_unionSlots, ← hlen, Nat.max_self]
  bound := by
    rw [ha.lengthBound_merge hb hab]
    exact Nat.min_le_left _ _

theorem covers_merge_right : Covers (a.merge b) b where
  originDepth_eq := hab.symm
  reached_le := reached_le_merge_right a b
  within := by
    rw [ha.slots_merge hb hab]
    exact .unionSlots_right _ _
  level := by
    intro h
    obtain ⟨-, hrb, hlen⟩ := (ha.ragged_merge_eq_false hb hab).1 h
    refine ⟨hrb, ?_⟩
    rw [ha.slots_merge hb hab, length_unionSlots, hlen, Nat.max_self]
  bound := by
    rw [ha.lengthBound_merge hb hab]
    exact Nat.min_le_right _ _

end

end SymbolicStack

/-! ## The outcome of an exploration -/

namespace Exploration

variable {t : Exploration} {originDepth : Nat}

/-- A merge of well-formed stacks is well-formed, however the merges are nested. -/
theorem wellFormed_outcome
    (h : ∀ s ∈ t.ends, s.WellFormed ∧ s.originDepth = originDepth) :
    t.outcome.WellFormed ∧ t.outcome.originDepth = originDepth := by
  induction t with
  | halt s => exact h s (List.mem_singleton_self s)
  | step remaining s next ih => exact ih h
  | fork remaining s fallThrough taken ihf iht =>
    rw [ends, List.forall_mem_append] at h
    obtain ⟨hf, hfo⟩ := ihf h.1
    obtain ⟨ht, hto⟩ := iht h.2
    exact ⟨hf.merge ht (hfo.trans hto.symm), hfo⟩

/-- So are counts that fit. -/
theorem inRange_outcome (h : ∀ s ∈ t.ends, s.WellFormed ∧ s.originDepth = originDepth)
    (hr : ∀ s ∈ t.ends, s.InRange) : t.outcome.InRange := by
  induction t with
  | halt s => exact hr s (List.mem_singleton_self s)
  | step remaining s next ih => exact ih h hr
  | fork remaining s fallThrough taken ihf iht =>
    rw [ends, List.forall_mem_append] at h hr
    obtain ⟨hf, hfo⟩ := wellFormed_outcome h.1
    obtain ⟨ht, hto⟩ := wellFormed_outcome h.2
    exact hf.inRange_merge ht (hfo.trans hto.symm) (ihf h.1 hr.1) (iht h.2 hr.2)

/-- **The outcome covers every end.** -/
theorem covers_outcome (h : ∀ s ∈ t.ends, s.WellFormed ∧ s.originDepth = originDepth) :
    ∀ s ∈ t.ends, t.outcome.Covers s := by
  induction t with
  | halt s =>
    intro x hx
    rw [List.mem_singleton.1 hx]
    exact .refl s
  | step remaining s next ih => exact ih h
  | fork remaining s fallThrough taken ihf iht =>
    rw [ends, List.forall_mem_append] at h
    obtain ⟨hf, hfo⟩ := wellFormed_outcome h.1
    obtain ⟨ht, hto⟩ := wellFormed_outcome h.2
    have hab := hfo.trans hto.symm
    intro x hx
    rcases List.mem_append.1 hx with hx | hx
    · exact (SymbolicStack.covers_merge_left hf ht hab).trans (ihf h.1 x hx)
    · exact (SymbolicStack.covers_merge_right hf ht hab).trans (iht h.2 x hx)

end Exploration

namespace Program

variable {p : Program} {originDepth : Nat} (hr : (p.explore originDepth).InRange)

include hr

theorem wellFormed_ends :
    ∀ s ∈ (p.explore originDepth).ends, s.WellFormed ∧ s.originDepth = originDepth := by
  intro s hs
  have hpath := onPath_of_mem_ends hr hs
  exact ⟨hpath.toWellFormed, hpath.originDepth_eq⟩

theorem wellFormed_analyze : (p.analyze originDepth).WellFormed :=
  (Exploration.wellFormed_outcome (wellFormed_ends hr)).1

theorem inRange_analyze : (p.analyze originDepth).InRange := by
  refine Exploration.inRange_outcome (wellFormed_ends hr) fun s hs => ?_
  exact hr ⟨[], s⟩ (Exploration.mem_points_of_mem_ends hs)

/-- **The outcome of an analysis covers the end of every path.** -/
theorem covers_analyze : ∀ s ∈ (p.explore originDepth).ends, (p.analyze originDepth).Covers s :=
  Exploration.covers_outcome (wellFormed_ends hr)

end Program

end StackSeq

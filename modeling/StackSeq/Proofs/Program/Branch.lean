import Mathlib.Order.Bounds.Defs
import Mathlib.Order.Monotone.Defs
import Mathlib.Order.Nat
import StackSeq.Proofs.Program.Text

/-!
# Where branches lead

A branch skips slots of the text, and a run goes on at an operation. `branchTarget_le_iff` says what
one means in terms of the other: the target lies at or before an operation exactly if the operations
up to there fill the skipped slots, or there is none left. The rest follows from it. The target is
the first such operation, more slots lead no less far, and the text from the target on is the text
after the branch without the words that were skipped (`branchTarget_counts_slots`). A skip that ends
between `bgtz` and its offset (`SplitsBranch`) takes the offset along.
-/

namespace StackSeq

variable {ops : List Op} {slots count : Nat}

/-! ## Operations in a row -/

theorem Op.width_eq_one_or_eq_bgtz (op : Op) : op.width = 1 ∨ ∃ offset, op = .bgtz offset := by
  cases op with
  | bgtz offset => exact .inr ⟨offset, rfl⟩
  | push | dup | swap | rot | unrot | binary | len => exact .inl rfl

/-- The slots that operations fill. -/
def opsWidth (ops : List Op) : Nat := (ops.map Op.width).sum

@[simp] theorem opsWidth_nil : opsWidth [] = 0 := rfl

@[simp] theorem opsWidth_cons (op : Op) (ops : List Op) :
    opsWidth (op :: ops) = op.width + opsWidth ops := by
  rw [opsWidth, List.map_cons, List.sum_cons, opsWidth]

@[simp] theorem opsWidth_append (ops rest : List Op) :
    opsWidth (ops ++ rest) = opsWidth ops + opsWidth rest := by
  rw [opsWidth, List.map_append, List.sum_append, opsWidth, opsWidth]

/-- **A skip passes over no more operations than fill its slots.** -/
theorem opsSkipped_le_iff :
    opsSkipped ops slots ≤ count ↔ slots ≤ opsWidth (ops.take count) ∨ ops.length ≤ count := by
  fun_induction opsSkipped ops slots generalizing count with
  | case1 => simp
  | case2 => simp
  | case3 op rest slots ih =>
    cases count with
    | zero => simp
    | succ count =>
      have hle : 1 + opsSkipped rest (slots + 1 - op.width) ≤ count + 1 ↔
          opsSkipped rest (slots + 1 - op.width) ≤ count := by omega
      have hwidth : slots + 1 - op.width ≤ opsWidth (rest.take count) ↔
          slots + 1 ≤ op.width + opsWidth (rest.take count) := Nat.sub_le_iff_le_add'
      rw [hle, ih, hwidth, List.take_succ_cons, opsWidth_cons, List.length_cons,
        Nat.add_le_add_iff_right]

/-- The cut after this many slots falls between a `bgtz` and its offset. -/
def SplitsBranch (ops : List Op) (slots : Nat) : Prop :=
  ∃ before offset after, ops = before ++ Op.bgtz offset :: after ∧ slots = opsWidth before + 1

/-- A skip that ends within a branch takes the slot of the offset along. -/
theorem SplitsBranch.opsWidth_take (h : SplitsBranch ops slots) :
    opsWidth (ops.take (opsSkipped ops slots)) = slots + 1 := by
  obtain ⟨before, offset, after, rfl, rfl⟩ := h
  have htake : (before ++ .bgtz offset :: after).take (before.length + 1)
      = before ++ [.bgtz offset] :=
    List.take_length_add_append 1
  have hwidth : opsWidth (before ++ [.bgtz offset]) = opsWidth before + 1 + 1 := by
    rw [opsWidth_append]
    rfl
  have hle : opsSkipped (before ++ .bgtz offset :: after) (opsWidth before + 1)
      ≤ before.length + 1 := by
    refine opsSkipped_le_iff.2 (.inl ?_)
    rw [htake, hwidth]
    exact Nat.le_succ _
  have hlt : ¬opsSkipped (before ++ .bgtz offset :: after) (opsWidth before + 1)
      ≤ before.length := by
    rw [opsSkipped_le_iff, List.take_left, List.length_append, List.length_cons]
    omega
  rw [Nat.le_antisymm hle (Nat.lt_of_not_le hlt), htake, hwidth]

/-- Every other skip that the operations are long enough for passes over just its slots. -/
theorem opsWidth_take_of_not_splits (h : ¬SplitsBranch ops slots)
    (hle : slots ≤ opsWidth (ops.take (opsSkipped ops slots))) :
    opsWidth (ops.take (opsSkipped ops slots)) = slots := by
  cases hcount : opsSkipped ops slots with
  | zero =>
    rw [hcount, List.take_zero, opsWidth_nil] at hle
    exact (Nat.le_zero.1 hle).symm
  | succ count =>
    -- Without the last operation that is passed over, slots are left to skip.
    have hmore : ¬opsSkipped ops slots ≤ count := by omega
    rw [opsSkipped_le_iff, not_or, Nat.not_le, Nat.not_le] at hmore
    obtain ⟨hshort, hlt⟩ := hmore
    have htake : opsWidth (ops.take (count + 1))
        = opsWidth (ops.take count) + ops[count].width := by
      rw [List.take_succ_eq_append_getElem hlt, opsWidth_append, opsWidth_cons, opsWidth_nil,
        Nat.add_zero]
    rw [hcount, htake] at hle
    rw [htake]
    rcases ops[count].width_eq_one_or_eq_bgtz with hwidth | ⟨offset, hop⟩
    · omega
    · have hne : slots ≠ opsWidth (ops.take count) + 1 := by
        intro heq
        refine h ⟨_, offset, ops.drop (count + 1), ?_, heq⟩
        rw [← hop, ← List.drop_eq_getElem_cons hlt, List.take_append_drop]
      have hwidth : ops[count].width = 2 := hop ▸ rfl
      omega

/-! ## Words -/

theorem length_words_opsText (ops : List Op) :
    (Text.words (opsText ops).toList).length = opsWidth ops := by
  rw [Program.words_opsText]
  exact Program.length_flatMap_words ops

/-- The text from an operation on is the text without the words before it. -/
theorem words_opsText_drop (ops : List Op) (count : Nat) :
    Text.words (opsText (ops.drop count)).toList
      = (Text.words (opsText ops).toList).drop (opsWidth (ops.take count)) := by
  have hsplit : Text.words (opsText ops).toList = Text.words (opsText (ops.take count)).toList
      ++ Text.words (opsText (ops.drop count)).toList := by
    simp only [Program.words_opsText, ← List.flatMap_append, List.take_append_drop]
  rw [hsplit, ← length_words_opsText, List.drop_left]

/-- **A skip drops as many words as it has slots**, and one more where it would split a branch. -/
theorem words_drop_opsSkipped (ops : List Op) (slots : Nat) :
    (¬SplitsBranch ops slots → Text.words (opsText (ops.drop (opsSkipped ops slots))).toList
        = (Text.words (opsText ops).toList).drop slots) ∧
      (SplitsBranch ops slots → Text.words (opsText (ops.drop (opsSkipped ops slots))).toList
        = (Text.words (opsText ops).toList).drop (slots + 1)) := by
  refine ⟨fun h => ?_, fun h => by rw [words_opsText_drop, h.opsWidth_take]⟩
  by_cases hle : slots ≤ opsWidth (ops.take (opsSkipped ops slots))
  · rw [words_opsText_drop, opsWidth_take_of_not_splits h hle]
  · have hall : ops.length ≤ opsSkipped ops slots :=
      (opsSkipped_le_iff.1 (Nat.le_refl _)).resolve_left hle
    rw [List.take_of_length_le hall] at hle
    rw [List.drop_eq_nil_of_le hall, List.drop_eq_nil_of_le]
    · rfl
    · rw [length_words_opsText]
      exact Nat.le_of_not_le hle

/-! ## Targets -/

namespace Program

variable {p : Program} {index target : Nat}

/-- The slots of the operations from `first` up to, and without, `last`. -/
def slotsBetween (p : Program) (first last : Nat) : Nat :=
  opsWidth ((p.code.take last).drop first)

/-- **A branch leads no further than to an operation exactly if those in between fill the skipped
slots**, or nothing is there. -/
theorem branchTarget_le_iff (h : index + 1 ≤ target) :
    p.branchTarget index slots ≤ target ↔
      slots ≤ p.slotsBetween (index + 1) target ∨ p.length ≤ target := by
  have hskipped : p.branchTarget index slots ≤ target ↔
      opsSkipped (p.code.drop (index + 1)) slots ≤ target - (index + 1) := by
    rw [branchTarget]
    omega
  rw [hskipped, opsSkipped_le_iff, slotsBetween, List.drop_take, List.length_drop, length]
  omega

/-- The target is the first operation up to which the skipped slots are filled. -/
theorem isLeast_branchTarget (h : index < p.length)
    (hfilled : ∃ target, index + 1 ≤ target ∧ target ≤ p.length ∧
      slots ≤ p.slotsBetween (index + 1) target) :
    IsLeast {target | index + 1 ≤ target ∧ target ≤ p.length ∧
      slots ≤ p.slotsBetween (index + 1) target} (p.branchTarget index slots) := by
  obtain ⟨target, hindex, hlength, hslots⟩ := hfilled
  have hfirst : index + 1 ≤ p.branchTarget index slots := p.lt_branchTarget index slots
  have hle : p.branchTarget index slots ≤ target := (branchTarget_le_iff hindex).2 (.inl hslots)
  refine ⟨⟨hfirst, branchTarget_le h slots, ?_⟩,
    fun _ ht => (branchTarget_le_iff ht.1).2 (.inl ht.2.2)⟩
  rcases (branchTarget_le_iff hfirst).1 (Nat.le_refl _) with hs | hend
  · exact hs
  · rwa [show p.branchTarget index slots = target by omega]

/-- Where no operation is reached with the skipped slots filled, the target is the end of the
program. -/
theorem branchTarget_eq_length (h : index < p.length)
    (hshort : ∀ target, index + 1 ≤ target → target ≤ p.length →
      p.slotsBetween (index + 1) target < slots) : p.branchTarget index slots = p.length := by
  have hle : p.branchTarget index slots ≤ p.length := branchTarget_le h slots
  have hfirst : index + 1 ≤ p.branchTarget index slots := p.lt_branchTarget index slots
  refine Nat.le_antisymm hle (((branchTarget_le_iff hfirst).1 (Nat.le_refl _)).resolve_left ?_)
  exact Nat.not_le.2 (hshort _ hfirst hle)

theorem monotone_branchTarget (p : Program) (index : Nat) : Monotone (p.branchTarget index) := by
  intro slots slots' hle
  have hfirst : index + 1 ≤ p.branchTarget index slots' := p.lt_branchTarget index slots'
  refine (branchTarget_le_iff hfirst).2 ?_
  exact ((branchTarget_le_iff hfirst).1 (Nat.le_refl _)).imp_left (Nat.le_trans hle)

theorem drop_branchTarget (p : Program) (index slots : Nat) :
    p.code.drop (p.branchTarget index slots)
      = (p.code.drop (index + 1)).drop (opsSkipped (p.code.drop (index + 1)) slots) :=
  List.drop_drop.symm

/-- **Branch offsets count slots of the text.** The target of a branch is the first operation behind
it up to which the operations in between fill the skipped slots, and the end of the program if they
never do. The words of the text from there on are those of the operations behind the branch without
as many as are skipped, one more if the cut would fall between a `bgtz` and its offset. -/
theorem branchTarget_counts_slots (p : Program) (h : index < p.length) (slots : Nat) :
    let target := p.branchTarget index slots
    let behind := p.code.drop (index + 1)
    (IsLeast {t | index + 1 ≤ t ∧ t ≤ p.length ∧ slots ≤ p.slotsBetween (index + 1) t} target ∨
        (∀ t, index + 1 ≤ t → t ≤ p.length → p.slotsBetween (index + 1) t < slots) ∧
          target = p.length) ∧
      (¬SplitsBranch behind slots → Text.words (opsText (p.code.drop target)).toList
        = (Text.words (opsText behind).toList).drop slots) ∧
      (SplitsBranch behind slots → Text.words (opsText (p.code.drop target)).toList
        = (Text.words (opsText behind).toList).drop (slots + 1)) ∧
      index < target ∧ target ≤ p.length ∧ Monotone (p.branchTarget index) := by
  intro target behind
  have hwords := words_drop_opsSkipped behind slots
  rw [← drop_branchTarget] at hwords
  refine ⟨?_, hwords.1, hwords.2, p.lt_branchTarget index slots, branchTarget_le h slots,
    p.monotone_branchTarget index⟩
  by_cases hfilled : ∃ t, index + 1 ≤ t ∧ t ≤ p.length ∧ slots ≤ p.slotsBetween (index + 1) t
  · exact .inl (isLeast_branchTarget h hfilled)
  · have hshort : ∀ t, index + 1 ≤ t → t ≤ p.length → p.slotsBetween (index + 1) t < slots :=
      fun t hindex hlength => Nat.lt_of_not_le fun hs => hfilled ⟨t, hindex, hlength, hs⟩
    exact .inr ⟨hshort, branchTarget_eq_length h hshort⟩

/-- A branch over three slots into the middle of another one goes on behind that one. -/
theorem branchTarget_counts_slots_split :
    let p : Program := ⟨[.bgtz 3, .dup, .dup, .bgtz 0, .swap, .len]⟩
    SplitsBranch (p.code.drop 1) 3 ∧ p.branchTarget 0 3 = 4 ∧
      Text.words (opsText (p.code.drop (p.branchTarget 0 3))).toList
        = (Text.words (opsText (p.code.drop 1)).toList).drop 4 := by
  intro p
  have hsplit : SplitsBranch (p.code.drop 1) 3 := ⟨[.dup, .dup], 0, [.swap, .len], rfl, rfl⟩
  exact ⟨hsplit, by decide, (branchTarget_counts_slots p (by decide) 3).2.2.1 hsplit⟩

end Program

end StackSeq

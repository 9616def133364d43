import Mathlib.Data.List.Induction
import Mathlib.Data.Nat.Digits.Defs
import StackSeq.Prompt.Response

/-!
# Labels and indices

A label is a number in base 26, so every index has a label of its own (`letters_injective`) that
reads back as the index (`index?_letters`). Reading takes all runs of capital letters of a value in
range (`index?_eq_some_iff`), and those that name an index are its label behind any number of
letters A, which are zeros (`exists_letters_of_index?`). What labels and indices have to do with
each other is summed up in `labels_correspond`.
-/

namespace StackSeq

namespace Label

open Response (isCapital)

variable {c : Char} {cs : List Char} {index : Nat}

/-! ## Letters -/

/-- The place of a letter in the alphabet. -/
def digit (c : Char) : Nat := c.toNat - 0x41

theorem digit_lt (h : isCapital c = true) : digit c < 26 := by
  simp only [isCapital, decide_eq_true_eq] at h
  unfold digit
  omega

theorem letter_digit (h : isCapital c = true) : letter (digit c) = c := by
  simp only [isCapital, decide_eq_true_eq] at h
  rw [letter, digit, Nat.add_sub_cancel' h.1]
  exact Char.ofNat_toNat c

theorem isCapital_letter {d : Nat} (h : d < 26) : isCapital (letter d) = true := by
  have hall : ∀ e ∈ List.range 26, isCapital (letter e) = true := by decide
  exact hall d (List.mem_range.2 h)

theorem digit_letter {d : Nat} (h : d < 26) : digit (letter d) = d := by
  have hall : ∀ e ∈ List.range 26, digit (letter e) = e := by decide
  exact hall d (List.mem_range.2 h)

theorem isCapital_iff : isCapital c = true ↔ 'A' ≤ c ∧ c ≤ 'Z' := by
  simp only [isCapital, decide_eq_true_eq, Char.le_def, UInt32.le_iff_toNat_le]
  rfl

theorem digit?_eq (c : Char) : digit? c = if isCapital c then some (digit c) else none := by
  simp [digit?, isCapital, digit]

/-! ## Values -/

/-- The number that the letters stand for behind those of the number `high`. -/
def valueFrom (high : Nat) (cs : List Char) : Nat := cs.foldl (fun n c => n * 26 + digit c) high

/-- The number that the letters stand for. -/
def value (cs : List Char) : Nat := valueFrom 0 cs

theorem value_append (cs : List Char) (c : Char) : value (cs ++ [c]) = value cs * 26 + digit c := by
  rw [value, valueFrom, List.foldl_append]
  rfl

/-- The letters are digits in base 26, the last one counting ones. -/
theorem value_eq_ofDigits (cs : List Char) : value cs = Nat.ofDigits 26 (cs.reverse.map digit) := by
  induction cs using List.reverseRecOn with
  | nil => rfl
  | append_singleton cs c ih =>
    rw [value_append, List.reverse_concat, List.map_cons, Nat.ofDigits_cons, ← ih]
    omega

/-- Letters A in front count for nothing. -/
theorem value_append_of_forall {zeros : List Char} (h : ∀ c ∈ zeros, c = 'A') (cs : List Char) :
    value (zeros ++ cs) = value cs := by
  induction zeros with
  | nil => rfl
  | cons c zeros ih =>
    obtain ⟨rfl, hzeros⟩ := List.forall_mem_cons.1 h
    exact ih hzeros

theorem le_valueFrom (high : Nat) (cs : List Char) : high ≤ valueFrom high cs := by
  induction cs generalizing high with
  | nil => exact Nat.le_refl _
  | cons c cs ih =>
    have := ih (high * 26 + digit c)
    show high ≤ valueFrom (high * 26 + digit c) cs
    omega

/-- A value is in range if it is so at the end, since letters only make it larger. -/
theorem valueFrom?_eq_some_iff {high : Nat} (hhigh : high < 0x1_0000_0000_0000_0000) :
    valueFrom? high cs = some index ↔ (∀ c ∈ cs, isCapital c = true) ∧
      valueFrom high cs = index ∧ index < 0x1_0000_0000_0000_0000 := by
  induction cs generalizing high with
  | nil =>
    show some high = some index ↔ _
    rw [Option.some.injEq]
    constructor
    · rintro rfl
      exact ⟨List.forall_mem_nil _, rfl, hhigh⟩
    · exact fun h => h.2.1
  | cons c cs ih =>
    have hle := le_valueFrom (high * 26 + digit c) cs
    have hvalue : valueFrom high (c :: cs) = valueFrom (high * 26 + digit c) cs := rfl
    rw [valueFrom?, digit?_eq, hvalue, List.forall_mem_cons]
    by_cases hc : isCapital c = true
    · rw [if_pos hc, Option.bind_some]
      split
      · next hlt => rw [ih hlt]; simp only [hc, true_and]
      · next hge => simp only [reduceCtorEq, false_iff]; omega
    · simp [hc]

/-- **The texts that name an index** are runs of capital letters of its value. -/
theorem index?_eq_some_iff : index? cs = some index ↔ cs ≠ [] ∧
    (∀ c ∈ cs, isCapital c = true) ∧ value cs = index ∧ index < 0x1_0000_0000_0000_0000 := by
  unfold index?
  split
  · next h => simp [h]
  · next h => simp [valueFrom?_eq_some_iff (Nat.pow_pos (by decide : 0 < 2) : 0 < 2 ^ 64), h, value]

/-- **The texts that name no index** are empty, hold something else than capital letters, or have a
value out of range. -/
theorem index?_eq_none_iff : index? cs = none ↔ cs = [] ∨ (∃ c ∈ cs, ¬isCapital c = true) ∨
    0x1_0000_0000_0000_0000 ≤ value cs := by
  rw [Option.eq_none_iff_forall_ne_some]
  simp only [ne_eq, index?_eq_some_iff]
  constructor
  · intro hnone
    by_contra! hsome
    obtain ⟨hne, hcapital, hlt⟩ := hsome
    exact hnone (value cs) ⟨hne, hcapital, rfl, hlt⟩
  · rintro hcase index ⟨hne, hcapital, rfl, hlt⟩
    rcases hcase with hnil | ⟨c, hc, hother⟩ | hge
    · exact hne hnil
    · exact hother (hcapital c hc)
    · exact absurd hlt (Nat.not_lt.2 hge)

/-! ## Labels -/

theorem letters_of_lt (h : index < 26) : letters index = [letter index] := by
  rw [letters, if_pos h]

/-- Letters behind the label of a number make up the label of a number, unless it is zero. -/
theorem letters_valueFrom {high : Nat} (hhigh : high ≠ 0) (h : ∀ c ∈ cs, isCapital c = true) :
    letters (valueFrom high cs) = letters high ++ cs := by
  induction cs generalizing high with
  | nil => exact (List.append_nil _).symm
  | cons c cs ih =>
    obtain ⟨hc, hcs⟩ := List.forall_mem_cons.1 h
    have hd := digit_lt hc
    have hdiv : (high * 26 + digit c) / 26 = high := by omega
    have hmod : (high * 26 + digit c) % 26 = digit c := by omega
    have hfirst : letters (high * 26 + digit c) = letters high ++ [c] := by
      rw [letters, if_neg (by omega), hdiv, hmod, letter_digit hc]
    show letters (valueFrom (high * 26 + digit c) cs) = _
    rw [ih (by omega) hcs, hfirst, List.append_assoc]
    rfl

theorem letters_ne_nil (index : Nat) : letters index ≠ [] := by
  rw [letters]
  split <;> simp

theorem isCapital_of_mem_letters (h : c ∈ letters index) : isCapital c = true := by
  induction index using Nat.strongRecOn with
  | ind index ih =>
    rw [letters] at h
    split at h
    · next hlt => rw [List.mem_singleton.1 h]; exact isCapital_letter hlt
    · rcases List.mem_append.1 h with h | h
      · exact ih (index / 26) (by omega) h
      · rw [List.mem_singleton.1 h]
        exact isCapital_letter (Nat.mod_lt _ (by decide))

theorem notMem_letters (h : isCapital c = false) (index : Nat) : c ∉ letters index := by
  intro hmem
  rw [isCapital_of_mem_letters hmem] at h
  cases h

theorem value_letters (index : Nat) : value (letters index) = index := by
  induction index using Nat.strongRecOn with
  | ind index ih =>
    rw [letters]
    split
    · next hlt => exact (Nat.zero_add _).trans (digit_letter hlt)
    · rw [value_append, ih (index / 26) (by omega), digit_letter (Nat.mod_lt _ (by decide))]
      omega

/-- Only the label of zero begins with a zero. -/
theorem head?_letters_ne (h : index ≠ 0) : (letters index).head? ≠ some 'A' := by
  induction index using Nat.strongRecOn with
  | ind index ih =>
    rw [letters]
    split
    · next hlt =>
      intro heq
      have hdigit : digit (letter index) = digit 'A' :=
        congrArg digit (Option.some.inj heq : letter index = 'A')
      rw [digit_letter hlt] at hdigit
      exact h hdigit
    · have hfirst := ih (index / 26) (by omega) (by omega)
      obtain ⟨c, cs, heq⟩ := List.exists_cons_of_ne_nil (letters_ne_nil (index / 26))
      rw [heq] at hfirst ⊢
      exact hfirst

/-- **The label of an index reads back as the index.** -/
theorem index?_letters (h : index < 0x1_0000_0000_0000_0000) :
    index? (letters index) = some index :=
  index?_eq_some_iff.2
    ⟨letters_ne_nil index, fun _ => isCapital_of_mem_letters, value_letters index, h⟩

/-- **No two indices have the same label.** -/
theorem letters_injective {i j : Nat} (h : letters i = letters j) : i = j := by
  rw [← value_letters i, h, value_letters]

theorem ofIndex_injective {i j : Nat} (h : ofIndex i = ofIndex j) : i = j :=
  letters_injective (String.ofList_injective h)

/-- Capital letters are the label of their value behind letters A. -/
theorem exists_eq_replicate_append (hne : cs ≠ []) (h : ∀ c ∈ cs, isCapital c = true) :
    ∃ n, cs = List.replicate n 'A' ++ letters (value cs) := by
  induction cs with
  | nil => exact absurd rfl hne
  | cons c cs ih =>
    obtain ⟨hc, hcs⟩ := List.forall_mem_cons.1 h
    have hvalue : value (c :: cs) = valueFrom (digit c) cs := by
      rw [value, valueFrom, List.foldl_cons, Nat.zero_mul, Nat.zero_add, valueFrom]
    by_cases hzero : digit c = 0
    · -- A zero in front counts for nothing unless it is the only letter.
      obtain rfl : c = 'A' := by rw [← letter_digit hc, hzero]; rfl
      rw [hvalue, hzero, ← value]
      cases cs with
      | nil =>
        have hlabel : letters 0 = ['A'] := letters_of_lt (by decide)
        exact ⟨0, hlabel.symm⟩
      | cons c' cs =>
        obtain ⟨n, hn⟩ := ih (List.cons_ne_nil c' cs) hcs
        refine ⟨n + 1, ?_⟩
        rw [List.replicate_succ, List.cons_append, ← hn]
    · refine ⟨0, ?_⟩
      rw [hvalue, letters_valueFrom hzero hcs, letters_of_lt (digit_lt hc), letter_digit hc]
      rfl

/-- What stands around the label of an index in a text that has the label at its end behind letters
A: letters A before it, and behind it nothing or, if the label is A itself, letters A. -/
theorem zeros_around_letters {before after : List Char} {n : Nat}
    (h : before ++ letters index ++ after = List.replicate n 'A' ++ letters index) :
    (∀ c ∈ before, c = 'A') ∧ ∀ c ∈ after, c = 'A' ∧ index = 0 := by
  have hreplicate : ∀ c ∈ List.replicate n 'A', c = 'A' := fun c hc => List.eq_of_mem_replicate hc
  by_cases hindex : index = 0
  · have hall : ∀ c ∈ before ++ letters index ++ after, c = 'A' := by
      rw [h, hindex, letters_of_lt (by decide), List.forall_mem_append]
      exact ⟨hreplicate, fun c hc => List.mem_singleton.1 hc⟩
    rw [List.forall_mem_append, List.forall_mem_append] at hall
    exact ⟨hall.1.1, fun c hc => ⟨hall.2 c hc, hindex⟩⟩
  · -- The label does not begin with an A, so it begins where the letters A end.
    suffices hparts : (∀ c ∈ before, c = 'A') ∧ after = [] by
      obtain ⟨hbefore, rfl⟩ := hparts
      exact ⟨hbefore, List.forall_mem_nil _⟩
    rw [List.append_assoc] at h
    rcases List.append_eq_append_iff.1 h with ⟨m, hzeros, hrest⟩ | ⟨m, hbefore, hrest⟩
    · rw [hzeros, List.forall_mem_append] at hreplicate
      refine ⟨hreplicate.1, ?_⟩
      cases m with
      | nil => exact List.append_right_eq_self.1 hrest
      | cons c m =>
        obtain ⟨d, ds, heq⟩ := List.exists_cons_of_ne_nil (letters_ne_nil index)
        have hfirst := head?_letters_ne hindex
        rw [heq] at hrest hfirst
        obtain rfl : d = c := (List.cons.inj hrest).1
        exact absurd (congrArg some (hreplicate.2 d List.mem_cons_self)) hfirst
    · have hlength := congrArg List.length hrest
      simp only [List.length_append] at hlength
      obtain rfl : m = [] := List.length_eq_zero_iff.1 (by omega)
      rw [hbefore, List.append_nil]
      exact ⟨hreplicate, List.length_eq_zero_iff.1 (by omega)⟩

/-- **A text that names an index is its label behind letters A.** -/
theorem exists_letters_of_index? (h : index? cs = some index) :
    ∃ n, cs = List.replicate n 'A' ++ letters index := by
  obtain ⟨hne, hcapital, rfl, -⟩ := index?_eq_some_iff.1 h
  exact exists_eq_replicate_append hne hcapital

/-- The letters without the letters A in front of them, of which one stays if there are no
others. -/
def withoutZeros (cs : List Char) : List Char :=
  if cs.all (· == 'A') then ['A'] else cs.dropWhile (· == 'A')

theorem letters_of_index? (h : index? cs = some index) : letters index = withoutZeros cs := by
  obtain ⟨n, rfl⟩ := exists_letters_of_index? h
  have hzeros : ∀ c ∈ List.replicate n 'A', (c == 'A') = true := fun c hc =>
    beq_iff_eq.2 (List.eq_of_mem_replicate hc)
  unfold withoutZeros
  by_cases hindex : index = 0
  · have hall : (List.replicate n 'A' ++ ['A']).all (· == 'A') = true := by
      rw [List.all_append, List.all_eq_true.2 hzeros]
      rfl
    rw [hindex, letters_of_lt (by decide)]
    exact (if_pos hall).symm
  · obtain ⟨d, ds, heq⟩ := List.exists_cons_of_ne_nil (letters_ne_nil index)
    have hd : ¬(d == 'A') = true := by
      have hfirst := head?_letters_ne hindex
      rw [heq] at hfirst
      exact fun hd => hfirst (congrArg some (beq_iff_eq.1 hd))
    have hother : ¬(List.replicate n 'A' ++ d :: ds).all (· == 'A') = true := fun hall =>
      hd (List.all_eq_true.1 hall d (List.mem_append_right _ List.mem_cons_self))
    rw [heq, if_neg hother, List.dropWhile_append_of_pos hzeros, List.dropWhile_cons, if_neg hd]

/-- **Labels and indices correspond.** Every 64-bit index is what its label reads as. The texts that
name no index are empty, hold something else than letters from A to Z, or have a value in base 26
that does not fit 64 bits; any other text names the index of its value, whose label is the text
without needless letters A in front. -/
theorem labels_correspond :
    (∀ index : UInt64, index? (ofIndex index.toNat).toList = some index.toNat) ∧
    ∀ label : String,
      (index? label.toList = none ↔ label = "" ∨ (∃ c ∈ label.toList, ¬('A' ≤ c ∧ c ≤ 'Z')) ∨
        2 ^ 64 ≤ Nat.ofDigits 26 (label.toList.reverse.map digit)) ∧
      ∀ index, index? label.toList = some index →
        index = Nat.ofDigits 26 (label.toList.reverse.map digit) ∧
        (ofIndex index).toList = withoutZeros label.toList := by
  refine ⟨fun index => ?_, fun label => ⟨?_, fun index hindex => ⟨?_, ?_⟩⟩⟩
  · rw [ofIndex, String.toList_ofList]
    exact index?_letters index.toNat_lt
  · rw [index?_eq_none_iff, String.toList_eq_nil_iff, ← value_eq_ofDigits]
    simp only [isCapital_iff, Nat.reducePow]
  · rw [← value_eq_ofDigits]
    exact (index?_eq_some_iff.1 hindex).2.2.1.symm
  · rw [ofIndex, String.toList_ofList]
    exact letters_of_index? hindex

/-- The last index of 64 bits, from its label behind two letters A. -/
theorem labels_correspond_last :
    index? "AAHLHXCZMXSYUMQP".toList = some (2 ^ 64 - 1) ∧
      (ofIndex (2 ^ 64 - 1)).toList = "HLHXCZMXSYUMQP".toList ∧
      index? "HLHXCZMXSYUMQQ".toList = none := by
  have hread : index? "AAHLHXCZMXSYUMQP".toList = some (2 ^ 64 - 1) := by decide
  have hlabel := (labels_correspond.2 "AAHLHXCZMXSYUMQP").2 (2 ^ 64 - 1) hread
  refine ⟨hread, hlabel.2.trans (by decide), ?_⟩
  exact (labels_correspond.2 "HLHXCZMXSYUMQQ").1.2 (.inr (.inr (by decide)))

end Label

end StackSeq

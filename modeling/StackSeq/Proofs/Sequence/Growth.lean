import StackSeq.Sequence

/-!
# Growing sequences

What a program grows from a seed.

* A sequence begins with its seed (`prefix_of_extend`) and has the asked length
  (`length_of_extend`).
* A wider bound on the terms changes nothing that was grown within a narrower one (`extend_mono`).
  So every sequence that a program grows within a positive bound is one that it reproduces
  (`reproduces_of_extend`).
* Two sequences that one program reproduces from one seed to one length are the same
  (`eq_of_reproduces`).
* A program that repeats the term it has just added repeats it for good
  (`Repeats.isConstant_of_extend`).
-/

namespace StackSeq

theorem Sequence.isConstant_append_replicate (terms : Sequence) (count : Nat) (term : Int64) :
    Sequence.isConstant (terms ++ List.replicate count term) terms.length = true := by
  rw [Sequence.isConstant, List.drop_left]
  cases count with
  | zero => rfl
  | succ count => simp [List.replicate_succ]

namespace Program

variable {p : Program} {bound bound' : Int64} {count length seedLen : Nat}
  {seed terms grown : Sequence}

/-! ## Seed and length -/

theorem prefix_of_grow (h : p.grow bound count terms = some grown) : terms <+: grown := by
  induction count generalizing terms with
  | zero =>
    cases h
    exact List.prefix_refl _
  | succ count ih =>
    obtain ⟨term, -, h⟩ := Option.bind_eq_some_iff.1 h
    exact (List.prefix_append terms [term]).trans (ih h)

/-- A sequence begins with its seed. -/
theorem prefix_of_extend (h : p.extend seed length bound = some grown) : seed <+: grown :=
  prefix_of_grow h

theorem take_of_extend (h : p.extend seed length bound = some grown) :
    grown.take seed.length = seed :=
  (List.prefix_iff_eq_take.1 (prefix_of_extend h)).symm

theorem length_of_extend (hle : seed.length ≤ length)
    (h : p.extend seed length bound = some grown) : grown.length = length := by
  rw [length_grow h, Nat.add_sub_cancel' hle]

/-! ## Bounds -/

theorem nextTerm?_eq_some_iff {term : Int64} :
    p.nextTerm? bound terms = some term ↔
      ∃ top, (p.evaluate (terms.map Rational.ofTerm)).getLast? = some top ∧
        top.toTerm? = some term ∧ term.toInt.natAbs ≤ bound.toInt.natAbs := by
  simp only [nextTerm?, Option.bind_eq_bind, Option.bind_eq_some_iff, Option.ite_none_right_eq_some,
    Option.some.injEq]
  constructor
  · rintro ⟨top, htop, _, hterm, hle, rfl⟩
    exact ⟨top, htop, hterm, hle⟩
  · rintro ⟨top, htop, hterm, hle⟩
    exact ⟨top, htop, term, hterm, hle, rfl⟩

theorem nextTerm?_mono (hb : bound.toInt.natAbs ≤ bound'.toInt.natAbs) {term : Int64}
    (h : p.nextTerm? bound terms = some term) : p.nextTerm? bound' terms = some term := by
  obtain ⟨top, htop, hterm, hle⟩ := nextTerm?_eq_some_iff.1 h
  exact nextTerm?_eq_some_iff.2 ⟨top, htop, hterm, Nat.le_trans hle hb⟩

theorem grow_mono (hb : bound.toInt.natAbs ≤ bound'.toInt.natAbs)
    (h : p.grow bound count terms = some grown) : p.grow bound' count terms = some grown := by
  induction count generalizing terms with
  | zero => exact h
  | succ count ih =>
    obtain ⟨term, hterm, h⟩ := Option.bind_eq_some_iff.1 h
    exact Option.bind_eq_some_iff.2 ⟨term, nextTerm?_mono hb hterm, ih h⟩

/-- **A wider bound changes nothing that was grown.** -/
theorem extend_mono (hb : bound.toInt.natAbs ≤ bound'.toInt.natAbs)
    (h : p.extend seed length bound = some grown) : p.extend seed length bound' = some grown :=
  grow_mono hb h

/-- No positive bound is wider than the widest. -/
theorem natAbs_le_widestBound (hb : 0 ≤ bound.toInt) :
    bound.toInt.natAbs ≤ widestBound.toInt.natAbs := by
  have hlt : bound.toInt < 2 ^ 63 := bound.toInt_lt
  have hmax : widestBound.toInt = 2 ^ 63 - 1 := by decide
  omega

/-! ## Reproduction -/

theorem reproduces_iff :
    p.reproduces terms seedLen = true
      ↔ p.extend (terms.take seedLen) terms.length widestBound = some terms := by
  rw [reproduces, beq_iff_eq]

/-- **What a program grows it reproduces**, the bound being no narrower. -/
theorem reproduces_of_extend (hle : seed.length ≤ length) (hb : 0 ≤ bound.toInt)
    (h : p.extend seed length bound = some grown) : p.reproduces grown seed.length = true := by
  rw [reproduces_iff, take_of_extend h, length_of_extend hle h]
  exact extend_mono (natAbs_le_widestBound hb) h

/-- **One seed, one sequence.** -/
theorem eq_of_reproduces {other : Sequence} (h : p.reproduces terms seedLen = true)
    (h' : p.reproduces other seedLen = true) (hseed : terms.take seedLen = other.take seedLen)
    (hlen : terms.length = other.length) : terms = other := by
  rw [reproduces_iff] at h h'
  rw [hseed, hlen, h'] at h
  exact (Option.some.inj h).symm

/-! ## Repetition -/

/-- The program adds a term again that it has just added. -/
def Repeats (p : Program) : Prop :=
  ∀ (bound : Int64) (terms : Sequence) (term next : Int64), p.nextTerm? bound terms = some term →
    p.nextTerm? bound (terms ++ [term]) = some next → next = term

/-- From the first added term on, all are equal to it. -/
theorem Repeats.grow_eq (hp : p.Repeats) {term : Int64}
    (hterm : p.nextTerm? bound terms = some term)
    (h : p.grow bound count (terms ++ [term]) = some grown) :
    grown = terms ++ List.replicate (count + 1) term := by
  induction count generalizing terms with
  | zero =>
    cases h
    rfl
  | succ count ih =>
    obtain ⟨next, hnext, h⟩ := Option.bind_eq_some_iff.1 h
    obtain rfl := hp bound terms term next hterm hnext
    rw [ih hnext h, List.append_assoc, List.singleton_append, ← List.replicate_succ]

/-- **A program that repeats grows constant sequences only.** -/
theorem Repeats.isConstant_of_extend (hp : p.Repeats)
    (h : p.extend seed length bound = some grown) : grown.isConstant seed.length = true := by
  unfold extend at h
  cases hc : length - seed.length with
  | zero =>
    rw [hc] at h
    cases h
    simpa using Sequence.isConstant_append_replicate seed 0 0
  | succ count =>
    rw [hc] at h
    obtain ⟨term, hterm, h⟩ := Option.bind_eq_some_iff.1 h
    rw [hp.grow_eq hterm h]
    exact Sequence.isConstant_append_replicate seed (count + 1) term

end Program

end StackSeq

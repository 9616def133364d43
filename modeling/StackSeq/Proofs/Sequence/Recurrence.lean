import StackSeq.Proofs.Sequence.Growth

/-!
# The recurrence of a sequence

A program grows a seed into those terms that obey its recurrence: each term after the seed is the
last value of the run on the terms before it (`Yields`), within the bound. `Grows` states this
without a run of `grow`, which carries the terms along and stops at the first one that is missing;
`extend_eq_some_iff` says that both are the same.

The recurrence looks at a term and those before it only. So whatever obeys it can be cut anywhere
after its seed, and the part goes on as the whole did: `Grows.resume`.
-/

namespace StackSeq

/-- Values that read as a term are that term. -/
theorem Rational.toTerm?_eq_some_iff {r : Rational} {term : Int64} :
    r.toTerm? = some term ↔ r = Rational.ofTerm term := by
  constructor
  · intro h
    rw [toTerm?, Option.ite_none_right_eq_some, Option.some.injEq, isInteger, beq_iff_eq] at h
    obtain ⟨hden, rfl⟩ := h
    have hnum : (Int64.ofInt r.num).toInt = r.num :=
      Int64.toInt_ofInt_of_le r.num_fits.1 r.num_fits.2
    cases r
    simp_all [ofTerm, ofInt]
  · rintro rfl
    exact toTerm?_ofTerm term

namespace Program

variable {p : Program} {bound bound' : Int64} {count length : Nat} {seed terms grown : Sequence}
  {term : Int64}

/-! ## One term -/

/-- The last value of the run on the terms is this term, and its magnitude is within that of the
bound. -/
def Yields (p : Program) (bound : Int64) (terms : Sequence) (term : Int64) : Prop :=
  (p.evaluate (terms.map Rational.ofTerm)).getLast? = some (Rational.ofTerm term) ∧
    term.toInt.natAbs ≤ bound.toInt.natAbs

theorem nextTerm?_eq_some_iff_yields :
    p.nextTerm? bound terms = some term ↔ p.Yields bound terms term := by
  rw [nextTerm?_eq_some_iff, Yields]
  constructor
  · rintro ⟨top, htop, hterm, hle⟩
    exact ⟨Rational.toTerm?_eq_some_iff.1 hterm ▸ htop, hle⟩
  · rintro ⟨htop, hle⟩
    exact ⟨_, htop, Rational.toTerm?_ofTerm term, hle⟩

theorem Yields.mono (hb : bound.toInt.natAbs ≤ bound'.toInt.natAbs)
    (h : p.Yields bound terms term) :
    p.Yields bound' terms term :=
  ⟨h.1, Nat.le_trans h.2 hb⟩

/-! ## All terms -/

/-- The terms are what the program makes of the seed: they begin with it, there are `length` of them
or those of a longer seed, and each one after the seed is yielded by those before it. -/
structure Grows (p : Program) (bound : Int64) (seed : Sequence) (length : Nat) (terms : Sequence) :
    Prop where
  prefix_seed : seed <+: terms
  length_eq : terms.length = max length seed.length
  yields : ∀ i term, seed.length ≤ i → terms[i]? = some term → p.Yields bound (terms.take i) term

/-- Terms that are as many as asked for obey the recurrence, and nothing else does that begins with
them. -/
theorem grows_iff_of_le (hle : length ≤ terms.length) :
    p.Grows bound terms length grown ↔ grown = terms := by
  constructor
  · intro h
    have hlen : terms.length = grown.length := by rw [h.length_eq, Nat.max_eq_right hle]
    exact (h.prefix_seed.eq_of_length hlen).symm
  · rintro rfl
    refine ⟨List.prefix_refl _, (Nat.max_eq_right hle).symm, fun i term hi hterm => ?_⟩
    rw [List.getElem?_eq_none hi] at hterm
    cases hterm

/-- Of more terms the next one is yielded, and those behind it obey the recurrence from there. -/
theorem grows_iff_of_lt (hlt : terms.length < length) :
    p.Grows bound terms length grown ↔
      ∃ term, p.Yields bound terms term ∧ p.Grows bound (terms ++ [term]) length grown := by
  have hlen : ∀ term : Int64, max length (terms ++ [term]).length = max length terms.length := by
    intro term
    rw [List.length_append, List.length_singleton]
    omega
  constructor
  · intro h
    have hmem : terms.length < grown.length := by rw [h.length_eq]; omega
    have htake : grown.take terms.length = terms := (List.prefix_iff_eq_take.1 h.prefix_seed).symm
    have hterm : grown[terms.length]? = some grown[terms.length] := List.getElem?_eq_getElem hmem
    have hyields := h.yields terms.length _ (Nat.le_refl _) hterm
    have hpre := List.take_prefix (terms.length + 1) grown
    rw [htake] at hyields
    rw [List.take_add_one, hterm, htake] at hpre
    refine ⟨_, hyields, hpre, h.length_eq.trans (hlen _).symm, fun i next hi => h.yields i next ?_⟩
    rw [List.length_append] at hi
    exact Nat.le_of_add_right_le hi
  · rintro ⟨term, hyields, h⟩
    have hpre : terms <+: grown := (List.prefix_append terms [term]).trans h.prefix_seed
    refine ⟨hpre, h.length_eq.trans (hlen term), fun i next hi hnext => ?_⟩
    rcases Nat.eq_or_lt_of_le hi with rfl | hi
    · -- The first term behind the seed is the one that was yielded.
      obtain ⟨rest, rfl⟩ := h.prefix_seed
      obtain rfl : term = next := by simpa using hnext
      rwa [(List.prefix_iff_eq_take.1 hpre).symm]
    · refine h.yields i next ?_ hnext
      rwa [List.length_append, List.length_singleton]

/-- **A sequence is what obeys the recurrence of its program.** -/
theorem extend_eq_some_iff :
    p.extend seed length bound = some terms ↔ p.Grows bound seed length terms := by
  unfold extend
  -- Along the run the seed takes up the terms that were added.
  induction hcount : length - seed.length generalizing seed with
  | zero =>
    rw [grow, Option.some.injEq, grows_iff_of_le (Nat.le_of_sub_eq_zero hcount), eq_comm]
  | succ count ih =>
    have hlt : seed.length < length := Nat.lt_of_sub_eq_succ hcount
    rw [grow, Option.bind_eq_some_iff, grows_iff_of_lt hlt]
    refine exists_congr fun term => ?_
    have hnext : length - (seed ++ [term]).length = count := by
      rw [List.length_append, List.length_singleton]
      omega
    rw [nextTerm?_eq_some_iff_yields, ih hnext]

theorem extend_eq_none_iff :
    p.extend seed length bound = none ↔ ¬∃ terms, p.Grows bound seed length terms := by
  rw [Option.eq_none_iff_forall_ne_some, not_exists]
  exact forall_congr' fun terms => not_congr extend_eq_some_iff

/-! ## Resumption -/

/-- What obeys the recurrence obeys it from any point after its seed, and within any wider bound. -/
theorem Grows.resume {cut : Nat} (h : p.Grows bound seed length terms) (hseed : seed.length ≤ cut)
    (hcut : cut ≤ terms.length) (hb : bound.toInt.natAbs ≤ bound'.toInt.natAbs) :
    p.Grows bound' (terms.take cut) length terms := by
  have hlen : (terms.take cut).length = cut := List.length_take_of_le hcut
  refine ⟨List.take_prefix cut terms, ?_, fun i term hi hterm => ?_⟩
  · have := h.length_eq
    rw [hlen]
    omega
  · rw [hlen] at hi
    exact (h.yields i term (Nat.le_trans hseed hi) hterm).mono hb

/-- **Growth is its recurrence, and can be taken up again.** The terms that a seed grows into are
those that obey the recurrence within the bound, and there are none exactly if nothing obeys it. Cut
anywhere after the seed they grow into themselves again, within any bound of no smaller
magnitude. -/
theorem growth_recurrence (p : Program) (seed : Sequence) (length : Nat) (bound : Int64) :
    (∀ terms, p.extend seed length bound = some terms ↔ p.Grows bound seed length terms) ∧
      (p.extend seed length bound = none ↔ ¬∃ terms, p.Grows bound seed length terms) ∧
      ∀ terms, p.extend seed length bound = some terms → ∀ (cut : Nat) (bound' : Int64),
        seed.length ≤ cut → cut ≤ terms.length → bound.toInt.natAbs ≤ bound'.toInt.natAbs →
          p.extend (terms.take cut) length bound' = some terms := by
  refine ⟨fun _ => extend_eq_some_iff, extend_eq_none_iff,
    fun terms h cut bound' hseed hcut hb => ?_⟩
  exact extend_eq_some_iff.2 ((extend_eq_some_iff.1 h).resume hseed hcut hb)

/-- Sums of the last two terms, cut after the fourth and taken up within the widest magnitude, which
is that of -2^63; the sixth term is out of a bound of 7. -/
theorem growth_recurrence_sums :
    let p : Program := ⟨[.dup, .rot, .binary .add]⟩
    p.extend [1, 1] 6 (-8) = some [1, 1, 2, 3, 5, 8] ∧
      p.extend [1, 1, 2, 3] 6 Int64.minValue = some [1, 1, 2, 3, 5, 8] ∧
      ¬∃ terms, p.Grows 7 [1, 1] 6 terms := by
  intro p
  have hgrown : p.extend [1, 1] 6 (-8) = some [1, 1, 2, 3, 5, 8] := by decide +kernel
  have hnone : p.extend [1, 1] 6 7 = none := by decide +kernel
  refine ⟨hgrown, ?_, (growth_recurrence p [1, 1] 6 7).2.1.1 hnone⟩
  exact (growth_recurrence p [1, 1] 6 (-8)).2.2 _ hgrown 4 Int64.minValue (by decide) (by decide)
    (by decide)

end Program

end StackSeq

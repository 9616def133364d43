import Mathlib.Data.Option.Basic
import StackSeq.Proofs.Sequence.Growth
import StackSeq.Proofs.Settings.Accepted
import StackSeq.Proofs.Symbolic.Soundness
import StackSeq.Search

/-!
# Constant programs

A search leaves out the programs that the analysis shows to be constant. The analysis is one run
on an unknown stack, and what it says of the top holds after every run: it is a fixed value, or the
value that lay on top before (`exists_top_of_isProvablyConstant`). A program that grows a sequence
runs on its own output, so in either case it adds one and the same term from the first on
(`repeats_of_isProvablyConstant`), however long the stack gets. So leaving such programs out loses
none that would have been kept: `pruning_drops_constant_only`.

As in all results on the analysis, its counts have to fit into signed 64-bit integers. Seeds and
programs that fit into memory see to that for every accepted origin (`inRange_of_addressable`).
-/

namespace StackSeq

theorem ExprSet.single?_eq_some_iff {x : ExprSet} {e : Expr} :
    x.single? = some e ↔ x.exprs = [e] := by
  unfold single?
  split
  · next m hm => rw [hm, Option.some.injEq, List.cons.injEq, and_iff_left rfl]
  · next hno => exact ⟨nofun, fun h => absurd h (hno e)⟩

theorem ExprSet.eq_of_mem_of_single? {x : ExprSet} {e e' : Expr} (h : x.single? = some e)
    (he : e' ∈ x) : e' = e := by
  have hmem : e' ∈ x.exprs := he
  rw [single?_eq_some_iff.1 h] at hmem
  exact List.mem_singleton.1 hmem

/-- Only a level stack has a known top. -/
theorem SymbolicStack.ragged_eq_false {s : SymbolicStack} {slot : ExprSet}
    (h : s.topOfStack? = some slot) : s.ragged = false := by
  unfold topOfStack? at h
  split at h
  · cases h
  · next hlevel => exact Bool.eq_false_iff.2 hlevel

namespace Program

variable {p : Program} {originDepth : Nat}

/-! ## The verdict -/

/-- A verdict rests on a single expression in the top slot: a literal or the former top. -/
theorem single_of_isProvablyConstant (h : p.isProvablyConstant originDepth = true) :
    ∃ slot e, (p.analyze originDepth).topOfStack? = some slot ∧ slot.single? = some e ∧
      ((∃ r, e = .lit r) ∨ e = .top 0) := by
  unfold isProvablyConstant at h
  split at h
  · next r heq =>
    obtain ⟨slot, hslot, hsingle⟩ := Option.bind_eq_some_iff.1 heq
    exact ⟨slot, .lit r, hslot, hsingle, .inl ⟨r, rfl⟩⟩
  · next heq =>
    obtain ⟨slot, hslot, hsingle⟩ := Option.bind_eq_some_iff.1 heq
    exact ⟨slot, .top 0, hslot, hsingle, .inr rfl⟩
  · cases h

/-- **What the analysis says of the top holds after every run**, also of one that ran out of
values. -/
theorem exists_top_of_isProvablyConstant (hr : (p.explore originDepth).InRange)
    (h : p.isProvablyConstant originDepth = true) :
    ∃ e : Expr, ((∃ r, e = .lit r) ∨ e = .top 0) ∧
      ∀ (values : List Rational) (v : Rational), (p.evaluate values).getLast? = some v →
        v = e.value (p.assignment originDepth values) := by
  obtain ⟨slot, e, hslot, hsingle, he⟩ := single_of_isProvablyConstant h
  refine ⟨e, he, fun values v hv => ?_⟩
  obtain ⟨s, hend, hs⟩ := p.exists_tracked_end originDepth values hr
  have htop : (p.run (.ofList values)).topDown[0]? = some v := by
    rw [← List.head?_eq_getElem?, ← hv, evaluate, Stack.toList, List.getLast?_reverse]
  obtain ⟨slot', hslot', e', he', hev⟩ := hs.exists_mem_top_of_level (covers_analyze hr s hend)
    (wellFormed_analyze hr) (SymbolicStack.ragged_eq_false hslot) htop
  obtain rfl : slot' = slot := Option.some.inj (hslot'.symm.trans hslot)
  rw [← hev, ExprSet.eq_of_mem_of_single? hsingle he']

/-! ## Every step of a sequence -/

/-- **A provably constant program repeats the term it has just added.** -/
theorem repeats_of_isProvablyConstant (hr : (p.explore originDepth).InRange)
    (h : p.isProvablyConstant originDepth = true) : p.Repeats := by
  intro bound terms term next hterm hnext
  obtain ⟨e, he, htop⟩ := exists_top_of_isProvablyConstant hr h
  obtain ⟨v, hv, hvt, -⟩ := nextTerm?_eq_some_iff.1 hterm
  obtain ⟨w, hw, hwt, -⟩ := nextTerm?_eq_some_iff.1 hnext
  rw [htop _ _ hv] at hvt
  rw [htop _ _ hw] at hwt
  rcases he with ⟨r, rfl⟩ | rfl
  · -- A literal: both terms are its value.
    exact Option.some.inj (hwt.symm.trans hvt)
  · -- The former top: that is the term just added.
    have hlast :
        (Expr.top 0).value (p.assignment originDepth ((terms ++ [term]).map Rational.ofTerm))
          = .ofTerm term := by
      simp [Expr.value, assignment]
    rw [hlast, Rational.toTerm?_ofTerm] at hwt
    exact (Option.some.inj hwt).symm

end Program

/-! ## Leaving out candidates -/

/-- More than any list in memory has items of eight bytes or more each, since the bytes of an
object are counted with signed 64-bit integers. -/
def addressable : Nat := 0x1000_0000_0000_0000

namespace Settings

variable {s : Settings} {p : Program} {primary : Sequence} {examples : List Sequence}

/-- Accepted origins are not too deep. -/
theorem inRange_of_addressable (hs : s.Accepted) (hseed : s.seedLen < addressable)
    (hp : p.length < addressable) : (p.explore s.originDepth.toNat).InRange := by
  have horigin := hs.originDepth_le
  unfold addressable at hseed hp
  exact Program.inRange_explore (by omega) (by omega)

theorem outputs?_eq_some_iff :
    s.outputs? p = some (primary, examples) ↔ s.grow? p s.primarySeed = some primary ∧
      ¬(s.skipConstant ∧ primary.isConstant s.seedLen) ∧
      examples.map some = s.exampleSeeds.map (s.grow? p) := by
  have hguard : ∀ terms : Sequence,
      (!(s.skipConstant && terms.isConstant s.seedLen)) = true ↔
        ¬(s.skipConstant ∧ terms.isConstant s.seedLen) := by
    intro terms
    rw [Bool.not_eq_true', ← Bool.not_eq_true, Bool.and_eq_true]
  constructor
  · intro h
    obtain ⟨_, hprimary, h⟩ := Option.bind_eq_some_iff.1 h
    obtain ⟨_, hkept, h⟩ := Option.bind_eq_some_iff.1 h
    obtain ⟨_, hexamples, h⟩ := Option.bind_eq_some_iff.1 h
    cases h
    exact ⟨hprimary, (hguard _).1 ((Option.guard_eq_some' _).1 hkept),
      mapM_eq_some_iff.1 hexamples⟩
  · rintro ⟨hprimary, hkept, hexamples⟩
    exact Option.bind_eq_some_iff.2 ⟨primary, hprimary, Option.bind_eq_some_iff.2
      ⟨(), (Option.guard_eq_some' _).2 ((hguard _).2 hkept), Option.bind_eq_some_iff.2
        ⟨examples, mapM_eq_some_iff.2 hexamples, rfl⟩⟩⟩

/-- A program whose output is constant has no outputs if such are left out. -/
theorem outputs?_of_repeats (hskip : s.skipConstant = true) (hp : p.Repeats) :
    s.outputs? p = none := by
  rw [Option.eq_none_iff_forall_ne_some]
  rintro ⟨primary, examples⟩ hout
  obtain ⟨hgrown, hkept, -⟩ := outputs?_eq_some_iff.1 hout
  exact hkept ⟨hskip, hp.isConstant_of_extend hgrown⟩

/-- **Nothing is lost by leaving out what the analysis shows to be constant.** -/
theorem prunedOutputs?_eq (hr : (p.explore s.originDepth.toNat).InRange) :
    s.prunedOutputs? p = s.outputs? p := by
  unfold prunedOutputs?
  split
  · next hpruned =>
    obtain ⟨hskip, hconstant⟩ := Bool.and_eq_true_iff.1 hpruned
    exact (outputs?_of_repeats hskip (Program.repeats_of_isProvablyConstant hr hconstant)).symm
  · rfl

end Settings

namespace Program

/-- **Leaving out provably constant programs drops constant sequences only.** What such a program
grows, from any seed to any length, is constant after the seed; and accepted settings keep the same
candidates with and without looking at the analysis. -/
theorem pruning_drops_constant_only (p : Program) :
    (∀ originDepth, (p.explore originDepth).InRange → p.isProvablyConstant originDepth = true →
      ∀ (seed : Sequence) (length : Nat) (bound : Int64), p.extend seed length bound = none ∨
        ∃ grown, p.extend seed length bound = some grown ∧ grown.isConstant seed.length = true) ∧
      ∀ s : Settings, s.check = .ok () → s.seedLen < addressable → p.length < addressable →
        s.prunedOutputs? p = s.outputs? p := by
  constructor
  · intro originDepth hr h seed length bound
    cases hg : p.extend seed length bound with
    | none => exact .inl rfl
    | some grown =>
      exact .inr ⟨grown, rfl, (repeats_of_isProvablyConstant hr h).isConstant_of_extend hg⟩
  · intro s hs hseed hp
    exact Settings.prunedOutputs?_eq
      (Settings.inRange_of_addressable (Settings.accepted_of_check hs) hseed hp)

/-- A branch on the last term, both ways of which leave two on top: it is left out, and what it
grows is constant. -/
theorem pruning_drops_constant_only_merged :
    let p : Program := ⟨[.bgtz 4, .push (.ofCount 2), .push 1, .bgtz 1, .push (.ofCount 2)]⟩
    let s : Settings := { prompts := ⟨"", "", ""⟩ }
    (p.explore 1).InRange ∧ p.isProvablyConstant 1 = true ∧
      p.extend [1, 7] 5 10 = some [1, 7, 2, 2, 2] ∧
      Sequence.isConstant [1, 7, 2, 2, 2] 2 = true ∧
      s.check = .ok () ∧ s.seedLen < addressable ∧ p.length < addressable ∧
      s.prunedOutputs? p = s.outputs? p := by
  intro p s
  have hr : (p.explore 1).InRange := inRange_explore (by decide) (by decide)
  have hp : p.isProvablyConstant 1 = true := by decide +kernel
  have hg : p.extend [1, 7] 5 10 = some [1, 7, 2, 2, 2] := by decide +kernel
  have hs : s.check = .ok () := by decide +kernel
  have hseed : s.seedLen < addressable := by decide
  have hlength : p.length < addressable := by decide
  obtain ⟨hconstant, hpruned⟩ := pruning_drops_constant_only p
  obtain hnone | ⟨grown, hgrown, hall⟩ := hconstant 1 hr hp [1, 7] 5 10
  · rw [hg] at hnone
    cases hnone
  · obtain rfl : [1, 7, 2, 2, 2] = grown := Option.some.inj (hg.symm.trans hgrown)
    exact ⟨hr, hp, hg, hall, hs, hseed, hlength, hpruned s hs hseed hlength⟩

/-- Out of range, the depth that is added to zero is put below the origin, and the former top is
taken in its place; what the program grows is not constant. -/
theorem not_pruning_drops_constant_only :
    let p : Program := ⟨[.push 0, .len, .binary .add]⟩
    p.isProvablyConstant 0x7fff_ffff_ffff_ffff = true ∧
      ¬(p.extend [5] 4 10 = none ∨
        ∃ grown, p.extend [5] 4 10 = some grown ∧ grown.isConstant 1 = true) := by
  intro p
  have hg : p.extend [5] 4 10 = some [5, 2, 3, 4] := by decide +kernel
  refine ⟨by decide +kernel, ?_⟩
  rintro (hnone | ⟨grown, hgrown, hall⟩)
  · rw [hg] at hnone
    cases hnone
  · obtain rfl : [5, 2, 3, 4] = grown := Option.some.inj (hg.symm.trans hgrown)
    exact absurd hall (by decide)

end Program

end StackSeq

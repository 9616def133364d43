import StackSeq.Proofs.Program.Identifier
import StackSeq.Proofs.Text.Decimal

/-!
# The enumeration of programs

Identifiers are the numbers in hexadecimal, so no two numbers have the same
(`enumerated_injective`), and a program is no longer than the digits of its number
(`length_le_of_enumerated`).

Which programs the numbers with so many digits enumerate: each that has an identifier, fills no more
slots than that and does not push zero first, and the program that does nothing but push zero, each
once (`enumeration_exact`). For numbers are written without zeros in front, and any other row of
digits is a number (`toDigits_foldl`).
-/

namespace StackSeq

/-! ## Digits -/

namespace Text

/-- The number that hexadecimal digits stand for. -/
def hexNumber (digits : List Char) : Nat :=
  digits.foldl (fun n c => 16 * n + (hexValue? c).getD 0) 0

theorem hexNumber_append_digit (digits : List Char) {d : Nat} (hd : d < 16) :
    hexNumber (digits ++ [d.digitChar]) = 16 * hexNumber digits + d := by
  rw [hexNumber, List.foldl_append, List.foldl_cons, List.foldl_nil, hexValue?_digitChar hd]
  rfl

/-- The digits of a number stand for it. -/
theorem hexNumber_toDigits (n : Nat) : hexNumber (Nat.toDigits 16 n) = n := by
  induction n using Nat.strongRecOn with
  | ind n ih =>
    rw [Nat.toDigits_eq_if (by decide)]
    split
    · next hlt => exact (hexNumber_append_digit [] hlt).trans (Nat.zero_add n)
    · next hle =>
      rw [hexNumber_append_digit _ (Nat.mod_lt n (by decide)), ih (n / 16) (by omega)]
      omega

/-- The digits of a number are in lower case. -/
theorem toLower_of_mem_toDigits {n : Nat} {c : Char} (h : c ∈ Nat.toDigits 16 n) :
    c.toLower = c := by
  have hall : ∀ d ∈ List.range 16, d.digitChar.toLower = d.digitChar := by decide
  induction n using Nat.strongRecOn with
  | ind n ih =>
    rw [Nat.toDigits_eq_if (by decide)] at h
    split at h
    · next hlt =>
      rw [List.mem_singleton.1 h]
      exact hall n (List.mem_range.2 hlt)
    · next hle =>
      rcases List.mem_append.1 h with h | h
      · exact ih (n / 16) (by omega) h
      · rw [List.mem_singleton.1 h]
        exact hall (n % 16) (List.mem_range.2 (Nat.mod_lt n (by decide)))

/-- **Digits behind those of a number make up the digits of a number**, unless it is zero. -/
theorem toDigits_foldl {ds : List Nat} (hds : ∀ d ∈ ds, d < 16) {n : Nat} (hn : 0 < n) :
    Nat.toDigits 16 (ds.foldl (fun n d => 16 * n + d) n)
      = Nat.toDigits 16 n ++ ds.map Nat.digitChar := by
  induction ds generalizing n with
  | nil => rw [List.foldl_nil, List.map_nil, List.append_nil]
  | cons d ds ih =>
    obtain ⟨hd, hds⟩ := List.forall_mem_cons.1 hds
    have hfirst : Nat.toDigits 16 (16 * n + d) = Nat.toDigits 16 n ++ [d.digitChar] := by
      rw [← Nat.toDigits_append_toDigits (by decide) hn hd, Nat.toDigits_of_lt_base hd]
    rw [List.foldl_cons, ih hds (by omega), hfirst, List.map_cons, List.append_assoc]
    rfl

end Text

namespace Program

/-- **No two numbers have the same identifier.** -/
theorem enumerated_injective {m n : Nat} (h : enumerated m = enumerated n) : m = n := by
  have hdigits : Nat.toDigits 16 m = Nat.toDigits 16 n := String.ofList_injective h
  rw [← Text.hexNumber_toDigits m, hdigits, Text.hexNumber_toDigits]

/-! ## Length -/

theorem length_opsOfDigits_le {id : String} {position : Nat} {cs : List Char} {ops : List Op}
    (h : opsOfDigits id position cs = .ok ops) : ops.length ≤ cs.length := by
  fun_induction opsOfDigits id position cs generalizing ops with
  | case1 => cases h; exact Nat.le_refl _
  | case2 => cases h
  | case3 => cases h
  | case4 => cases h
  | case5 position c hc k rest offset hk ih =>
    -- A branch takes two digits.
    obtain ⟨following, hrest, rfl⟩ := map_eq_ok_iff.1 h
    exact Nat.le_succ_of_le (Nat.succ_le_succ (ih hrest))
  | case6 position c rest d hd hc ih =>
    obtain ⟨following, hrest, rfl⟩ := map_eq_ok_iff.1 h
    exact Nat.succ_le_succ (ih hrest)

/-- **A program is no longer than the digits of its number.** -/
theorem length_le_of_enumerated {n digits : Nat} {p : Program}
    (h : ofIdentifier (enumerated n) = .ok p) (hpos : 0 < digits) (hn : n < Nat.pow 16 digits) :
    p.length ≤ digits := by
  obtain ⟨ops, hops, rfl⟩ := map_eq_ok_iff.1 h
  rw [enumerated, String.toList_ofList] at hops
  exact Nat.le_trans (length_opsOfDigits_le hops)
    ((Nat.length_toDigits_le_iff (by decide) hpos).2 hn)

/-! ## The programs with a number -/

theorem toLower_enumerated (n : Nat) : (enumerated n).toLower = enumerated n := by
  rw [Text.toLower_eq_ofList, enumerated, String.toList_ofList,
    List.map_congr_left fun c => Text.toLower_of_mem_toDigits, List.map_id']

/-- A program has a number if that is its identifier. -/
theorem ofIdentifier_enumerated_iff {n : Nat} {p : Program} :
    ofIdentifier (enumerated n) = .ok p ↔ p.identifier = .ok (enumerated n) := by
  refine ⟨fun h => ?_, ofIdentifier_of_identifier⟩
  rw [identifier_of_ofIdentifier h, toLower_enumerated]

/-- The first digit of an identifier is zero exactly if the program pushes zero first. -/
theorem exists_digits_of_identifier {p : Program} {id : String} (h : p.identifier = .ok id)
    (hne : p.code ≠ []) :
    ∃ d ds, id.toList = (d :: ds).map Nat.digitChar ∧ (∀ e ∈ d :: ds, e < 16) ∧
      (d = 0 ↔ p.code.head? = some (.push 0)) := by
  obtain ⟨digits, hdigits, rfl⟩ := map_eq_ok_iff.1 h
  obtain ⟨op, ops, hcode⟩ := List.exists_cons_of_ne_nil hne
  have hlt := lt_of_mem_digitsOfOps hdigits
  rw [hcode] at hdigits
  obtain ⟨own, following, hown, -, rfl⟩ := digitsOfOps_cons_eq_ok_iff.1 hdigits
  obtain ⟨d, rest, rfl, hzero⟩ := Op.exists_digits_eq_cons hown
  refine ⟨d, rest ++ following, String.toList_ofList, hlt, hzero.trans ?_⟩
  rw [hcode, List.head?_cons, Option.some.injEq]

/-- A program with an identifier that does not push zero first has a number. -/
theorem exists_enumerated_eq {p : Program} {id : String} (h : p.identifier = .ok id)
    (hne : p.code ≠ []) (hzero : p.code.head? ≠ some (.push 0)) : ∃ n, enumerated n = id := by
  obtain ⟨d, ds, hid, hlt, hfirst⟩ := exists_digits_of_identifier h hne
  obtain ⟨hd, hds⟩ := List.forall_mem_cons.1 hlt
  have hpos : 0 < d := Nat.pos_of_ne_zero fun h0 => hzero (hfirst.1 h0)
  refine ⟨ds.foldl (fun n d => 16 * n + d) d, String.toList_injective ?_⟩
  rw [enumerated, String.toList_ofList, Text.toDigits_foldl hds hpos, Nat.toDigits_of_lt_base hd,
    hid]
  rfl

/-- A program with a number pushes zero first only if its number is zero. -/
theorem code_eq_of_head_push_zero {p : Program} {n : Nat}
    (h : p.identifier = .ok (enumerated n)) (hzero : p.code.head? = some (.push 0)) :
    p.code = [.push 0] := by
  have hne : p.code ≠ [] := by
    rintro hnil
    rw [hnil] at hzero
    cases hzero
  obtain ⟨d, ds, hid, -, hfirst⟩ := exists_digits_of_identifier h hne
  rw [enumerated, String.toList_ofList, hfirst.2 hzero] at hid
  obtain rfl : n = 0 := by
    by_contra hn
    exact Text.toDigits_ne_zero_cons (by decide) (by decide) hn _ hid
  have hread := ofIdentifier_of_identifier h
  have hone : ofIdentifier (enumerated 0) = .ok ⟨[.push 0]⟩ := by decide +kernel
  obtain rfl := Except.ok.inj (hread.symm.trans hone)
  rfl

/-- **The numbers with so many digits enumerate each program of their space once**: the programs
with an identifier that fill no more slots and do not push zero first, but for the one that pushes
zero and nothing else. -/
theorem enumeration_exact {digits : Nat} (hpos : 1 ≤ digits) :
    (∀ (m n : Nat) (p : Program), m < 16 ^ digits → n < 16 ^ digits →
      ofIdentifier (enumerated m) = .ok p → ofIdentifier (enumerated n) = .ok p → m = n) ∧
    ∀ p : Program, (∃ n < 16 ^ digits, ofIdentifier (enumerated n) = .ok p) ↔
      p.code ≠ [] ∧ (∃ id, p.identifier = .ok id) ∧ (p.code.map Op.width).sum ≤ digits ∧
        (p.code = [.push 0] ∨ p.code.head? ≠ some (.push 0)) := by
  have hdigits (n : Nat) : (enumerated n).length ≤ digits ↔ n < 16 ^ digits := by
    rw [enumerated, String.length_ofList, Nat.length_toDigits_le_iff (by decide) hpos]
  simp only [ofIdentifier_enumerated_iff]
  constructor
  · intro m n p _ _ hm hn
    exact enumerated_injective (Except.ok.inj (hm.symm.trans hn))
  · intro p
    constructor
    · rintro ⟨n, hn, h⟩
      have hwidth := length_identifier h
      refine ⟨?_, ⟨_, h⟩, hwidth ▸ (hdigits n).2 hn, ?_⟩
      · intro hnil
        rw [hnil, enumerated, String.length_ofList] at hwidth
        exact Nat.toDigits_ne_nil (List.length_eq_zero_iff.1 hwidth)
      · by_cases hzero : p.code.head? = some (.push 0)
        · exact .inl (code_eq_of_head_push_zero h hzero)
        · exact .inr hzero
    · rintro ⟨hne, ⟨id, h⟩, hwidth, hzero⟩
      rcases hzero with hcode | hzero
      · obtain rfl : p = ⟨[.push 0]⟩ := by rw [← hcode]
        exact ⟨0, Nat.pow_pos (by decide), by decide +kernel⟩
      · obtain ⟨n, rfl⟩ := exists_enumerated_eq h hne hzero
        exact ⟨n, (hdigits n).1 (length_identifier h ▸ hwidth), h⟩

/-- With two digits: a branch is enumerated as one program with its offset, and a zero in front of
another operation is not enumerated. -/
theorem enumeration_exact_two :
    1 ≤ 2 ∧ (∃ n < 16 ^ 2, ofIdentifier (enumerated n) = .ok ⟨[.bgtz 0]⟩) ∧
      ¬∃ n < 16 ^ 2, ofIdentifier (enumerated n) = .ok ⟨[.push 0, .dup]⟩ := by
  obtain ⟨-, hprograms⟩ := enumeration_exact (show 1 ≤ 2 by decide)
  refine ⟨by decide,
    (hprograms _).2 ⟨by decide, ⟨"f0", by decide +kernel⟩, by decide, .inr (by decide)⟩,
    fun h => ?_⟩
  obtain ⟨-, -, -, hzero⟩ := (hprograms _).1 h
  exact absurd hzero (by decide)

end Program

end StackSeq

import Mathlib.Algebra.Group.Nat.Even
import Mathlib.Algebra.GroupWithZero.Nat
import Mathlib.Data.List.DropRight
import StackSeq.Check
import StackSeq.Program.Identifier
import StackSeq.Proofs.Rational.Neutral

/-!
# Programs and their identifiers

Which texts are identifiers, which programs have one, and that reading and writing undo each other:
`identifiers_one_to_one`.

A branch takes the digit after it, whatever that is, so no digit says by itself whether a text is an
identifier. But a digit other than `f` ends an operation in any case, alone or as an offset. So only
the run of `f` at the end counts, and it has to be even (`branchTail`, `IsIdentifier`).

Reading is followed digit by digit, writing operation by operation. They meet in the digits of one
operation (`Op.digits?_cases`), which are read as that operation whatever follows
(`opsOfDigits_digits_append`).
-/

namespace StackSeq

/-! ## Digits -/

namespace Text

/-- The hexadecimal digits of either case. -/
def IsHexDigit (c : Char) : Prop :=
  '0' ≤ c ∧ c ≤ '9' ∨ 'a' ≤ c ∧ c ≤ 'f' ∨ 'A' ≤ c ∧ c ≤ 'F'

instance : DecidablePred IsHexDigit :=
  fun _ => inferInstanceAs (Decidable (_ ∨ _))

/-- Whether the digit is that of a branch, in either case. -/
def isBranchDigit (c : Char) : Bool := c == 'f' || c == 'F'

theorem hexValue?_eq_none_iff {c : Char} : hexValue? c = none ↔ ¬IsHexDigit c := by
  have hle (a b : Char) : a ≤ b ↔ a.toNat ≤ b.toNat := Iff.rfl
  unfold hexValue? IsHexDigit
  simp only [hle, show '0'.toNat = 0x30 from rfl, show '9'.toNat = 0x39 from rfl,
    show 'a'.toNat = 0x61 from rfl, show 'f'.toNat = 0x66 from rfl,
    show 'A'.toNat = 0x41 from rfl, show 'F'.toNat = 0x46 from rfl]
  split
  · simp; omega
  · split
    · simp; omega
    · split <;>
      · simp
        omega

theorem isHexDigit_of_hexValue? {c : Char} {d : Nat} (h : hexValue? c = some d) :
    IsHexDigit c := by
  by_contra hno
  rw [hexValue?_eq_none_iff.2 hno] at h
  cases h

/-- Digits are ASCII characters, so what is said of all of them can be checked. -/
theorem toNat_lt_of_hexValue? {c : Char} {d : Nat} (h : hexValue? c = some d) : c.toNat < 128 := by
  simp only [hexValue?] at h
  split at h
  · omega
  · split at h
    · omega
    · split at h
      · omega
      · cases h

theorem forall_digit {P : Nat → Char → Prop}
    (hall : ∀ n ∈ List.range 128, ∀ d ∈ hexValue? (Char.ofNat n), P d (Char.ofNat n)) {c : Char}
    {d : Nat} (h : hexValue? c = some d) : P d c := by
  have hc := hall c.toNat (List.mem_range.2 (toNat_lt_of_hexValue? h)) d
  rw [Char.ofNat_toNat] at hc
  exact hc h

/-- A digit in lower case is the digit of its value. -/
theorem digitChar_of_hexValue? {c : Char} {d : Nat} (h : hexValue? c = some d) :
    d.digitChar = c.toLower :=
  forall_digit (P := fun d c => d.digitChar = c.toLower) (by decide +kernel) h

theorem isBranchDigit_iff {c : Char} {d : Nat} (h : hexValue? c = some d) :
    isBranchDigit c = true ↔ d = 15 :=
  forall_digit (P := fun d c => isBranchDigit c = true ↔ d = 15) (by decide +kernel) h

theorem toLower_eq_ofList (s : String) : s.toLower = String.ofList (s.toList.map Char.toLower) := by
  rw [← String.toList_map, String.ofList_toList]
  rfl

end Text

namespace Op

/-- The operations that an identifier can hold: literals from 0 to 4 and offsets up to 15. -/
def HasDigits : Op → Prop
  | push value => value.den = 1 ∧ 0 ≤ value.num ∧ value.num ≤ 4
  | bgtz offset => offset.toNat ≤ 15
  | _ => True

instance : DecidablePred HasDigits := fun op =>
  match op with
  | push _ => inferInstanceAs (Decidable (_ ∧ _))
  | bgtz _ => inferInstanceAs (Decidable (_ ≤ _))
  | dup | swap | rot | unrot | binary _ | len => isTrue trivial

theorem digits?_eq_none_iff {op : Op} : op.digits? = none ↔ ¬op.HasDigits := by
  cases op with
  | push value => simp [digits?, HasDigits, isEncodableLiteral, Rational.isInteger]
  | bgtz offset => simp [digits?, HasDigits, UInt64.le_iff_toNat_le]
  | binary op => cases op <;> simp [digits?, HasDigits]
  | _ => simp [digits?, HasDigits]

theorem hasDigits_of_digits? {op : Op} {ds : List Nat} (h : op.digits? = some ds) :
    op.HasDigits := by
  by_contra hno
  rw [digits?_eq_none_iff.2 hno] at h
  cases h

/-- A small literal is that of its digit. -/
theorem push_eq_ofDigit {value : Rational} (h : isEncodableLiteral value = true) :
    value.num.toNat < 15 ∧ push value = ofDigit value.num.toNat := by
  simp only [isEncodableLiteral, Rational.isInteger, Bool.and_eq_true, beq_iff_eq,
    decide_eq_true_iff] at h
  obtain ⟨hden, hlow, hhigh⟩ := h
  have hvalue : value = .ofCount value.num.toNat := by
    rw [Rational.ofCount, Int.toNat_of_nonneg hlow]
    have hself := value.ofQuotient_num_den
    rw [hden] at hself
    exact hself.symm
  have hdigit : ∀ n ∈ List.range 5, ofDigit n = push (.ofCount n) := by decide
  refine ⟨by omega, ?_⟩
  rw [hdigit _ (List.mem_range.2 (by omega)), ← hvalue]

/-- **The digits of an operation**: one that stands for it, or those of a branch and its offset. -/
theorem digits?_cases {op : Op} {ds : List Nat} (h : op.digits? = some ds) :
    (∃ d < 15, ds = [d] ∧ op = ofDigit d) ∨
    (∃ offset : UInt64, offset.toNat < 16 ∧ ds = [15, offset.toNat] ∧ op = bgtz offset) := by
  cases op with
  | push value =>
    simp only [digits?, Option.ite_none_right_eq_some, Option.some.injEq] at h
    obtain ⟨hvalue, rfl⟩ := h
    obtain ⟨hlt, heq⟩ := push_eq_ofDigit hvalue
    exact .inl ⟨_, hlt, rfl, heq⟩
  | bgtz offset =>
    simp only [digits?, Option.ite_none_right_eq_some, Option.some.injEq] at h
    obtain ⟨hoffset, rfl⟩ := h
    exact .inr ⟨offset, Nat.lt_succ_of_le (UInt64.le_iff_toNat_le.1 hoffset), rfl, rfl⟩
  | binary op => cases op <;> exact .inl ⟨_, by decide, (Option.some.inj h).symm, rfl⟩
  | dup | swap | rot | unrot | len => exact .inl ⟨_, by decide, (Option.some.inj h).symm, rfl⟩

theorem lt_of_mem_digits {op : Op} {ds : List Nat} (h : op.digits? = some ds) :
    ∀ d ∈ ds, d < 16 := by
  rcases digits?_cases h with ⟨d, hd, rfl, -⟩ | ⟨offset, hoffset, rfl, -⟩
  · simpa using Nat.lt_succ_of_lt hd
  · simpa using hoffset

/-- Only a push of zero has zero as its first digit. -/
theorem exists_digits_eq_cons {op : Op} {ds : List Nat} (h : op.digits? = some ds) :
    ∃ d rest, ds = d :: rest ∧ (d = 0 ↔ op = push 0) := by
  rcases digits?_cases h with ⟨d, hd, rfl, rfl⟩ | ⟨offset, -, rfl, rfl⟩
  · have hall : ∀ d ∈ List.range 15, (d = 0 ↔ ofDigit d = push 0) := by decide
    exact ⟨d, [], rfl, hall d (List.mem_range.2 hd)⟩
  · exact ⟨15, _, rfl, by simp⟩

end Op

namespace Program

/-! ## What an identifier is -/

/-- The digits of branches in a row at the end of a text. -/
def branchTail (cs : List Char) : List Char := cs.rtakeWhile Text.isBranchDigit

/-- The texts that are identifiers: hexadecimal digits of which an even number of `f` stands at the
end. -/
def IsIdentifier (id : String) : Prop :=
  (∀ c ∈ id.toList, Text.IsHexDigit c) ∧ Even (branchTail id.toList).length

instance : DecidablePred IsIdentifier :=
  fun _ => inferInstanceAs (Decidable (_ ∧ _))

theorem branchTail_cons (c : Char) (cs : List Char) :
    branchTail (c :: cs)
      = if cs.all Text.isBranchDigit ∧ Text.isBranchDigit c then c :: cs else branchTail cs := by
  unfold branchTail
  induction cs using List.reverseRecOn with
  | nil => cases h : Text.isBranchDigit c <;> simp [List.rtakeWhile, h]
  | append_singleton cs x ih =>
    rw [← List.cons_append, List.rtakeWhile_concat, ih, List.rtakeWhile_concat]
    cases h : Text.isBranchDigit x <;> cases h' : Text.isBranchDigit c <;> simp [h]
    split <;> rfl

theorem branchTail_cons_of_not {c : Char} (h : Text.isBranchDigit c = false) (cs : List Char) :
    branchTail (c :: cs) = branchTail cs := by
  rw [branchTail_cons, if_neg (by simp [h])]

/-- A branch and its offset in front do not change whether the run at the end is even. -/
theorem even_branchTail_cons_cons {c : Char} (h : Text.isBranchDigit c = true) (k : Char)
    (cs : List Char) :
    Even (branchTail (c :: k :: cs)).length ↔ Even (branchTail cs).length := by
  rw [branchTail_cons, branchTail_cons]
  by_cases hall : cs.all Text.isBranchDigit = true
  · have htail : branchTail cs = cs := List.rtakeWhile_eq_self_iff.2 (List.all_eq_true.1 hall)
    cases hk : Text.isBranchDigit k with
    | true => simp [h, hk, hall, htail, Nat.even_add_one]
    | false => simp [hk, htail]
  · simp [hall]

section

variable {id : String} {position index : Nat} {cs : List Char} {ops : List Op} {ds : List Nat}

/-! ## Reading -/

/-- What can be read consists of digits, and its last branch has an offset. -/
theorem isIdentifier_of_opsOfDigits (h : opsOfDigits id position cs = .ok ops) :
    (∀ c ∈ cs, Text.IsHexDigit c) ∧ Even (branchTail cs).length := by
  fun_induction opsOfDigits id position cs generalizing ops with
  | case1 => exact ⟨List.forall_mem_nil _, Even.zero⟩
  | case2 => cases h
  | case3 => cases h
  | case4 => cases h
  | case5 position c hc k rest offset hk ih =>
    obtain ⟨following, hrest, -⟩ := map_eq_ok_iff.1 h
    obtain ⟨hdigits, heven⟩ := ih hrest
    refine ⟨List.forall_mem_cons.2 ⟨Text.isHexDigit_of_hexValue? hc,
      List.forall_mem_cons.2 ⟨Text.isHexDigit_of_hexValue? hk, hdigits⟩⟩, ?_⟩
    exact (even_branchTail_cons_cons ((Text.isBranchDigit_iff hc).2 rfl) k rest).2 heven
  | case6 position c rest d hd hc ih =>
    obtain ⟨following, hrest, -⟩ := map_eq_ok_iff.1 h
    obtain ⟨hdigits, heven⟩ := ih hrest
    have hbranch : Text.isBranchDigit c = false :=
      Bool.eq_false_iff.2 fun h => hd ((Text.isBranchDigit_iff hc).1 h)
    refine ⟨List.forall_mem_cons.2 ⟨Text.isHexDigit_of_hexValue? hc, hdigits⟩, ?_⟩
    rwa [branchTail_cons_of_not hbranch]

/-- What cannot be read has a character that is no digit, and the first such is reported, or it has
an odd run of branches at its end. -/
theorem error_of_opsOfDigits {e : IdentifierError} (h : opsOfDigits id position cs = .error e) :
    (∃ i, cs.findIdx? (fun c => !decide (Text.IsHexDigit c)) = some i ∧
      e = .invalidCharacter id (position + i)) ∨
    (cs.findIdx? (fun c => !decide (Text.IsHexDigit c)) = none ∧
      ¬Even (branchTail cs).length ∧ e = .danglingBranch id) := by
  fun_induction opsOfDigits id position cs generalizing e with
  | case1 => cases h
  | case2 position c rest hc =>
    cases h
    exact .inl ⟨0, by simp [List.findIdx?_cons, Text.hexValue?_eq_none_iff.1 hc], rfl⟩
  | case3 position c hc =>
    cases h
    refine .inr ⟨by simp [Text.isHexDigit_of_hexValue? hc], ?_, rfl⟩
    simp [branchTail_cons, (Text.isBranchDigit_iff hc).2 rfl]
  | case4 position c hc k rest hk =>
    cases h
    exact .inl ⟨1, by simp [List.findIdx?_cons, Text.isHexDigit_of_hexValue? hc,
      Text.hexValue?_eq_none_iff.1 hk], rfl⟩
  | case5 position c hc k rest offset hk ih =>
    have hbranch := (Text.isBranchDigit_iff hc).2 rfl
    have hc := Text.isHexDigit_of_hexValue? hc
    have hk := Text.isHexDigit_of_hexValue? hk
    rcases ih (map_eq_error_iff.1 h) with ⟨i, hi, rfl⟩ | ⟨hnone, hodd, rfl⟩
    · refine .inl ⟨i + 2, by simp [List.findIdx?_cons, hc, hk, hi], ?_⟩
      rw [Nat.add_comm i, Nat.add_assoc]
    · refine .inr ⟨by simp [List.findIdx?_cons, hc, hk, hnone], ?_, rfl⟩
      rwa [even_branchTail_cons_cons hbranch]
  | case6 position c rest d hd hc ih =>
    have hbranch : Text.isBranchDigit c = false :=
      Bool.eq_false_iff.2 fun h => hd ((Text.isBranchDigit_iff hc).1 h)
    have hc := Text.isHexDigit_of_hexValue? hc
    rcases ih (map_eq_error_iff.1 h) with ⟨i, hi, rfl⟩ | ⟨hnone, hodd, rfl⟩
    · refine .inl ⟨i + 1, by simp [List.findIdx?_cons, hc, hi], ?_⟩
      rw [Nat.add_comm i, Nat.add_assoc]
    · refine .inr ⟨by simp [List.findIdx?_cons, hc, hnone], ?_, rfl⟩
      rwa [branchTail_cons_of_not hbranch]

theorem opsOfDigits_cons {c : Char} {d : Nat} (hc : Text.hexValue? c = some d) (hd : d < 15)
    (id : String) (position : Nat) (rest : List Char) :
    opsOfDigits id position (c :: rest)
      = (opsOfDigits id (position + 1) rest).map (Op.ofDigit d :: ·) := by
  have hne : d ≠ 15 := Nat.ne_of_lt hd
  rw [opsOfDigits.eq_def]
  simp only [hc]

theorem opsOfDigits_branch {c k : Char} {offset : Nat} (hc : Text.hexValue? c = some 15)
    (hk : Text.hexValue? k = some offset) (id : String) (position : Nat) (rest : List Char) :
    opsOfDigits id position (c :: k :: rest)
      = (opsOfDigits id (position + 2) rest).map (Op.bgtz (.ofNat offset) :: ·) := by
  rw [opsOfDigits.eq_def]
  simp only [hc, hk]

/-- **The digits of an operation are read as that operation**, whatever follows. -/
theorem opsOfDigits_digits_append {op : Op} (h : op.digits? = some ds) (id : String)
    (position : Nat) (rest : List Char) :
    opsOfDigits id position (ds.map Nat.digitChar ++ rest)
      = (opsOfDigits id (position + ds.length) rest).map (op :: ·) := by
  rcases Op.digits?_cases h with ⟨d, hd, rfl, rfl⟩ | ⟨offset, hoffset, rfl, rfl⟩
  · exact opsOfDigits_cons (Text.hexValue?_digitChar (Nat.lt_succ_of_lt hd)) hd id position rest
  · have hbranch := opsOfDigits_branch (Text.hexValue?_digitChar (show 15 < 16 by decide))
      (Text.hexValue?_digitChar hoffset) id position rest
    rw [UInt64.ofNat_toNat] at hbranch
    exact hbranch

/-! ## Writing -/

/-- Operations in a row can be written if all of them can, each with its own digits. -/
theorem digitsOfOps_cons_eq_ok_iff {op : Op} :
    digitsOfOps index (op :: ops) = .ok ds ↔ ∃ own following, op.digits? = some own ∧
      digitsOfOps (index + 1) ops = .ok following ∧ own ++ following = ds := by
  rw [digitsOfOps]
  cases op.digits? with
  | none => simp
  | some own => simp [map_eq_ok_iff]

theorem hasDigits_of_digitsOfOps (h : digitsOfOps index ops = .ok ds) :
    ∀ op ∈ ops, op.HasDigits := by
  induction ops generalizing index ds with
  | nil => exact List.forall_mem_nil _
  | cons op ops ih =>
    obtain ⟨own, following, hown, hrest, -⟩ := digitsOfOps_cons_eq_ok_iff.1 h
    exact List.forall_mem_cons.2 ⟨Op.hasDigits_of_digits? hown, ih hrest⟩

/-- There is a digit for each slot. -/
theorem length_digitsOfOps (h : digitsOfOps index ops = .ok ds) :
    ds.length = (ops.map Op.width).sum := by
  induction ops generalizing index ds with
  | nil =>
    cases h
    rfl
  | cons op ops ih =>
    obtain ⟨own, following, hown, hrest, rfl⟩ := digitsOfOps_cons_eq_ok_iff.1 h
    rw [List.length_append, Op.length_digits hown, ih hrest, List.map_cons, List.sum_cons]

theorem lt_of_mem_digitsOfOps (h : digitsOfOps index ops = .ok ds) : ∀ d ∈ ds, d < 16 := by
  induction ops generalizing index ds with
  | nil =>
    cases h
    exact List.forall_mem_nil _
  | cons op ops ih =>
    obtain ⟨own, following, hown, hrest, rfl⟩ := digitsOfOps_cons_eq_ok_iff.1 h
    exact List.forall_mem_append.2 ⟨Op.lt_of_mem_digits hown, ih hrest⟩

/-- What cannot be written is the first operation without digits. -/
theorem error_of_digitsOfOps {e : UnencodableOp} (h : digitsOfOps index ops = .error e) :
    ∃ i, ops.findIdx? (fun op => !decide op.HasDigits) = some i ∧ ops[i]? = some e.op ∧
      e.position = index + i := by
  induction ops generalizing index with
  | nil => cases h
  | cons op ops ih =>
    rw [digitsOfOps] at h
    split at h
    · next hnone =>
      cases h
      exact ⟨0, by simp [List.findIdx?_cons, Op.digits?_eq_none_iff.1 hnone], rfl, rfl⟩
    · next own hown =>
      obtain ⟨i, hi, hop, hposition⟩ := ih (map_eq_error_iff.1 h)
      exact ⟨i + 1, by simp [List.findIdx?_cons, Op.hasDigits_of_digits? hown, hi], hop,
        by omega⟩

/-! ## Writing and reading -/

/-- The digits of operations in a row are read as those operations. -/
theorem opsOfDigits_of_digitsOfOps (h : digitsOfOps index ops = .ok ds) :
    opsOfDigits id position (ds.map Nat.digitChar) = .ok ops := by
  induction ops generalizing index position ds with
  | nil =>
    cases h
    rfl
  | cons op ops ih =>
    obtain ⟨own, following, hown, hrest, rfl⟩ := digitsOfOps_cons_eq_ok_iff.1 h
    rw [List.map_append, opsOfDigits_digits_append hown, ih hrest]
    rfl

/-- What was read is written with the same digits, in lower case. -/
theorem exists_digitsOfOps_of_opsOfDigits (h : opsOfDigits id position cs = .ok ops)
    (index : Nat) :
    ∃ ds, digitsOfOps index ops = .ok ds ∧ ds.map Nat.digitChar = cs.map Char.toLower := by
  fun_induction opsOfDigits id position cs generalizing ops index with
  | case1 =>
    cases h
    exact ⟨[], rfl, rfl⟩
  | case2 => cases h
  | case3 => cases h
  | case4 => cases h
  | case5 position c hc k rest offset hk ih =>
    obtain ⟨ops', hrest, rfl⟩ := map_eq_ok_iff.1 h
    obtain ⟨following, hfollowing, hchars⟩ := ih hrest (index + 1)
    have hoffset : offset < 16 := Text.hexValue?_lt hk
    have hword : (UInt64.ofNat offset).toNat = offset :=
      UInt64.toNat_ofNat_of_lt (Nat.lt_trans hoffset (by decide))
    have hle : UInt64.ofNat offset ≤ 15 := by
      rw [UInt64.le_iff_toNat_le, hword]
      exact Nat.le_of_lt_succ hoffset
    have hown : (Op.bgtz (.ofNat offset)).digits? = some [15, offset] := by
      rw [Op.digits?, if_pos hle, hword]
    refine ⟨[15, offset] ++ following,
      digitsOfOps_cons_eq_ok_iff.2 ⟨_, _, hown, hfollowing, rfl⟩, ?_⟩
    simp only [List.map_cons, List.cons_append, List.nil_append, Text.digitChar_of_hexValue? hc,
      Text.digitChar_of_hexValue? hk, hchars]
  | case6 position c rest d hd hc ih =>
    obtain ⟨ops', hrest, rfl⟩ := map_eq_ok_iff.1 h
    obtain ⟨following, hfollowing, hchars⟩ := ih hrest (index + 1)
    have hlt : d < 15 := Nat.lt_of_le_of_ne (Nat.le_of_lt_succ (Text.hexValue?_lt hc)) hd
    refine ⟨[d] ++ following,
      digitsOfOps_cons_eq_ok_iff.2 ⟨_, _, Op.digits?_ofDigit hlt, hfollowing, rfl⟩, ?_⟩
    simp only [List.map_cons, List.cons_append, List.nil_append, Text.digitChar_of_hexValue? hc,
      hchars]

end

/-! ## Identifiers -/

variable {id : String} {p : Program}

/-- **A program read from an identifier has that identifier**, in lower case. -/
theorem identifier_of_ofIdentifier (h : ofIdentifier id = .ok p) :
    p.identifier = .ok id.toLower := by
  obtain ⟨ops, hops, rfl⟩ := map_eq_ok_iff.1 h
  obtain ⟨ds, hds, hchars⟩ := exists_digitsOfOps_of_opsOfDigits hops 0
  refine map_eq_ok_iff.2 ⟨ds, hds, ?_⟩
  rw [hchars, Text.toLower_eq_ofList]

/-- **The identifier of a program is read as that program.** -/
theorem ofIdentifier_of_identifier (h : p.identifier = .ok id) : ofIdentifier id = .ok p := by
  obtain ⟨ds, hds, rfl⟩ := map_eq_ok_iff.1 h
  rw [ofIdentifier, String.toList_ofList, opsOfDigits_of_digitsOfOps hds]
  rfl

theorem length_identifier (h : p.identifier = .ok id) :
    id.length = (p.code.map Op.width).sum := by
  obtain ⟨ds, hds, rfl⟩ := map_eq_ok_iff.1 h
  rw [String.length_ofList, List.length_map, length_digitsOfOps hds]

theorem exists_ofIdentifier_iff : (∃ p, ofIdentifier id = .ok p) ↔ IsIdentifier id := by
  constructor
  · rintro ⟨p, h⟩
    obtain ⟨ops, hops, -⟩ := map_eq_ok_iff.1 h
    exact isIdentifier_of_opsOfDigits hops
  · rintro ⟨hdigits, heven⟩
    cases h : opsOfDigits id 0 id.toList with
    | ok ops => exact ⟨⟨ops⟩, map_eq_ok_iff.2 ⟨ops, h, rfl⟩⟩
    | error e =>
      -- There is neither a character to report nor a branch without its offset.
      rcases error_of_opsOfDigits h with ⟨i, hi, -⟩ | ⟨-, hodd, -⟩
      · have hnone : id.toList.findIdx? (fun c => !decide (Text.IsHexDigit c)) = none := by
          simpa using hdigits
        rw [hnone] at hi
        cases hi
      · exact absurd heven hodd

theorem exists_identifier_iff : (∃ id, p.identifier = .ok id) ↔ ∀ op ∈ p.code, op.HasDigits := by
  constructor
  · rintro ⟨id, h⟩
    obtain ⟨ds, hds, -⟩ := map_eq_ok_iff.1 h
    exact hasDigits_of_digitsOfOps hds
  · intro hdigits
    cases h : digitsOfOps 0 p.code with
    | ok ds => exact ⟨_, map_eq_ok_iff.2 ⟨ds, h, rfl⟩⟩
    | error e =>
      obtain ⟨i, hi, -, -⟩ := error_of_digitsOfOps h
      have hnone : p.code.findIdx? (fun op => !decide op.HasDigits) = none := by
        simpa using hdigits
      rw [hnone] at hi
      cases hi

/-- **Identifiers and the programs that have one correspond one to one.** A text is read exactly if
it is an identifier, and then the program has it as its identifier, but for case; otherwise the
first character that is no digit is reported, if there is one. A program has an identifier exactly
if all of its operations have digits, and then it is read from it; otherwise the first operation
without digits is reported. -/
theorem identifiers_one_to_one :
    (∀ id : String,
      ((∃ p, ofIdentifier id = .ok p) ↔ IsIdentifier id) ∧
      (∀ p, ofIdentifier id = .ok p → p.identifier = .ok id.toLower) ∧
      ∀ e, ofIdentifier id = .error e → e.diagnostic.kind = .decodeFailed ∧
        ∀ i, id.toList.findIdx? (fun c => !decide (Text.IsHexDigit c)) = some i →
          e.diagnostic.detail? "position" = some (toString i)) ∧
    ∀ p : Program,
      ((∃ id, p.identifier = .ok id) ↔ ∀ op ∈ p.code, op.HasDigits) ∧
      (∀ id, p.identifier = .ok id →
        ofIdentifier id = .ok p ∧ id.length = (p.code.map Op.width).sum) ∧
      ∀ e, p.identifier = .error e → e.diagnostic.kind = .encodeFailed ∧
        ∃ i, p.code.findIdx? (fun op => !decide op.HasDigits) = some i ∧
          p.code[i]? = some e.op ∧ e.diagnostic.detail? "position" = some (toString i) := by
  refine ⟨fun id => ⟨exists_ofIdentifier_iff, fun p => identifier_of_ofIdentifier, ?_⟩,
    fun p => ⟨exists_identifier_iff,
      fun id h => ⟨ofIdentifier_of_identifier h, length_identifier h⟩, ?_⟩⟩
  · intro e h
    rcases error_of_opsOfDigits (map_eq_error_iff.1 h) with ⟨i, hi, rfl⟩ | ⟨hnone, -, rfl⟩
    · refine ⟨rfl, fun j hj => ?_⟩
      obtain rfl : i = j := Option.some.inj (hi.symm.trans hj)
      rw [Nat.zero_add]
      rfl
    · refine ⟨rfl, fun j hj => ?_⟩
      rw [hnone] at hj
      cases hj
  · intro e h
    obtain ⟨i, hi, hop, hposition⟩ := error_of_digitsOfOps (map_eq_error_iff.1 h)
    rw [Nat.zero_add] at hposition
    refine ⟨rfl, i, hi, hop, ?_⟩
    rw [← hposition]
    rfl

/-- A branch whose offset is the digit of a branch; a character that is no digit in the place of an
offset; a literal that is too large. -/
theorem identifiers_one_to_one_branches :
    let p : Program := ⟨[.dup, .bgtz 15, .bgtz 0]⟩
    let q : Program := ⟨[.dup, .push (.ofCount 5)]⟩
    let character : IdentifierError := .invalidCharacter "afz" 2
    let literal : UnencodableOp := ⟨.push (.ofCount 5), 1⟩
    (IsIdentifier "aFFf0" ∧ ofIdentifier "aFFf0" = .ok p ∧ p.identifier = .ok "afff0" ∧
        ofIdentifier "afff0" = .ok p ∧ "afff0".length = 5) ∧
      (ofIdentifier "afz" = .error character ∧
        character.diagnostic.detail? "position" = some (toString 2)) ∧
      q.identifier = .error literal ∧ ∃ i : Nat, q.code[i]? = some literal.op ∧
        literal.diagnostic.detail? "position" = some (toString i) := by
  intro p q character literal
  have hp : ofIdentifier "aFFf0" = .ok p := by decide +kernel
  have hcharacter : ofIdentifier "afz" = .error character := by decide +kernel
  have hliteral : q.identifier = .error literal := by decide +kernel
  obtain ⟨hread, hwritten, -⟩ := identifiers_one_to_one.1 "aFFf0"
  have hlower : "aFFf0".toLower = "afff0" := by decide +kernel
  have hid : p.identifier = .ok "afff0" := hlower ▸ hwritten p hp
  obtain ⟨hback, hlength⟩ := (identifiers_one_to_one.2 p).2.1 _ hid
  obtain ⟨-, hposition⟩ := (identifiers_one_to_one.1 "afz").2.2 character hcharacter
  obtain ⟨-, i, -, hop, hindex⟩ := (identifiers_one_to_one.2 q).2.2 literal hliteral
  exact ⟨⟨hread.1 ⟨p, hp⟩, hp, hid, hback, hlength⟩,
    ⟨hcharacter, hposition 2 (by decide +kernel)⟩, hliteral, i, hop, hindex⟩

end Program

end StackSeq
